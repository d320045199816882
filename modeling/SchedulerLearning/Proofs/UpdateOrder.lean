import SchedulerLearning.Proofs.UpdateShapes
import Mathlib.Data.List.Induction

/-!
# Updates do not depend on an order

What an update makes of a state follows from the mixture of that state and its rewards, so the
states with rewards may be visited in any order.
-/

namespace SchedulerLearning

namespace Scheduler

section
variable {α : Type} {p : Scheduler α} {s t : State} {m m' : Mixture α}

theorem get?_insert_insertIfNew :
    get? ⟨(p.states.insertIfNew s m).insert s m'⟩ t = if s == t then some m' else p.get? t := by
  simp only [get?, Std.HashMap.getElem?_insert, Std.HashMap.getElem?_insertIfNew]
  grind

theorem get?_insertIfNew (known : (p.get? s).getD m = m) :
    get? ⟨p.states.insertIfNew s m⟩ t = if s == t then some m else p.get? t := by
  simp only [get?, Std.HashMap.getElem?_insertIfNew] at known ⊢
  grind

end

variable {α : Type} [Scalar α] (rule : UpdateRule) (w : UpdateWeights α)
  {p : Scheduler α} {s t : State} {ts : Tallies} {entries entries' : List (State × Tallies)}
  {done : Updated α} {m m' : Mixture α}

def replacement (m : Mixture α) (rewards : Tallies) : Except Fault (Option (Mixture α)) := do
  match ← rule.next? w m.probabilities rewards with
  | none => return none
  | some probabilities => return some (← m.replace probabilities)

theorem replacement_eq : replacement rule w m ts =
    (rule.next? w m.probabilities ts).map (Option.map Mixture.mk) := by
  unfold replacement
  cases made : rule.next? w m.probabilities ts with
  | error fault => rfl
  | ok new =>
    cases new with
    | none => rfl
    | some new =>
      have fits : new.length = m.size := UpdateRule.length_of_next? made
      show (m.replace new >>= fun m' => .ok (some m')) = _
      rw [Mixture.replace, if_pos fits]
      rfl

variable {rule w} in
theorem replacement_eq_some : replacement rule w m ts = .ok (some m') ↔
    rule.next? w m.probabilities ts = .ok (some m'.probabilities) := by
  rw [replacement_eq]
  rcases rule.next? w m.probabilities ts with _ | _ | new
  · exact iff_of_false nofun nofun
  · exact iff_of_false nofun nofun
  · exact ⟨fun h => by cases h; rfl, fun h => by cases h; rfl⟩

/-- What becomes of the mixture of a state with rewards, if it has one, and whether it changes. -/
def renewed (known : Option (Mixture α)) (rewards : Tallies) : Mixture α × Except Fault Bool :=
  let m := known.getD (.uniform rewards.length)
  match replacement rule w m rewards with
  | .ok none => (m, .ok false)
  | .ok (some m') => (m', .ok true)
  | .error fault => (m, .error fault)

/-- The update of a state is read off its own mixture, and leaves all others alone. -/
theorem updateState_eq (p : Scheduler α) (s : State) (ts : Tallies) :
    (p.updateState rule w s ts).2 = (renewed rule w (p.get? s) ts).2 ∧
      ∀ t, (p.updateState rule w s ts).1.get? t =
        if s == t then some (renewed rule w (p.get? s) ts).1 else p.get? t := by
  have known : p.states.getD s (.uniform ts.length) = (p.get? s).getD (.uniform ts.length) :=
    Std.HashMap.getD_eq_getD_getElem?
  have idle : (p.get? s).getD ((p.get? s).getD (.uniform ts.length)) =
      (p.get? s).getD (.uniform ts.length) := by
    cases p.get? s <;> rfl
  have replaced : p.updateState rule w s ts =
      match replacement rule w ((p.get? s).getD (.uniform ts.length)) ts with
      | .ok none => (⟨p.states.insertIfNew s ((p.get? s).getD (.uniform ts.length))⟩, .ok false)
      | .ok (some m) =>
        (⟨(p.states.insertIfNew s ((p.get? s).getD (.uniform ts.length))).insert s m⟩, .ok true)
      | .error fault =>
        (⟨p.states.insertIfNew s ((p.get? s).getD (.uniform ts.length))⟩, .error fault) := by
    rw [← known]
    rfl
  rw [replaced, renewed]
  cases replacement rule w ((p.get? s).getD (.uniform ts.length)) ts with
  | error fault => exact ⟨rfl, fun t => get?_insertIfNew idle⟩
  | ok m =>
    cases m with
    | none => exact ⟨rfl, fun t => get?_insertIfNew idle⟩
    | some m => exact ⟨rfl, fun t => get?_insert_insertIfNew⟩

def visit (done : Updated α) (entry : State × Tallies) : Updated α :=
  match done.scheduler.updateState rule w entry.1 entry.2 with
  | (p, .ok changed) => ⟨p, if changed then done.changed + 1 else done.changed, done.fault⟩
  | (p, .error fault) => ⟨p, done.changed, done.fault <|> some fault⟩

theorem updateEach_append_singleton (entry : State × Tallies) :
    updateEach rule w p (entries ++ [entry]) = visit rule w (updateEach rule w p entries) entry := by
  simp only [updateEach, List.foldl_append, List.foldl_cons, List.foldl_nil]
  rfl

def changes (p : Scheduler α) (entry : State × Tallies) : Bool :=
  (renewed rule w (p.get? entry.1) entry.2).2.toOption == some true

def faults (p : Scheduler α) (entry : State × Tallies) : Bool :=
  !(renewed rule w (p.get? entry.1) entry.2).2.isOk

structure Renews (p : Scheduler α) (entries : List (State × Tallies)) (done : Updated α) : Prop where
  visited : ∀ s ts, (s, ts) ∈ entries →
    done.scheduler.get? s = some (renewed rule w (p.get? s) ts).1
  others : ∀ s, (∀ ts, (s, ts) ∉ entries) → done.scheduler.get? s = p.get? s
  changed : done.changed = entries.countP (changes rule w p)
  fault : done.fault.isSome = entries.any (faults rule w p)

variable {rule w}

theorem Renews.visit (h : Renews rule w p entries done) (fresh : ∀ ts, (s, ts) ∉ entries) :
    Renews rule w p (entries ++ [(s, ts)]) (Scheduler.visit rule w done (s, ts)) := by
  obtain ⟨answer, mixtures⟩ := updateState_eq rule w done.scheduler s ts
  rw [h.others s fresh] at answer mixtures
  unfold Scheduler.visit
  cases updated : done.scheduler.updateState rule w s ts with
  | mk p' result =>
    simp only [updated] at answer mixtures ⊢
    have found : p'.get? s = some (renewed rule w (p.get? s) ts).1 := by simp [mixtures]
    have kept : ∀ t ts', (t, ts') ∈ entries → p'.get? t = done.scheduler.get? t := by
      intro t ts' there
      have other : s ≠ t := by
        rintro rfl
        exact fresh ts' there
      simp [mixtures, other]
    have visited : ∀ t ts', (t, ts') ∈ entries ++ [(s, ts)] →
        p'.get? t = some (renewed rule w (p.get? t) ts').1 := by
      intro t ts' there
      rcases List.mem_append.mp there with before | last
      · rw [kept t ts' before, h.visited t ts' before]
      · cases List.mem_singleton.mp last
        exact found
    have others : ∀ t, (∀ ts', (t, ts') ∉ entries ++ [(s, ts)]) → p'.get? t = p.get? t := by
      intro t absent
      have other : s ≠ t := by
        rintro rfl
        exact absent ts (by simp)
      rw [← h.others t fun ts' there => absent ts' (by simp [there])]
      simp [mixtures, other]
    cases result with
    | ok changed =>
      refine ⟨visited, others, ?_, ?_⟩
      · cases changed <;> simp [h.changed, changes, ← answer, Except.toOption]
      · simp [h.fault, faults, ← answer, Except.isOk, Except.toBool]
    | error fault =>
      refine ⟨visited, others, ?_, ?_⟩
      · simp [h.changed, changes, ← answer, Except.toOption]
      · simp [faults, ← answer, Except.isOk, Except.toBool]

theorem renews_updateEach (distinct : (entries.map Prod.fst).Nodup) :
    Renews rule w p entries (updateEach rule w p entries) := by
  induction entries using List.reverseRecOn with
  | nil => exact ⟨by simp, fun _ _ => rfl, rfl, rfl⟩
  | append_singleton entries entry ih =>
    rw [List.map_append, List.nodup_append] at distinct
    obtain ⟨before, -, apart⟩ := distinct
    rw [updateEach_append_singleton]
    refine (ih before).visit fun ts there => ?_
    exact apart entry.1 (List.mem_map.mpr ⟨_, there, rfl⟩) entry.1 (by simp) rfl

theorem Renews.perm (h : Renews rule w p entries done) (same : entries.Perm entries') :
    Renews rule w p entries' done where
  visited s ts there := h.visited s ts (same.mem_iff.mpr there)
  others s absent := h.others s fun ts there => absent ts (same.mem_iff.mp there)
  changed := by rw [h.changed, same.countP_eq]
  fault := by rw [h.fault, same.any_eq]

theorem Renews.unique {done' : Updated α} (h : Renews rule w p entries done)
    (h' : Renews rule w p entries done') (s : State) :
    done.scheduler.get? s = done'.scheduler.get? s := by
  by_cases listed : ∃ ts, (s, ts) ∈ entries
  · obtain ⟨ts, there⟩ := listed
    rw [h.visited s ts there, h'.visited s ts there]
  · have absent : ∀ ts, (s, ts) ∉ entries := fun ts there => listed ⟨ts, there⟩
    rw [h.others s absent, h'.others s absent]

/-- Two orders of the same entries lead to the same mixtures and the same number of changes. -/
theorem updateEach_perm (distinct : (entries.map Prod.fst).Nodup) (same : entries.Perm entries') :
    (∀ s, (updateEach rule w p entries).scheduler.get? s =
      (updateEach rule w p entries').scheduler.get? s) ∧
    (updateEach rule w p entries).changed = (updateEach rule w p entries').changed ∧
    (updateEach rule w p entries).fault.isSome = (updateEach rule w p entries').fault.isSome := by
  have first : Renews rule w p entries' (updateEach rule w p entries) :=
    (renews_updateEach distinct).perm same
  have second : Renews rule w p entries' (updateEach rule w p entries') :=
    renews_updateEach ((same.map Prod.fst).nodup_iff.mp distinct)
  exact ⟨first.unique second, by rw [first.changed, second.changed],
    by rw [first.fault, second.fault]⟩

end Scheduler

theorem Rewards.nodup_states (r : Rewards) : (r.states.toList.map Prod.fst).Nodup := by
  rw [List.Nodup, List.pairwise_map]
  refine Std.HashMap.distinct_keys_toList.imp fun apart => ?_
  simpa using apart

theorem Scheduler.get?_update {α : Type} [Scalar α] (rule : UpdateRule) (w : UpdateWeights α)
    (p : Scheduler α) (r : Rewards) (t : State) :
    (p.update rule w r).scheduler.get? t =
      match r.states[t]? with
      | none => p.get? t
      | some ts => some (renewed rule w (p.get? t) ts).1 := by
  have renews : Renews rule w p r.states.toList (p.update rule w r) :=
    renews_updateEach r.nodup_states
  cases rewarded : r.states[t]? with
  | none =>
    refine renews.others t fun ts there => ?_
    rw [Std.HashMap.mem_toList_iff_getElem?_eq_some, rewarded] at there
    cases there
  | some ts => exact renews.visited t ts (Std.HashMap.mem_toList_iff_getElem?_eq_some.mpr rewarded)

end SchedulerLearning

import SchedulerLearning.Proofs.UpdateRules

/-!
# Every scheduler stays a family of distributions

Whatever states are made known, rewards added and updates made, in any order, the scheduler
has a distribution for each state that it knows, of the length it was created with.
-/

namespace SchedulerLearning

-- ---------------------------------------------------------------------------
-- Schedulers
-- ---------------------------------------------------------------------------

namespace Scheduler

variable {p p' p'' : Scheduler Rat} {s : State} {m : Mixture Rat}

def Sound (p : Scheduler Rat) : Prop :=
  ∀ s m, p.get? s = some m → IsDistribution m.probabilities

def Extends (p p' : Scheduler Rat) : Prop :=
  ∀ s m, p.get? s = some m → ∃ m', p'.get? s = some m' ∧ m'.size = m.size

theorem Extends.refl (p : Scheduler Rat) : p.Extends p :=
  fun _ m known => ⟨m, known, rfl⟩

theorem Extends.trans (h : p.Extends p') (h' : p'.Extends p'') : p.Extends p'' := by
  intro s m known
  obtain ⟨m', known', same⟩ := h s m known
  obtain ⟨m'', known'', same'⟩ := h' s m' known'
  exact ⟨m'', known'', same'.trans same⟩

theorem Sound.empty : (Scheduler.empty : Scheduler Rat).Sound := by
  intro s m known
  simp [get?, Scheduler.empty] at known

theorem insert_spec (hp : p.Sound) (hm : IsDistribution m.probabilities)
    (fits : ∀ old, p.get? s = some old → m.size = old.size) :
    Sound ⟨p.states.insert s m⟩ ∧ p.Extends ⟨p.states.insert s m⟩ := by
  constructor
  · intro t n known
    simp only [get?, Std.HashMap.getElem?_insert] at known
    split at known
    · cases known
      exact hm
    · exact hp t n known
  · intro t n known
    by_cases same : s = t
    · subst same
      exact ⟨m, by simp [get?], fits n known⟩
    · exact ⟨n, by simpa [get?, Std.HashMap.getElem?_insert, same] using known, rfl⟩

theorem initialise_spec {count : Nat} (hp : p.Sound) (some : 0 < count) :
    (p.initialise s count).1.Sound ∧ p.Extends (p.initialise s count).1 := by
  unfold initialise
  split
  · exact ⟨hp, .refl p⟩
  · next unknown =>
    split
    · exact ⟨hp, .refl p⟩
    · simp only [Prod.map_fst, id_eq, enter, unknown, Bool.false_eq_true, if_false]
      refine insert_spec hp (.uniform some) fun old known => ?_
      simp [contains, Std.HashMap.contains_eq_isSome_getElem?, show p.states[s]? = _ from known]
        at unknown

-- ---------------------------------------------------------------------------
-- Updates
-- ---------------------------------------------------------------------------

variable {w : UpdateWeights Rat} {rewards : Tallies}

theorem known_isDistribution (hp : p.Sound) (some : 0 < rewards.length) :
    IsDistribution (p.states.getD s (.uniform rewards.length)).probabilities := by
  rw [Std.HashMap.getD_eq_getD_getElem?]
  cases known : p.states[s]? with
  | none => exact .uniform some
  | some m => exact hp s m known

theorem insertIfNew_spec (hp : p.Sound) (hm : IsDistribution m.probabilities) :
    Sound ⟨p.states.insertIfNew s m⟩ ∧ p.Extends ⟨p.states.insertIfNew s m⟩ := by
  constructor
  · intro t n known
    simp only [get?, Std.HashMap.getElem?_insertIfNew] at known
    split at known
    · cases known
      exact hm
    · exact hp t n known
  · intro t n known
    refine ⟨n, ?_, rfl⟩
    have present : t ∈ p.states := by
      rw [Std.HashMap.mem_iff_isSome_getElem?, show p.states[t]? = _ from known]
      rfl
    simp only [get?, Std.HashMap.getElem?_insertIfNew]
    split
    · next absent =>
      obtain ⟨same, absent⟩ := absent
      rw [eq_of_beq same] at absent
      exact absurd present absent
    · exact known

theorem size_of_insertIfNew {old : Mixture Rat} {count : Nat}
    (known : get? ⟨p.states.insertIfNew s (p.states.getD s (.uniform count))⟩ s = some old) :
    old.size = (p.states.getD s (.uniform count)).size := by
  simp only [get?, Std.HashMap.getElem?_insertIfNew] at known
  split at known
  · cases known
    rfl
  · rw [Std.HashMap.getD_eq_getD_getElem?, known]
    rfl

theorem updateState_spec (rule : UpdateRule) (s : State) (hw : w.InUnit) (hp : p.Sound)
    (some : 0 < rewards.length) :
    (p.updateState rule w s rewards).1.Sound ∧ p.Extends (p.updateState rule w s rewards).1 := by
  have hk := known_isDistribution (s := s) hp some
  obtain ⟨sound, extends_⟩ := insertIfNew_spec (s := s) hp hk
  unfold updateState
  simp only
  split
  · exact ⟨sound, extends_⟩
  · next mixture replaced =>
    obtain ⟨next, hn, replaced⟩ := bind_eq_ok.mp replaced
    cases next with
    | none => cases replaced
    | some probabilities =>
      obtain ⟨mixture', hr, replaced⟩ := bind_eq_ok.mp replaced
      cases replaced
      obtain ⟨length, distribution⟩ := UpdateRule.next?_isDistribution hw hk hn
      unfold Mixture.replace at hr
      split at hr
      · cases hr
        have inserted := insert_spec sound (s := s) (m := ⟨probabilities⟩) distribution
          fun old known => length.trans (size_of_insertIfNew known).symm
        exact ⟨inserted.1, extends_.trans inserted.2⟩
      · cases hr
  · exact ⟨sound, extends_⟩

theorem updateEach_spec (rule : UpdateRule) {entries : List (State × Tallies)} (hw : w.InUnit) (hp : p.Sound)
    (filled : ∀ entry ∈ entries, 0 < entry.2.length) :
    (updateEach rule w p entries).scheduler.Sound ∧
      p.Extends (updateEach rule w p entries).scheduler := by
  unfold updateEach
  refine List.foldlRecOn (motive := fun done : Updated Rat =>
    done.scheduler.Sound ∧ p.Extends done.scheduler) entries _ ⟨hp, .refl p⟩ ?_
  rintro done ⟨sound, extended⟩ ⟨s, rewards⟩ present
  have updated := updateState_spec rule s hw sound (filled _ present)
  simp only
  split <;> next heq =>
    rw [heq] at updated
    exact ⟨updated.1, extended.trans updated.2⟩

end Scheduler

-- ---------------------------------------------------------------------------
-- Rewards
-- ---------------------------------------------------------------------------

namespace Rewards

variable {r : Rewards} {s : State} {ts : Tallies}

def Filled (r : Rewards) : Prop :=
  ∀ (s : State) (ts : Tallies), r.states[s]? = some ts → 0 < ts.length

theorem Filled.empty : Rewards.empty.Filled := by
  intro s ts known
  simp [Rewards.empty] at known

theorem Filled.insert (hr : r.Filled) (some : 0 < ts.length) : Filled ⟨r.states.insert s ts⟩ := by
  intro t us known
  simp only [Std.HashMap.getElem?_insert] at known
  split at known
  · cases known
    exact some
  · exact hr t us known

theorem Filled.credit {c : Credit} (hr : r.Filled) (some : 0 < c.offered) :
    (r.credit c).1.Filled := by
  have known : 0 < ((r.states[c.state]?).getD (.ofCount c.offered)).length := by
    cases h : r.states[c.state]? with
    | none => simpa [Tallies.ofCount] using some
    | some ts => exact hr _ ts h
  unfold Rewards.credit
  simp only
  split
  · next tallies added =>
    unfold Tallies.add at added
    split at added
    · cases added
      exact hr.insert (by simpa using known)
    · cases added
  · exact hr.insert known

theorem Filled.creditWithRoom {c : Credit} (hr : r.Filled) (some : 0 < c.offered) :
    (r.creditWithRoom c).1.Filled := by
  unfold Rewards.creditWithRoom
  split
  · exact hr.credit some
  · split
    · exact hr
    · exact hr.credit some

end Rewards

-- ---------------------------------------------------------------------------
-- Histories
-- ---------------------------------------------------------------------------

structure Stores where
  scheduler : Scheduler Rat
  rewards : Rewards

inductive StoreOp
  | initialise (s : State) (count : Nat)
  | add (c : Credit)
  | update (rule : UpdateRule) (w : UpdateWeights Rat)
  /-- What learning does after an update. -/
  | clear

def StoreOp.Valid : StoreOp → Prop
  | .initialise _ count => 0 < count
  | .add c => c.choice < c.offered
  | .update _ w => w.InUnit
  | .clear => True

namespace Stores

variable {stores : Stores} {op : StoreOp}

/-- What an operation leaves behind, also if it faults. -/
def apply (stores : Stores) : StoreOp → Stores
  | .initialise s count => { stores with scheduler := (stores.scheduler.initialise s count).1 }
  | .add c => { stores with rewards := (stores.rewards.creditWithRoom c).1 }
  | .update rule w =>
    { stores with scheduler := (stores.scheduler.update rule w stores.rewards).scheduler }
  | .clear => { stores with rewards := .empty }

def after (ops : List StoreOp) : Stores := ops.foldl apply ⟨.empty, .empty⟩

theorem after_append (ops : List StoreOp) (op : StoreOp) :
    after (ops ++ [op]) = (after ops).apply op := by
  simp [after]

theorem apply_spec (valid : op.Valid) (sound : stores.scheduler.Sound)
    (filled : stores.rewards.Filled) :
    (stores.apply op).scheduler.Sound ∧ (stores.apply op).rewards.Filled ∧
      stores.scheduler.Extends (stores.apply op).scheduler := by
  cases op with
  | initialise s count =>
    obtain ⟨sound', extended⟩ := Scheduler.initialise_spec (s := s) sound valid
    exact ⟨sound', filled, extended⟩
  | add c => exact ⟨sound, filled.creditWithRoom (Nat.zero_lt_of_lt valid), .refl _⟩
  | update rule w =>
    obtain ⟨sound', extended⟩ := Scheduler.updateEach_spec rule valid sound
      fun entry present => filled entry.1 entry.2 (Std.HashMap.mem_toList_iff_getElem?_eq_some.mp present)
    exact ⟨sound', filled, extended⟩
  | clear => exact ⟨sound, .empty, .refl _⟩

theorem after_spec {ops : List StoreOp} (valid : ∀ op ∈ ops, op.Valid) :
    (after ops).scheduler.Sound ∧ (after ops).rewards.Filled := by
  induction ops using List.reverseRecOn with
  | nil => exact ⟨.empty, .empty⟩
  | append_singleton ops op ih =>
    obtain ⟨sound, filled⟩ := ih fun op' h => valid op' (List.mem_append_left _ h)
    have applied := apply_spec (valid op (by simp)) sound filled
    rw [after_append]
    exact ⟨applied.1, applied.2.1⟩

theorem created {ops : List StoreOp} (valid : ∀ op ∈ ops, op.Valid) {s : State} {m : Mixture Rat}
    (known : (after ops).scheduler.get? s = some m) :
    ∃ before op rest first, ops = before ++ op :: rest ∧ (after before).scheduler.get? s = none ∧
      (after (before ++ [op])).scheduler.get? s = some first ∧ m.size = first.size := by
  induction ops using List.reverseRecOn generalizing m with
  | nil => simp [after, Scheduler.get?, Scheduler.empty] at known
  | append_singleton ops op ih =>
    have valid' : ∀ op ∈ ops, op.Valid := fun op' h => valid op' (List.mem_append_left _ h)
    -- The entry is new, or it was there and has kept its size.
    cases earlier : (after ops).scheduler.get? s with
    | none => exact ⟨ops, op, [], m, rfl, earlier, known, rfl⟩
    | some m' =>
      obtain ⟨before, op', rest, first, rfl, unknown, created, same⟩ := ih valid' earlier
      obtain ⟨sound, filled⟩ := after_spec valid'
      obtain ⟨-, -, extended⟩ := apply_spec (valid op (by simp)) sound filled
      obtain ⟨m'', known', same'⟩ := extended s m' earlier
      rw [after_append, known'] at known
      cases known
      exact ⟨before, op', rest ++ [op], first, by simp, unknown, created, same'.trans same⟩

end Stores

/-- In exact arithmetic, a rule makes distributions of distributions, and after any history each
known state has a distribution, of the length it was created with. -/
theorem distributions_preserved :
    (∀ (rule : UpdateRule) (w : UpdateWeights Rat) (old new : List Rat) (rewards : Tallies),
      w.InUnit → IsDistribution old → rule.next? w old rewards = .ok (some new) →
      new.length = old.length ∧ (∀ p ∈ new, 0 ≤ p ∧ p ≤ 1) ∧ new.sum = 1) ∧
    ∀ ops : List StoreOp, (∀ op ∈ ops, op.Valid) → ∀ s m,
      (Stores.after ops).scheduler.get? s = some m →
      (∀ p ∈ m.probabilities, 0 ≤ p ∧ p ≤ 1) ∧ m.probabilities.sum = 1 ∧
      ∃ before op rest first, ops = before ++ op :: rest ∧
        (Stores.after before).scheduler.get? s = none ∧
        (Stores.after (before ++ [op])).scheduler.get? s = some first ∧ m.size = first.size := by
  refine ⟨fun rule w old new rewards hw ho made => ?_, fun ops valid s m known => ?_⟩
  · obtain ⟨length, distribution⟩ := UpdateRule.next?_isDistribution hw ho made
    exact ⟨length, fun p hp => ⟨distribution.nonneg p hp, distribution.le_one p hp⟩,
      distribution.sum⟩
  · obtain ⟨sound, -⟩ := Stores.after_spec valid
    have distribution := sound s m known
    exact ⟨fun p hp => ⟨distribution.nonneg p hp, distribution.le_one p hp⟩, distribution.sum,
      Stores.created valid known⟩

theorem distributions_preserved_by_count :
    ∃ (new : List Rat) (m : Mixture Rat),
      UpdateRule.next? .count ⟨1 / 2, 1 / 10⟩ [1 / 2, 1 / 2] [⟨1, 0⟩, ⟨0, 0⟩] =
        .ok (some new) ∧ new.sum = 1 ∧
      (Stores.after [.initialise (.ofVars []) 2, .add ⟨.ofVars [], 2, 0, true, 1⟩,
        .update .count ⟨1 / 2, 1 / 10⟩]).scheduler.get? (.ofVars []) = some m ∧
      m.probabilities = [7 / 12, 5 / 12] ∧ m.probabilities.sum = 1 := by
  obtain ⟨rules, histories⟩ := distributions_preserved
  have unit : UpdateWeights.InUnit ⟨1 / 2, 1 / 10⟩ := by
    constructor <;> norm_num
  have even : IsDistribution [1 / 2, 1 / 2] := by
    constructor <;> norm_num
  have made : UpdateRule.next? .count ⟨1 / 2, 1 / 10⟩ [1 / 2, 1 / 2] [⟨1, 0⟩, ⟨0, 0⟩] =
      .ok (some [(7 / 12 : Rat), 5 / 12]) := by
    decide +kernel
  have learnt : ((Stores.after [.initialise (.ofVars []) 2, .add ⟨.ofVars [], 2, 0, true, 1⟩,
      .update .count ⟨1 / 2, 1 / 10⟩]).scheduler.get? (.ofVars [])).map Mixture.probabilities =
        some [7 / 12, 5 / 12] := by
    decide +kernel
  obtain ⟨m, known, probabilities⟩ := Option.map_eq_some_iff.mp learnt
  obtain ⟨-, -, sum⟩ := rules _ _ _ _ _ unit even made
  have valid : ∀ op ∈ [StoreOp.initialise (.ofVars []) 2, .add ⟨.ofVars [], 2, 0, true, 1⟩,
      .update .count ⟨1 / 2, 1 / 10⟩], op.Valid := by
    simpa [StoreOp.Valid] using unit
  obtain ⟨-, total, -⟩ := histories _ valid _ m known
  exact ⟨_, m, made, sum, known, probabilities, total⟩

end SchedulerLearning

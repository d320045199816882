import SchedulerLearning.Proofs.RewardTotals
import SchedulerLearning.Proofs.Sampling
import SchedulerLearning.Proofs.UpdateOrder
import SchedulerLearning.Proofs.UpdateRules
import SchedulerLearning.Proofs.WorkerMoves

/-!
# All stores agree on the choices

The scheduler, the rewards, the overlays and what workers have in hand never disagree with the
model on how many choices a state has. Each store has its lemma on what may be written to it, and
a step of a worker writes nothing else.
-/

namespace SchedulerLearning

namespace DecisionProcess

variable {m : DecisionProcess Float} {s : State} {n n' : Nat} {t : Trace}
  {offers : List (Distribution Float)}

/-- Whether a state has so many choices, and more than one. -/
def Offers (m : DecisionProcess Float) (s : State) (n : Nat) : Prop :=
  2 ≤ n ∧ ∃ offers, m.offers s = .ok offers ∧ offers.length = n

theorem Offers.unique (h : m.Offers s n) (h' : m.Offers s n') : n = n' := by
  obtain ⟨-, offers, found, rfl⟩ := h
  obtain ⟨-, offers', found', rfl⟩ := h'
  rw [found] at found'
  cases found'
  rfl

theorem offers_of_turn (h : m.turn t = .ok (.among offers)) : m.Offers t.last offers.length := by
  obtain ⟨found, there, h⟩ := bind_eq_ok.mp h
  match found with
  | [] | [_] => cases h
  | _ :: _ :: rest =>
    cases h
    exact ⟨by simp, _, there, rfl⟩

end DecisionProcess

-- ---------------------------------------------------------------------------
-- The scheduler
-- ---------------------------------------------------------------------------

variable {m : DecisionProcess Float} {s : State} {n : Nat}

namespace Scheduler

section
variable {α : Type} {p p' p'' : Scheduler α} {s t : State} {mixture : Mixture α} {count : Nat}

theorem contains_eq : p.contains s = (p.get? s).isSome :=
  Std.HashMap.contains_eq_isSome_getElem?

def GrowsTo (p p' : Scheduler α) : Prop := ∀ s, p.contains s = true → p'.contains s = true

theorem GrowsTo.refl (p : Scheduler α) : p.GrowsTo p := fun _ known => known

theorem GrowsTo.trans (h : p.GrowsTo p') (h' : p'.GrowsTo p'') : p.GrowsTo p'' :=
  fun s known => h' s (h s known)

theorem growsTo_of_set (set : ∀ t, p'.get? t = if s == t then some mixture else p.get? t) :
    p.GrowsTo p' := by
  intro t known
  rw [contains_eq, set t]
  split
  · rfl
  · rwa [contains_eq] at known

variable [Scalar α]

theorem get?_enter :
    (p.enter s count).1.get? t =
      if s == t then some ((p.get? s).getD (.uniform count)) else p.get? t := by
  unfold enter
  rw [contains_eq]
  split
  · next known =>
    obtain ⟨m, known⟩ := Option.isSome_iff_exists.mp known
    by_cases same : s = t
    · subst same
      simp [known]
    · simp [same]
  · next unknown =>
    have unknown : p.get? s = none := by simpa using unknown
    rw [unknown]
    exact Std.HashMap.getElem?_insert

theorem contains_enter : (p.enter s count).1.contains s = true := by
  simp [contains_eq, get?_enter]

theorem initialise_of_room (room : count ≤ Room.most 8) :
    p.initialise s count = (p.enter s count).map id .ok := by
  have claimed : Mixture.claim count = .ok () := if_neg (Nat.not_lt.mpr room)
  unfold initialise
  split
  · next known =>
    rw [enter, if_pos known]
    rfl
  · rw [claimed]

theorem initialise_of_crowded (unknown : p.get? s = none) (crowded : Room.most 8 < count) :
    p.initialise s count = (p, .error .capacity) := by
  have new : p.contains s = false := by rw [contains_eq, unknown, Option.isSome_none]
  have refused : Mixture.claim count = .error .capacity := if_pos crowded
  simp [initialise, new, refused]

end

variable {p p' : Scheduler Float} {rule : UpdateRule} {w : UpdateWeights Float} {ts : Tallies}
  {entries : List (State × Tallies)}

def Fits (m : DecisionProcess Float) (p : Scheduler Float) : Prop :=
  ∀ s mixture, p.get? s = some mixture → m.Offers s mixture.size

theorem Fits.set {mixture : Mixture Float} (h : p.Fits m) (offered : m.Offers s mixture.size)
    (set : ∀ t, p'.get? t = if s == t then some mixture else p.get? t) : p'.Fits m := by
  intro t mixture' found
  rw [set t] at found
  split at found
  · next same =>
    cases found
    rwa [← eq_of_beq same]
  · exact h t mixture' found

theorem Fits.size_getD (h : p.Fits m) (offered : m.Offers s n) :
    ((p.get? s).getD (.uniform n)).size = n := by
  cases known : p.get? s with
  | none => simp [Mixture.size, Mixture.uniform]
  | some mixture => exact (h s mixture known).unique offered

theorem Fits.enter (h : p.Fits m) (offered : m.Offers s n) : (p.enter s n).1.Fits m := by
  refine h.set (s := s) ?_ fun t => get?_enter
  rwa [h.size_getD offered]

theorem growsTo_enter : p.GrowsTo (p.enter s n).1 :=
  growsTo_of_set fun _ => get?_enter

theorem Fits.sample (h : p.Fits m) (offered : m.Offers s n) (known : p.contains s = true) (x : Float) :
    ∃ choice, p.sample? s x = some choice ∧ choice < n := by
  rw [contains_eq] at known
  obtain ⟨mixture, found⟩ := Option.isSome_iff_exists.mp known
  have size := (h s mixture found).unique offered
  have several := offered.1
  refine ⟨mixture.sample x, by simp [sample?, found], ?_⟩
  rw [← size]
  exact Mixture.sample_lt (by omega) x

-- ---------------------------------------------------------------------------
-- Updates
-- ---------------------------------------------------------------------------

theorem replacement_overflows {mixture : Mixture Float} (same : mixture.size = ts.length) :
    OnlyOverflows (replacement rule w mixture ts) := by
  rw [replacement_eq]
  exact (UpdateRule.next?_overflows same).map _

theorem size_of_replacement {mixture mixture' : Mixture Float}
    (h : replacement rule w mixture ts = .ok (some mixture')) : mixture'.size = mixture.size :=
  UpdateRule.length_of_next? (replacement_eq_some.mp h)

theorem renewed_spec (rule : UpdateRule) (w : UpdateWeights Float) {known : Option (Mixture Float)}
    (same : (known.getD (.uniform ts.length)).size = ts.length) :
    (renewed rule w known ts).1.size = ts.length ∧ OnlyOverflows (renewed rule w known ts).2 := by
  unfold renewed
  simp only
  split
  · exact ⟨same, .ok _⟩
  · next mixture made => exact ⟨(size_of_replacement made).trans same, .ok _⟩
  · next fault stopped =>
    refine ⟨same, ?_⟩
    rintro _ ⟨⟩
    exact replacement_overflows same fault stopped

/-- An update with rewards that fit goes through, but for overflows, and keeps all lengths. -/
theorem Fits.updateEach (rule : UpdateRule) (w : UpdateWeights Float) (h : p.Fits m)
    (offered : ∀ entry ∈ entries, m.Offers entry.1 entry.2.length) :
    (Scheduler.updateEach rule w p entries).scheduler.Fits m ∧
      p.GrowsTo (Scheduler.updateEach rule w p entries).scheduler ∧
      ∀ fault, (Scheduler.updateEach rule w p entries).fault = some fault →
        ∃ operation, fault = .overflow operation := by
  induction entries using List.reverseRecOn with
  | nil =>
    refine ⟨h, .refl p, ?_⟩
    rintro _ ⟨⟩
  | append_singleton entries entry ih =>
    obtain ⟨fits, grows, faults⟩ := ih fun e there => offered e (by simp [there])
    obtain ⟨s, ts⟩ := entry
    have here : m.Offers s ts.length := offered (s, ts) (by simp)
    rw [updateEach_append_singleton]
    generalize Scheduler.updateEach rule w p entries = done at fits grows faults ⊢
    obtain ⟨answer, mixtures⟩ := updateState_eq rule w done.scheduler s ts
    obtain ⟨size, overflows⟩ := renewed_spec rule w (fits.size_getD here)
    rw [← answer] at overflows
    have fits' := fits.set (by rwa [size]) mixtures
    have grows' := grows.trans (growsTo_of_set mixtures)
    unfold visit
    cases updated : done.scheduler.updateState rule w s ts with
    | mk p' result =>
      rw [updated] at fits' grows' overflows
      cases result with
      | ok changed => exact ⟨fits', grows', faults⟩
      | error fault =>
        refine ⟨fits', grows', fun first found => ?_⟩
        cases before : done.fault with
        | none =>
          rw [before] at found
          cases found
          exact overflows fault rfl
        | some earlier =>
          rw [before] at found
          cases found
          exact faults first before

end Scheduler

-- ---------------------------------------------------------------------------
-- Overlays and rewards
-- ---------------------------------------------------------------------------

variable {p p' : Scheduler Float} {r r' : Rewards} {c : Credit} {cs : List Credit}

def Overlay.Fits (m : DecisionProcess Float) (o : Overlay) : Prop :=
  ∀ s choice, o.choice? s = some choice → ∃ n, m.Offers s n ∧ choice < n

theorem Scheduler.choice?_determinise :
    p.determinise.choice? s = (p.get? s).map Mixture.mostLikely := by
  rw [Overlay.choice?, determinise, Std.HashMap.getElem?_map]
  rfl

theorem Scheduler.Fits.determinise (h : p.Fits m) : p.determinise.Fits m := by
  intro s choice chosen
  rw [Scheduler.choice?_determinise] at chosen
  obtain ⟨mixture, found, rfl⟩ := Option.map_eq_some_iff.mp chosen
  have offered := h s mixture found
  refine ⟨mixture.size, offered, Scalar.argmax_lt fun empty => ?_⟩
  have several := offered.1
  simp [Mixture.size, empty] at several

theorem Scheduler.Fits.resolve {overlay : Option Overlay} (h : p.Fits m)
    (ho : ∀ o, overlay = some o → o.Fits m) (offered : m.Offers s n) (x : Float) :
    (p.resolve overlay s n x).1 < n ∧ (p.resolve overlay s n x).2.Fits m := by
  unfold Scheduler.resolve
  cases chosen : overlay.bind (·.choice? s) with
  | some choice =>
    obtain ⟨o, active, covered⟩ := Option.bind_eq_some_iff.mp chosen
    obtain ⟨n', offered', inRange⟩ := ho o active s choice covered
    rw [offered'.unique offered] at inRange
    exact ⟨inRange, h⟩
  | none =>
    have entered := h.enter offered
    obtain ⟨choice, sampled, inRange⟩ := entered.sample offered Scheduler.contains_enter x
    refine ⟨?_, entered⟩
    simp only [Scheduler.sample, sampled]
    exact inRange

/-- Whether each state with rewards has as many counters as choices, and is known to the
scheduler. -/
def Rewards.Fits (m : DecisionProcess Float) (p : Scheduler Float) (r : Rewards) : Prop :=
  ∀ (s : State) (ts : Tallies), r.states[s]? = some ts →
    m.Offers s ts.length ∧ p.contains s = true

structure Credit.Fits (m : DecisionProcess Float) (p : Scheduler Float) (c : Credit) : Prop where
  offered : m.Offers c.state c.offered
  inRange : c.choice < c.offered
  known : p.contains c.state = true

theorem Credit.Fits.mono (h : c.Fits m p) (grows : p.GrowsTo p') : c.Fits m p' :=
  ⟨h.offered, h.inRange, grows _ h.known⟩

namespace Rewards

theorem Fits.empty : Rewards.empty.Fits m p := by
  intro s ts found
  simp [Rewards.empty] at found

theorem Fits.mono (h : r.Fits m p) (grows : p.GrowsTo p') : r.Fits m p' := by
  intro s ts found
  obtain ⟨offered, known⟩ := h s ts found
  exact ⟨offered, grows s known⟩

theorem Fits.credit (h : r.Fits m p) (hc : c.Fits m p) :
    ∃ r', r.credit c = (r', .ok ()) ∧ r'.Fits m p := by
  have length : ((r.states[c.state]?).getD (.ofCount c.offered)).length = c.offered := by
    cases found : r.states[c.state]? with
    | none => simp [Tallies.ofCount]
    | some ts => exact (h c.state ts found).1.unique hc.offered
  have inRange : c.choice < ((r.states[c.state]?).getD (.ofCount c.offered)).length := by
    rw [length]
    exact hc.inRange
  refine ⟨⟨r.states.insert c.state (((r.states[c.state]?).getD (.ofCount c.offered)).modify c.choice
    (·.add c.satisfied c.amount))⟩, by simp only [Rewards.credit, Tallies.add, inRange, if_true], ?_⟩
  intro s ts found
  rw [Std.HashMap.getElem?_insert] at found
  split at found
  · next same =>
    cases found
    rw [← eq_of_beq same, List.length_modify, length]
    exact ⟨hc.offered, hc.known⟩
  · exact h s ts found

theorem Fits.creditAll (h : r.Fits m p) (hcs : ∀ c ∈ cs, c.Fits m p) :
    ∃ r', r.creditAll cs = (r', .ok ()) ∧ r'.Fits m p := by
  induction cs generalizing r with
  | nil => exact ⟨r, rfl, h⟩
  | cons c rest ih =>
    obtain ⟨r₁, first, h₁⟩ := h.credit (hcs c (by simp))
    obtain ⟨r₂, others, h₂⟩ := ih h₁ fun d hd => hcs d (by simp [hd])
    refine ⟨r₂, ?_, h₂⟩
    rw [Rewards.creditAll, addAll, first]
    exact others

end Rewards

-- ---------------------------------------------------------------------------
-- Workers
-- ---------------------------------------------------------------------------

def Setup.Raises (setup : Setup) (e : ModelError Float) : Prop :=
  (∃ s, setup.process.offers s = .error (.refused e)) ∨
    ∃ t, setup.property.evaluate t = .error (.refused e)

/-- Whether an error is not about a choice out of range, unless it is raised elsewhere. -/
def Setup.Excuses (setup : Setup) (e : ModelError Float) : Prop :=
  ∀ choice available, e = .invalidChoice choice available → setup.Raises e

/-- Whether what grants of a batch carry fits. Only a check has an overlay. -/
structure Batch.Fits (m : DecisionProcess Float) (b : Batch) : Prop where
  overlay : ∀ o, b.overlay = some o → o.Fits m
  learning : b.sink = .rewards → b.overlay = none

/-- Whether each step that took one of several choices took one there is, in a known state unless
an overlay may have chosen. -/
def Trace.Fits (m : DecisionProcess Float) (p : Scheduler Float) (b : Batch) (t : Trace) : Prop :=
  ∀ step ∈ t.steps.toList, 2 ≤ step.offered → m.Offers step.state step.offered ∧
    step.choice < step.offered ∧ (b.overlay = none → p.contains step.state = true)

def Phase.Fits (setup : Setup) (p : Scheduler Float) : Phase → Prop
  | .simulating holding _ t =>
    holding.batch.Fits setup.process ∧ t.Fits setup.process p holding.batch
  | .entering holding _ t offers _ =>
    holding.batch.Fits setup.process ∧ t.Fits setup.process p holding.batch ∧
      setup.process.turn t = .ok (.among offers)
  | .sampling holding _ t offers _ =>
    holding.batch.Fits setup.process ∧ t.Fits setup.process p holding.batch ∧
      setup.process.turn t = .ok (.among offers) ∧ p.contains t.last = true
  | .delivering holding credits _ _ =>
    holding.batch.Fits setup.process ∧ ∀ c ∈ credits, c.Fits setup.process p
  | .failing holding error => holding.batch.Fits setup.process ∧ setup.Excuses error
  | .reporting error => setup.Excuses error
  | .requesting | .stopped => True

structure Shared.Fits (setup : Setup) (shared : Shared) : Prop where
  scheduler : shared.scheduler.Fits setup.process
  rewards : shared.rewards.Fits setup.process shared.scheduler
  context : shared.queue.context.Fits setup.process
  failure : ∀ e, shared.queue.failure = some e → setup.Excuses e

section
variable {setup : Setup} {shared : Shared} {w : Worker} {holding : Holding} {left : Nat}
  {t : Trace} {offers : List (Distribution Float)} {choice : Nat} {b : Batch} {q : Phase}

theorem Trace.Fits.start (initial : State) : (Trace.start initial).Fits m p b := by
  simp [Trace.Fits, Trace.start]

theorem Trace.Fits.mono (h : t.Fits m p b) (grows : p.GrowsTo p') : t.Fits m p' b := by
  intro step there several
  obtain ⟨offered, inRange, known⟩ := h step there several
  exact ⟨offered, inRange, fun free => grows _ (known free)⟩

theorem Trace.Fits.push {offered : Nat} (h : t.Fits m p b) (next : State)
    (taken : 2 ≤ offered → m.Offers t.last offered ∧ choice < offered ∧
      (b.overlay = none → p.contains t.last = true)) : (t.push choice offered next).Fits m p b := by
  intro step there several
  simp only [Trace.push, Array.toList_push, List.mem_append, List.mem_singleton] at there
  rcases there with before | rfl
  · exact h step before several
  · exact taken several

theorem Phase.Fits.mono (h : q.Fits setup p) (grows : p.GrowsTo p') : q.Fits setup p' := by
  cases q with
  | simulating => exact ⟨h.1, h.2.mono grows⟩
  | entering => exact ⟨h.1, h.2.1.mono grows, h.2.2⟩
  | sampling => exact ⟨h.1, h.2.1.mono grows, h.2.2.1, grows _ h.2.2.2⟩
  | delivering => exact ⟨h.1, fun c hc => (h.2 c hc).mono grows⟩
  | _ => exact h

theorem Phase.Fits.batch (h : q.Fits setup p) (held : q.holding? = some holding) :
    holding.batch.Fits setup.process := by
  cases q with
  | requesting | reporting | stopped => cases held
  | _ =>
    cases held
    exact h.1

theorem Setup.excuses_internal (cause : Breakdown) : setup.Excuses (.internal cause) := by
  rintro choice available ⟨⟩

theorem Setup.excuses_of_turn {e : Stop (ModelError Float)} (h : setup.process.turn t = .error e) :
    setup.Excuses (Worker.failureOf e) := by
  cases e with
  | faulted fault => exact excuses_internal _
  | refused e =>
    intro _ _ _
    refine .inl ⟨t.last, ?_⟩
    unfold DecisionProcess.turn at h
    cases there : setup.process.offers t.last with
    | error e =>
      rw [there] at h
      cases h
      rfl
    | ok found =>
      rw [there] at h
      match found with
      | [] | [_] | _ :: _ :: _ => cases h

theorem Setup.excuses_of_evaluate {e : Stop (ModelError Float)}
    (h : setup.property.evaluate t = .error e) : setup.Excuses (Worker.failureOf e) := by
  cases e with
  | faulted fault => exact excuses_internal _
  | refused e => exact fun _ _ _ => .inr ⟨t, h⟩

namespace Worker

theorem beginJob_fits (hb : holding.batch.Fits setup.process) :
    (beginJob setup holding).Fits setup p := by
  unfold beginJob
  cases begun : Trace.withRoom setup.initial setup.traceLength with
  | error fault => exact ⟨hb, Setup.excuses_internal _⟩
  | ok t =>
    obtain ⟨_, -, begun⟩ := bind_eq_ok.mp begun
    cases begun
    exact ⟨hb, .start _⟩

theorem advance_fits {offered : Nat} (hb : holding.batch.Fits setup.process)
    (ht : t.Fits setup.process p holding.batch) (branches : Distribution Float)
    (taken : 2 ≤ offered → setup.process.Offers t.last offered ∧ choice < offered ∧
      (holding.batch.overlay = none → p.contains t.last = true)) :
    (w.advance holding left t branches choice offered).phase.Fits setup p := by
  unfold advance DecisionProcess.follow
  simp only
  cases branches.pick? (Random.Generator.source.unit w.branching).1 with
  | some next => exact ⟨hb, ht.push next taken⟩
  | none => exact ⟨hb, Setup.excuses_internal _⟩

theorem take_fits (hb : holding.batch.Fits setup.process)
    (ht : t.Fits setup.process p holding.batch)
    (turn : setup.process.turn t = .ok (.among offers)) (inRange : choice < offers.length)
    (known : holding.batch.overlay = none → p.contains t.last = true) :
    (w.take holding left t offers choice).phase.Fits setup p := by
  have chosen : DecisionProcess.chosen offers choice = .ok offers[choice] := by
    simp [DecisionProcess.chosen, inRange]
  unfold take
  rw [chosen]
  exact advance_fits hb ht _ fun _ => ⟨DecisionProcess.offers_of_turn turn, inRange, known⟩

theorem checkTrace_fits (hb : holding.batch.Fits setup.process)
    (ht : t.Fits setup.process p holding.batch) :
    (w.checkTrace setup holding t).phase.Fits setup p := by
  unfold checkTrace
  cases judged : setup.property.evaluate t with
  | error e => exact ⟨hb, Setup.excuses_of_evaluate judged⟩
  | ok verdict =>
    refine ⟨hb, ?_⟩
    cases sink : holding.batch.sink with
    | verdicts => simp
    | rewards =>
      intro c hc
      obtain ⟨step, there, state, offered, choice, several⟩ := Attribution.mem_credits hc
      obtain ⟨offers, inRange, known⟩ := ht step there several
      rw [← state] at offers known
      rw [← offered] at offers inRange
      rw [← choice] at inRange
      exact ⟨offers, inRange, known (hb.learning sink)⟩

theorem explore_fits (hb : holding.batch.Fits setup.process)
    (ht : t.Fits setup.process shared.scheduler holding.batch) :
    (w.explore setup shared holding left t).phase.Fits setup shared.scheduler := by
  unfold explore
  cases left with
  | zero => exact checkTrace_fits hb ht
  | succ left =>
    cases turn : setup.process.turn t with
    | error e => exact ⟨hb, Setup.excuses_of_turn turn⟩
    | ok found =>
      cases found with
      | deadlock => exact checkTrace_fits hb ht
      | only branches => exact advance_fits hb ht branches (by simp)
      | among offers =>
        simp only
        cases chosen : holding.batch.overlay.bind (·.choice? t.last) with
        | some choice =>
          obtain ⟨o, active, covered⟩ := Option.bind_eq_some_iff.mp chosen
          obtain ⟨n, offered, inRange⟩ := hb.overlay o active t.last choice covered
          rw [offered.unique (DecisionProcess.offers_of_turn turn)] at inRange
          refine take_fits hb ht turn inRange fun free => ?_
          rw [free] at active
          cases active
        | none =>
          simp only
          split
          · next known => exact ⟨hb, ht, turn, known⟩
          · exact ⟨hb, ht, turn⟩

end Worker

namespace Shared

theorem Fits.count (h : shared.Fits setup) (verdict : Verdict) : (shared.count verdict).Fits setup := by
  unfold Shared.count
  split <;> exact ⟨h.scheduler, h.rewards, h.context, h.failure⟩

theorem Fits.withRewards (h : shared.Fits setup) (hr : r.Fits setup.process shared.scheduler) :
    Fits setup { shared with rewards := r } :=
  ⟨h.scheduler, hr, h.context, h.failure⟩

theorem scheduler_count (verdict : Verdict) : (shared.count verdict).scheduler = shared.scheduler := by
  unfold Shared.count
  split <;> rfl

end Shared

structure Worker.Keeps (setup : Setup) (shared : Shared) (after : Shared × Worker) : Prop where
  stores : after.1.Fits setup
  grows : shared.scheduler.GrowsTo after.1.scheduler
  phase : after.2.phase.Fits setup after.1.scheduler

namespace Worker

variable {credits : List Credit}

theorem deliver_keeps (h : shared.Fits setup) (hb : holding.batch.Fits setup.process)
    (hcs : ∀ c ∈ credits, c.Fits setup.process shared.scheduler) (missed : Bool) (verdict : Verdict) :
    Keeps setup shared (w.deliver setup shared holding credits missed verdict) := by
  unfold deliver
  cases holding.batch.sink with
  | verdicts => exact ⟨⟨h.scheduler, h.rewards, h.context, h.failure⟩, .refl _, beginJob_fits hb⟩
  | rewards =>
    cases credits with
    | nil =>
      refine ⟨h.count verdict, ?_, beginJob_fits hb⟩
      rw [Shared.scheduler_count]
      exact .refl _
    | cons c rest =>
      simp only
      split
      · obtain ⟨r', credited, fits⟩ := h.rewards.credit (hcs c (by simp))
        simp only [Shared.credit, credited]
        exact ⟨h.withRewards fits, .refl _, hb, fun d hd => hcs d (by simp [hd])⟩
      · exact ⟨h, .refl _, hb, hcs⟩

theorem deliverLast_keeps (h : shared.Fits setup) (hb : holding.batch.Fits setup.process)
    (hcs : ∀ c ∈ credits, c.Fits setup.process shared.scheduler) (verdict : Verdict) :
    Keeps setup shared (w.deliverLast shared holding credits verdict) := by
  obtain ⟨shared', delivered, fits, same⟩ : ∃ shared',
      shared.deliver holding.batch.sink credits verdict = (shared', .ok ()) ∧
        shared'.Fits setup ∧ shared'.scheduler = shared.scheduler := by
    cases holding.batch.sink with
    | verdicts => exact ⟨_, rfl, ⟨h.scheduler, h.rewards, h.context, h.failure⟩, rfl⟩
    | rewards =>
      obtain ⟨r', credited, fits⟩ := h.rewards.creditAll hcs
      refine ⟨_, by simp only [Shared.deliver, Shared.creditAll, credited],
        (h.withRewards fits).count verdict, Shared.scheduler_count verdict⟩
  unfold deliverLast
  rw [delivered]
  simp only
  have grows : shared.scheduler.GrowsTo shared'.scheduler := by
    rw [same]
    exact .refl _
  cases finished : shared'.queue.finish with
  | error fault => exact ⟨fits, grows, hb, Setup.excuses_internal _⟩
  | ok queue =>
    obtain ⟨-, rfl⟩ := JobQueue.finish_eq_ok.mp finished
    exact ⟨⟨fits.scheduler, fits.rewards, fits.context, fits.failure⟩, grows, trivial⟩

theorem act_keeps (h : shared.Fits setup) (hw : w.phase.Fits setup shared.scheduler) :
    Keeps setup shared (w.act setup shared) := by
  unfold act
  cases hq : w.phase with
  | requesting =>
    simp only
    cases asked : shared.queue.request setup.jobsPerRequest with
    | mk answer queue =>
      cases answer with
      | granted grant =>
        obtain ⟨-, -, -, -, context, rfl⟩ := JobQueue.request_granted asked
        refine ⟨⟨h.scheduler, h.rewards, h.context, h.failure⟩, .refl _, beginJob_fits ?_⟩
        rw [context]
        exact h.context
      | closed => exact ⟨h, .refl _, trivial⟩
      | wait =>
        refine ⟨h, .refl _, ?_⟩
        simp only [hq]
        trivial
  | simulating holding left t =>
    rw [hq] at hw
    exact ⟨h, .refl _, explore_fits hw.1 hw.2⟩
  | entering holding left t offers x =>
    rw [hq] at hw
    obtain ⟨hb, ht, turn⟩ := hw
    have grows := Scheduler.growsTo_enter (p := shared.scheduler) (s := t.last) (n := offers.length)
    refine ⟨⟨h.scheduler.enter (DecisionProcess.offers_of_turn turn), h.rewards.mono grows, h.context,
      h.failure⟩, grows, hb, ht.mono grows, turn, Scheduler.contains_enter⟩
  | sampling holding left t offers x =>
    rw [hq] at hw
    obtain ⟨hb, ht, turn, known⟩ := hw
    obtain ⟨choice, sampled, inRange⟩ :=
      h.scheduler.sample (DecisionProcess.offers_of_turn turn) known x
    refine ⟨h, .refl _, take_fits hb ht turn ?_ fun _ => known⟩
    rw [Scheduler.sample, sampled]
    exact inRange
  | delivering holding credits missed verdict =>
    rw [hq] at hw
    simp only
    split
    · exact deliverLast_keeps h hw.1 hw.2 verdict
    · exact deliver_keeps h hw.1 hw.2 missed verdict
  | failing holding error =>
    rw [hq] at hw
    have fits : Shared.Fits setup { shared with queue := shared.queue.fail error } := by
      refine ⟨h.scheduler, h.rewards, h.context, fun e recorded => ?_⟩
      cases before : shared.queue.failure with
      | none =>
        have same : error = e := by simpa [JobQueue.fail, before] using recorded
        rw [← same]
        exact hw.2
      | some first =>
        have same : first = e := by simpa [JobQueue.fail, before] using recorded
        rw [← same]
        exact h.failure first before
    simp only
    cases holding.batch.sink with
    | rewards => exact ⟨fits, .refl _, trivial⟩
    | verdicts => exact ⟨fits, .refl _, hw.2⟩
  | reporting error => exact ⟨⟨h.scheduler, h.rewards, h.context, h.failure⟩, .refl _, trivial⟩
  | stopped =>
    refine ⟨h, .refl _, ?_⟩
    simp only [hq]
    trivial

end Worker

end

end SchedulerLearning

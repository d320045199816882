import SchedulerLearning.Proofs.CheckedUpdates
import SchedulerLearning.Proofs.UpdateOrder
import SchedulerLearning.Proofs.UpdateRules
import Mathlib.Data.Set.Card

/-!
# What an update leaves alone

In exact arithmetic, a state keeps its probabilities exactly if the rule has nothing to learn from
its rewards. A whole update replaces the mixtures of the states that learn, gives the other states
with rewards the uniform mixture if they have none, and counts the replacements. No division is by
zero.
-/

namespace SchedulerLearning

open Checked (number)

-- ---------------------------------------------------------------------------
-- Nothing to learn
-- ---------------------------------------------------------------------------

namespace UpdateRule

/-- Whether rewards tell a rule nothing: no choice has a weight, or the choices are not told apart. -/
def Uninformed (rule : UpdateRule) (old : List Rat) (rewards : Tallies) : Prop :=
  match rule with
  | .count | .success | .epsilonCount =>
    ∀ c ∈ old.zip rewards, if c.2.total = 0 then c.1 = 0 else c.2.satisfied = 0
  | .completeCount => ∀ t ∈ rewards, t.satisfied = t.failed
  | .epsilon => old.length < 2

/-- Whether a rule has nothing to learn from the rewards of a state. -/
def Untaught (rule : UpdateRule) (old : List Rat) (rewards : Tallies) : Prop :=
  (∀ t ∈ rewards, t.total = 0) ∨ Uninformed rule old rewards

variable {rule : UpdateRule} {w : UpdateWeights Rat} {old es : List Rat} {rewards : Tallies}
  {outcome : Option (List Rat)}

theorem normalised?_eq_none (nonneg : ∀ e ∈ es, 0 ≤ e) :
    normalised? es = none ↔ ∀ e ∈ es, e = 0 := by
  have vanishes : normalised? es = none ↔ es.sum = 0 := by
    unfold normalised?
    rw [Scalar.sum_rat]
    simp
  rw [vanishes]
  exact ⟨fun none e there => List.all_zero_of_le_zero_le_of_sum_eq_zero nonneg none there,
    List.sum_eq_zero⟩

theorem estimate_eq_zero {p : Rat} {t : Tally} :
    t.rate?.getD p = 0 ↔ if t.total = 0 then p = 0 else t.satisfied = 0 := by
  unfold Tally.rate?
  split
  · rfl
  · next tried =>
    have total : (t.total : Rat) ≠ 0 := Nat.cast_ne_zero.mpr tried
    rw [Option.getD_some, div_eq_zero_iff, or_iff_left total, Nat.cast_eq_zero, ← UInt64.toNat_inj]
    rfl

theorem forall_estimates_eq_zero : (∀ e ∈ estimates old rewards, e = 0) ↔
    ∀ c ∈ old.zip rewards, if c.2.total = 0 then c.1 = 0 else c.2.satisfied = 0 := by
  have pairs : estimates old rewards = (old.zip rewards).map fun c => c.2.rate?.getD c.1 := by
    rw [estimates, List.map_zip_eq_zipWith]
    rfl
  rw [pairs, List.forall_mem_map]
  exact forall₂_congr fun c _ => estimate_eq_zero

theorem proposed?_eq_none (nonneg : ∀ p ∈ old, 0 ≤ p)
    (made : proposed? rule w old rewards = .ok outcome) :
    outcome = none ↔ Uninformed rule old rewards := by
  have weights : ∀ e ∈ estimates old rewards, 0 ≤ e := estimates_nonneg nonneg
  have estimated := (normalised?_eq_none weights).trans forall_estimates_eq_zero
  cases rule with
  | count | success | epsilonCount =>
    rw [← Except.ok.inj made, Option.map_eq_none_iff, estimated]
    rfl
  | completeCount =>
    obtain ⟨target?, scored, made⟩ := bind_eq_ok.mp made
    rw [← Except.ok.inj made, Option.map_eq_none_iff, scoreTarget?_eq_ok scored]
    simp [Uninformed, lifted_eq_zero, Tally.reading_eq_zero]
  | epsilon =>
    rw [← Except.ok.inj made]
    unfold Uninformed
    split <;> simp [*]

theorem next?_eq_none (nonneg : ∀ p ∈ old, 0 ≤ p) (made : next? rule w old rewards = .ok outcome) :
    outcome = none ↔ Untaught rule old rewards := by
  obtain ⟨same, -, made⟩ := next?_eq_ok.mp made
  have untried : (rewards.map Tally.total).sum = 0 ↔ ∀ t ∈ rewards, t.total = 0 := by
    rw [List.sum_eq_zero_iff, List.forall_mem_map]
  rw [Untaught, ← untried]
  split at made
  · next none => exact iff_of_true made (.inl none)
  · next tried => rw [proposed?_eq_none nonneg made, or_iff_right tried]

end UpdateRule

-- ---------------------------------------------------------------------------
-- Whole updates
-- ---------------------------------------------------------------------------

namespace Scheduler

variable {α : Type} [Scalar α] {rule : UpdateRule} {w : UpdateWeights α} {p : Scheduler α}
  {r : Rewards} {s : State} {ts : Tallies} {m : Mixture α}

def known (p : Scheduler α) (s : State) (ts : Tallies) : Mixture α := (p.get? s).getD (.uniform ts.length)

def outcome (rule : UpdateRule) (w : UpdateWeights α) (p : Scheduler α) (s : State) (ts : Tallies) :
    Except Fault (Option (List α)) :=
  rule.next? w (p.known s ts).probabilities ts

theorem renewed_eq : renewed rule w (p.get? s) ts =
    match p.outcome rule w s ts with
    | .ok none => (p.known s ts, .ok false)
    | .ok (some new) => (⟨new⟩, .ok true)
    | .error fault => (p.known s ts, .error fault) := by
  unfold renewed outcome known
  simp only [replacement_eq]
  rcases rule.next? w ((p.get? s).getD (.uniform ts.length)).probabilities ts with _ | _ | _ <;> rfl

theorem get?_update_eq : (p.update rule w r).scheduler.get? s =
    match r.states[s]? with
    | none => p.get? s
    | some ts =>
      match p.outcome rule w s ts with
      | .ok (some new) => some ⟨new⟩
      | _ => some (p.known s ts) := by
  rw [get?_update]
  cases r.states[s]? with
  | none => rfl
  | some ts =>
    simp only [renewed_eq]
    rcases p.outcome rule w s ts with _ | _ | _ <;> rfl

theorem fault_update : (p.update rule w r).fault = none ↔
    ∀ (s : State) ts, r.states[s]? = some ts → ∃ made, p.outcome rule w s ts = .ok made := by
  have renews : Renews rule w p r.states.toList (p.update rule w r) :=
    renews_updateEach r.nodup_states
  have faulty (s : State) (ts : Tallies) :
      faults rule w p (s, ts) = false ↔ ∃ made, p.outcome rule w s ts = .ok made := by
    unfold faults
    simp only [renewed_eq]
    rcases p.outcome rule w s ts with _ | _ | _ <;> simp [Except.isOk, Except.toBool]
  rw [← Option.not_isSome_iff_eq_none, renews.fault, Bool.not_eq_true, List.any_eq_false]
  simp only [Bool.not_eq_true, Prod.forall, Std.HashMap.mem_toList_iff_getElem?_eq_some, faulty]

theorem changed_update : (p.update rule w r).changed =
    {s : State | ∃ ts new, r.states[s]? = some ts ∧ p.outcome rule w s ts = .ok (some new)}.ncard := by
  have renews : Renews rule w p r.states.toList (p.update rule w r) :=
    renews_updateEach r.nodup_states
  have replaced (s : State) (ts : Tallies) :
      changes rule w p (s, ts) = true ↔ ∃ new, p.outcome rule w s ts = .ok (some new) := by
    unfold changes
    simp only [renewed_eq]
    rcases p.outcome rule w s ts with _ | _ | _ <;> simp [Except.toOption]
  have distinct : ((r.states.toList.filter (changes rule w p)).map Prod.fst).Nodup :=
    r.nodup_states.sublist (List.filter_sublist.map _)
  classical
  rw [renews.changed, List.countP_eq_length_filter, ← List.length_map Prod.fst,
    ← List.toFinset_card_of_nodup distinct, ← Set.ncard_coe_finset]
  refine congrArg Set.ncard (Set.ext fun s => ?_)
  simp [Std.HashMap.mem_toList_iff_getElem?_eq_some, replaced]

end Scheduler

-- ---------------------------------------------------------------------------
-- Divisions
-- ---------------------------------------------------------------------------

def Mixture.checked (m : Mixture Rat) : Mixture Checked := ⟨m.probabilities.map number⟩

theorem Mixture.uniform_checked (count : Nat) : Mixture.uniform count = (Mixture.uniform count).checked := by
  unfold uniform checked
  rw [List.map_replicate]
  rcases Nat.eq_zero_or_pos count with rfl | several
  · rfl
  · have divisor : (count : Rat) ≠ 0 := Nat.cast_ne_zero.mpr several.ne'
    simp [divisor]

namespace Scheduler

variable {rule : UpdateRule} {w : UpdateWeights Rat} {p : Scheduler Rat} {r : Rewards} {s : State}
  {ts : Tallies}

def checked (p : Scheduler Rat) : Scheduler Checked := ⟨p.states.map fun _ => Mixture.checked⟩

theorem get?_checked : p.checked.get? s = (p.get? s).map Mixture.checked := Std.HashMap.getElem?_map

theorem known_checked : p.checked.known s ts = (p.known s ts).checked := by
  rw [known, known, get?_checked, Mixture.uniform_checked, Option.getD_map]

theorem outcome_checked : p.checked.outcome rule w.checked s ts =
    (p.outcome rule w s ts).map (Option.map (List.map number)) := by
  rw [outcome, outcome, known_checked]
  exact UpdateRule.next?_checked

theorem get?_update_checked : (p.checked.update rule w.checked r).scheduler.get? s =
    ((p.update rule w r).scheduler.get? s).map Mixture.checked := by
  rw [get?_update_eq, get?_update_eq]
  cases r.states[s]? with
  | none => exact get?_checked
  | some ts =>
    simp only [outcome_checked, known_checked]
    rcases p.outcome rule w s ts with _ | _ | _ <;> rfl

end Scheduler

/-- Whether the known states with rewards have as many counters as probabilities. -/
def Scheduler.Matches (p : Scheduler Rat) (r : Rewards) : Prop :=
  ∀ (s : State) m ts, p.get? s = some m → r.states[s]? = some ts → m.size = ts.length

theorem Scheduler.Matches.size_known {p : Scheduler Rat} {r : Rewards} (h : p.Matches r) {s : State}
    {ts : Tallies} (rewarded : r.states[s]? = some ts) : (p.known s ts).size = ts.length := by
  unfold known
  cases known : p.get? s with
  | none => exact List.length_replicate
  | some m => exact h s m ts known rewarded

/-- In exact arithmetic: a rule that does not overflow leaves a state alone exactly if it has nothing
to learn, and divides by no zero. A whole update that does not overflow replaces the mixtures of the
states with rewards that learn, leaves those of the others as they are, with uniform ones for unknown
states with rewards, and counts the replacements. It divides by no zero either. -/
theorem updates_unless_untaught :
    (∀ (rule : UpdateRule) (w : UpdateWeights Rat) (old : List Rat) (rewards : Tallies),
      (old.length = rewards.length → OnlyOverflows (rule.next? w old rewards)) ∧
      (∀ outcome, (∀ p ∈ old, 0 ≤ p) → rule.next? w old rewards = .ok outcome →
        (outcome = none ↔ rule.Untaught old rewards)) ∧
      rule.next? w.checked (old.map number) rewards =
        (rule.next? w old rewards).map (Option.map (List.map number))) ∧
    ∀ (rule : UpdateRule) (w : UpdateWeights Rat) (p : Scheduler Rat) (r : Rewards), p.Matches r →
      (∀ (s : State) ts, r.states[s]? = some ts → OnlyOverflows (p.outcome rule w s ts)) ∧
      ((p.update rule w r).fault = none ↔
        ∀ (s : State) ts, r.states[s]? = some ts → ∃ made, p.outcome rule w s ts = .ok made) ∧
      ((p.update rule w r).fault = none →
        (∀ s : State, r.states[s]? = none → (p.update rule w r).scheduler.get? s = p.get? s) ∧
        (∀ (s : State) ts, r.states[s]? = some ts → p.outcome rule w s ts = .ok none →
          (p.update rule w r).scheduler.get? s = some (p.known s ts)) ∧
        (∀ (s : State) ts new, r.states[s]? = some ts → p.outcome rule w s ts = .ok (some new) →
          (p.update rule w r).scheduler.get? s = some ⟨new⟩) ∧
        (p.update rule w r).changed = {s : State | ∃ ts new, r.states[s]? = some ts ∧
          p.outcome rule w s ts = .ok (some new)}.ncard ∧
        ∀ s, (p.checked.update rule w.checked r).scheduler.get? s =
          ((p.update rule w r).scheduler.get? s).map Mixture.checked) := by
  refine ⟨fun rule w old rewards => ⟨UpdateRule.next?_overflows, fun outcome nonneg made =>
    UpdateRule.next?_eq_none nonneg made, UpdateRule.next?_checked⟩, fun rule w p r fits => ⟨?_,
    Scheduler.fault_update, fun _ => ⟨?_, ?_, ?_, Scheduler.changed_update, fun _ =>
    Scheduler.get?_update_checked⟩⟩⟩
  · exact fun s ts rewarded => UpdateRule.next?_overflows (fits.size_known rewarded)
  · intro s unrewarded
    rw [Scheduler.get?_update_eq, unrewarded]
  · intro s ts rewarded untaught
    rw [Scheduler.get?_update_eq, rewarded]
    simp only [untaught]
  · intro s ts new rewarded learnt
    rw [Scheduler.get?_update_eq, rewarded]
    simp only [learnt]

/-- Two choices that both fail teach nothing. A success of the first one does, and makes an unknown
state known. -/
theorem updates_unless_untaught_of_success :
    ∃ r : Rewards, UpdateRule.Untaught .count [1 / 2, 1 / 2] [⟨0, 4⟩, ⟨0, 1⟩] ∧
      (Scheduler.empty.update .count ⟨1 / 2, 1 / 10⟩ r).scheduler.get? (.ofVars []) =
        some ⟨[(3 / 4 : Rat), 1 / 4]⟩ ∧
      {s : State | ∃ ts new, r.states[s]? = some ts ∧
        Scheduler.empty.outcome .count ⟨(1 / 2 : Rat), 1 / 10⟩ s ts = .ok (some new)}.ncard = 1 := by
  obtain ⟨rules, whole⟩ := updates_unless_untaught
  have untaught := (rules .count ⟨1 / 2, 1 / 10⟩ [1 / 2, 1 / 2] [⟨0, 4⟩, ⟨0, 1⟩]).2.1 none
    (by norm_num) (by decide +kernel)
  have fits (r : Rewards) : Scheduler.empty.Matches r := by
    intro s m ts known
    simp [Scheduler.get?, Scheduler.empty] at known
  obtain ⟨-, -, sound⟩ := whole .count ⟨1 / 2, 1 / 10⟩ .empty
    ⟨(∅ : Std.HashMap State Tallies).insert (.ofVars []) [⟨1, 0⟩, ⟨0, 1⟩]⟩ (fits _)
  obtain ⟨-, -, replaced, changed, -⟩ := sound (by decide +kernel)
  refine ⟨_, untaught.mp rfl, replaced _ [⟨1, 0⟩, ⟨0, 1⟩] _ (by decide +kernel) (by decide +kernel), ?_⟩
  rw [← changed]
  decide +kernel

end SchedulerLearning

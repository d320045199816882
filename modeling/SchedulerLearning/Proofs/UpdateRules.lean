import SchedulerLearning.Proofs.Probabilities
import SchedulerLearning.Proofs.Scores

/-!
# Every update rule gives a distribution

In exact arithmetic, with weights between zero and one, what a rule makes of a distribution is
a distribution over the same choices.
-/

namespace SchedulerLearning

structure UpdateWeights.InUnit (w : UpdateWeights Rat) : Prop where
  history_low : 0 ≤ w.history
  history_high : w.history ≤ 1
  epsilon_low : 0 ≤ w.epsilon
  epsilon_high : w.epsilon ≤ 1

-- ---------------------------------------------------------------------------
-- Maxima
-- ---------------------------------------------------------------------------

namespace Scalar

variable {α : Type} [Scalar α]

theorem argmaxFrom_lt {best index : Nat} {value : α} {vs : List α} (before : best < index) :
    argmaxFrom best value index vs < index + vs.length := by
  induction vs generalizing best index value with
  | nil => exact before
  | cons v rest ih =>
    rw [List.length_cons, ← Nat.add_assoc, Nat.add_right_comm]
    unfold argmaxFrom
    split
    · exact ih (Nat.lt_succ_self index)
    · exact ih (Nat.lt_succ_of_lt before)

theorem argmax_lt {vs : List α} (some : vs ≠ []) : argmax vs < vs.length := by
  cases vs with
  | nil => contradiction
  | cons v rest =>
    rw [List.length_cons, Nat.add_comm]
    exact argmaxFrom_lt Nat.zero_lt_one

end Scalar

namespace UpdateRule

variable {rewards : Tallies} {old : List Rat}

-- ---------------------------------------------------------------------------
-- Targets
-- ---------------------------------------------------------------------------

theorem scoreTarget?_eq_some {target : List Rat} (h : scoreTarget? rewards = .ok (some target)) :
    target.length = rewards.length ∧ IsDistribution target := by
  have made := scoreTarget?_eq_ok h
  split at made
  · cases made
  · next some =>
    obtain rfl := Option.some.inj made
    refine ⟨by rw [List.length_map, List.length_map], ?_, sum_shares some⟩
    intro q hq
    obtain ⟨s, there, rfl⟩ := List.mem_map.mp hq
    exact share_nonneg there

theorem rate?_nonneg {t : Tally} {rate : Rat} (h : t.rate? = some rate) : 0 ≤ rate := by
  unfold Tally.rate? at h
  split at h
  · cases h
  · cases h
    exact div_nonneg (Nat.cast_nonneg _) (Nat.cast_nonneg _)

theorem estimates_nonneg (nonneg : ∀ p ∈ old, 0 ≤ p) : ∀ e ∈ estimates old rewards, 0 ≤ e := by
  refine forall_mem_zipWith fun p hp t _ => ?_
  cases h : t.rate? (α := Rat) with
  | none => exact nonneg p hp
  | some rate => exact rate?_nonneg h

theorem normalised?_eq_some {es target : List Rat} (nonneg : ∀ e ∈ es, 0 ≤ e)
    (h : normalised? es = some target) : target.length = es.length ∧ IsDistribution target := by
  unfold normalised? at h
  simp only [Scalar.sum_rat] at h
  split at h
  · cases h
  · next norm =>
    cases h
    refine ⟨List.length_map _, .normalise nonneg ?_⟩
    simpa using norm

-- ---------------------------------------------------------------------------
-- The rules
-- ---------------------------------------------------------------------------

theorem blend_isDistribution {weight : Rat} {target : List Rat} (low : 0 ≤ weight)
    (high : weight ≤ 1) (ho : IsDistribution old) (ht : IsDistribution target)
    (same : target.length = old.length) : IsDistribution (blend weight old target) :=
  .mix low high ho ht same.symm

theorem greedyTarget_eq (epsilon : Rat) (es target : List Rat) :
    greedyTarget epsilon es target = List.zipWith (fun p q => epsilon * p + (1 - epsilon) * q) target
      ((List.range target.length).map fun i => if i = Scalar.argmax es then 1 else 0) := by
  refine List.ext_getElem (by simp [greedyTarget]) fun i _ _ => ?_
  simp [greedyTarget]

theorem greedyTarget_isDistribution {epsilon : Rat} {es target : List Rat} (low : 0 ≤ epsilon)
    (high : epsilon ≤ 1) (ht : IsDistribution target) (same : target.length = es.length) :
    IsDistribution (greedyTarget epsilon es target) := by
  have some : es ≠ [] := by
    rintro rfl
    exact ht.ne_nil (List.length_eq_zero_iff.mp same)
  have greedy : IsDistribution ((List.range target.length).map fun i =>
      if i = Scalar.argmax es then (1 : Rat) else 0) := by
    refine .setApart ?_ zero_le_one le_rfl (by simp)
    rw [same]
    exact Scalar.argmax_lt some
  rw [greedyTarget_eq]
  exact .mix low high ht greedy (by simp)

inductive Renews (w : UpdateWeights Rat) (old : List Rat) (rewards : Tallies) :
    UpdateRule → List Rat → Prop
  | rates {rule target} (chosen : rule = .count ∨ rule = .success)
      (made : normalised? (estimates old rewards) = some target) :
      Renews w old rewards rule (blend w.history old target)
  | scores {target} (made : scoreTarget? rewards = .ok (some target)) :
      Renews w old rewards .completeCount (blend w.history old target)
  | greedy (several : 2 ≤ old.length) :
      Renews w old rewards .epsilon ((List.range old.length).map fun i =>
        if i = Scalar.argmax (estimates old rewards) then 1 - w.epsilon
        else w.epsilon / ((old.length - 1 : Nat) : Rat))
  | greedyRates {target} (made : normalised? (estimates old rewards) = some target) :
      Renews w old rewards .epsilonCount
        (blend (1 - w.history) old (greedyTarget w.epsilon (estimates old rewards) target))

theorem next?_eq_some {rule : UpdateRule} {w : UpdateWeights Rat} {new : List Rat}
    (h : next? rule w old rewards = .ok (some new)) :
    old.length = rewards.length ∧ Renews w old rewards rule new := by
  obtain ⟨same, -, h⟩ := next?_eq_ok.mp h
  refine ⟨same, ?_⟩
  split at h
  · cases h
  · cases rule with
    | count | success =>
      obtain ⟨target, made, rfl⟩ := Option.map_eq_some_iff.mp (Except.ok.inj h)
      exact .rates (by simp) made
    | completeCount =>
      obtain ⟨target?, made, h⟩ := bind_eq_ok.mp h
      obtain ⟨target, rfl, rfl⟩ := Option.map_eq_some_iff.mp (Except.ok.inj h)
      exact .scores made
    | epsilon =>
      have made := Except.ok.inj h
      split at made
      · cases made
      · next several =>
        cases made
        exact .greedy (by omega)
    | epsilonCount =>
      obtain ⟨target, made, rfl⟩ := Option.map_eq_some_iff.mp (Except.ok.inj h)
      exact .greedyRates made

def kept (w : UpdateWeights Rat) : UpdateRule → Rat
  | .epsilonCount => 1 - w.history
  | _ => w.history

theorem kept_mem {w : UpdateWeights Rat} (hw : w.InUnit) (rule : UpdateRule) :
    0 ≤ rule.kept w ∧ rule.kept w ≤ 1 := by
  cases rule with
  | epsilonCount => exact ⟨sub_nonneg.mpr hw.history_high, sub_le_self 1 hw.history_low⟩
  | _ => exact ⟨hw.history_low, hw.history_high⟩

/-- All rules but one blend the old probabilities with a distribution. -/
theorem Renews.greedy_or_blends {rule : UpdateRule} {w : UpdateWeights Rat} {new : List Rat}
    (h : Renews w old rewards rule new) (hw : w.InUnit) (ho : IsDistribution old)
    (same : old.length = rewards.length) :
    (rule = .epsilon ∧ 2 ≤ old.length ∧ new = (List.range old.length).map fun i =>
      if i = Scalar.argmax (estimates old rewards) then 1 - w.epsilon
      else w.epsilon / ((old.length - 1 : Nat) : Rat)) ∨
    (rule ≠ .epsilon ∧ ∃ target, IsDistribution target ∧ target.length = old.length ∧
      new = blend (rule.kept w) old target) := by
  have length := length_estimates same
  cases h with
  | rates chosen made =>
    obtain ⟨fits, ht⟩ := normalised?_eq_some (estimates_nonneg ho.nonneg) made
    refine .inr ⟨by rintro rfl; simp at chosen, _, ht, fits.trans length, ?_⟩
    rcases chosen with rfl | rfl <;> rfl
  | scores made =>
    obtain ⟨fits, ht⟩ := scoreTarget?_eq_some made
    exact .inr ⟨nofun, _, ht, fits.trans same.symm, rfl⟩
  | greedy several => exact .inl ⟨rfl, several, rfl⟩
  | greedyRates made =>
    obtain ⟨fits, ht⟩ := normalised?_eq_some (estimates_nonneg ho.nonneg) made
    refine .inr ⟨nofun, _, greedyTarget_isDistribution hw.epsilon_low hw.epsilon_high ht fits, ?_, rfl⟩
    rw [length_greedyTarget, fits, length]

theorem next?_isDistribution {rule : UpdateRule} {w : UpdateWeights Rat} {new : List Rat} (hw : w.InUnit)
    (ho : IsDistribution old) (h : next? rule w old rewards = .ok (some new)) :
    new.length = old.length ∧ IsDistribution new := by
  obtain ⟨same, made⟩ := next?_eq_some h
  rcases made.greedy_or_blends hw ho same with ⟨-, several, rfl⟩ | ⟨-, target, ht, fits, rfl⟩
  · have best : Scalar.argmax (estimates old rewards) < old.length := by
      rw [← length_estimates same]
      refine Scalar.argmax_lt (List.ne_nil_of_length_pos ?_)
      rw [length_estimates same]
      omega
    -- The others share `epsilon` in equal parts, and there is at least one of them.
    have others : (old.length : Rat) - 1 ≠ 0 := by
      have : (2 : Rat) ≤ old.length := by exact_mod_cast several
      linarith
    refine ⟨by simp, .setApart best (sub_nonneg.mpr hw.epsilon_high) ?_ ?_⟩
    · exact div_nonneg hw.epsilon_low (Nat.cast_nonneg _)
    · rw [Nat.cast_sub (by omega), Nat.cast_one, mul_div_cancel₀ _ others]
      ring
  · obtain ⟨low, high⟩ := kept_mem hw rule
    exact ⟨length_blend fits, blend_isDistribution low high ho ht fits⟩

end UpdateRule

end SchedulerLearning

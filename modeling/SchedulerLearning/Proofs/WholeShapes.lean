import SchedulerLearning.Proofs.Evidence
import Mathlib.Algebra.Order.Floor.Semiring
import Mathlib.Data.Rat.Floor
import Mathlib.Tactic.GCongr
import Mathlib.Tactic.LinearCombination
import Mathlib.Tactic.Ring

/-!
# Beta distributions of whole shapes

For whole parameters the cumulative Beta distribution is a probability of trials, so it has exact
values: a Beta variable of shape `(k, n + 1 - k)` is at most `x` exactly as likely as `n` trials
that succeed with probability `x` have at least `k` successes.
-/

namespace SchedulerLearning

/-- The probability of at least so many successes in so many trials, each of which succeeds with
probability `x`. -/
def atLeast (x : Rat) : (trials successes : Nat) → Rat
  | _, 0 => 1
  | 0, _ + 1 => 0
  | trials + 1, successes + 1 => x * atLeast x trials successes + (1 - x) * atLeast x trials (successes + 1)

def wholeCdf : Cumulative Rat := fun d x => atLeast x (⌊d.alpha⌋₊ + ⌊d.beta⌋₊ - 1) ⌊d.alpha⌋₊

section
variable {x : Rat} {trials successes : Nat}

theorem atLeast_zero_right : atLeast x trials 0 = 1 := by cases trials <;> rfl

theorem atLeast_nonneg (low : 0 ≤ x) (high : x ≤ 1) : 0 ≤ atLeast x trials successes := by
  induction trials generalizing successes with
  | zero => cases successes <;> simp [atLeast]
  | succ trials ih =>
    cases successes with
    | zero => simp [atLeast]
    | succ successes =>
      exact add_nonneg (mul_nonneg low ih) (mul_nonneg (sub_nonneg.mpr high) ih)

theorem atLeast_succ_le (low : 0 ≤ x) (high : x ≤ 1) :
    atLeast x trials (successes + 1) ≤ atLeast x trials successes := by
  induction trials generalizing successes with
  | zero => cases successes <;> simp [atLeast]
  | succ trials ih =>
    have fails : 0 ≤ 1 - x := sub_nonneg.mpr high
    cases successes with
    | zero =>
      calc x * atLeast x trials 0 + (1 - x) * atLeast x trials 1
          ≤ x * atLeast x trials 0 + (1 - x) * atLeast x trials 0 := by gcongr; exact ih
        _ = 1 := by rw [atLeast_zero_right]; ring
    | succ successes =>
      exact add_le_add (mul_le_mul_of_nonneg_left ih low) (mul_le_mul_of_nonneg_left ih fails)

theorem atLeast_pos (low : 0 < x) (high : x ≤ 1) (possible : successes ≤ trials) :
    0 < atLeast x trials successes := by
  induction trials generalizing successes with
  | zero =>
    obtain rfl := Nat.le_zero.mp possible
    simp [atLeast]
  | succ trials ih =>
    cases successes with
    | zero => simp [atLeast]
    | succ successes =>
      exact add_pos_of_pos_of_nonneg (mul_pos low (ih (Nat.le_of_succ_le_succ possible)))
        (mul_nonneg (sub_nonneg.mpr high) (atLeast_nonneg low.le high))

theorem atLeast_of_lt (impossible : trials < successes) : atLeast x trials successes = 0 := by
  induction trials generalizing successes with
  | zero =>
    cases successes with
    | zero => cases impossible
    | succ successes => rfl
  | succ trials ih =>
    cases successes with
    | zero => cases impossible
    | succ successes =>
      have fewer : trials < successes := Nat.lt_of_succ_lt_succ impossible
      rw [atLeast, ih fewer, ih (Nat.lt_succ_of_lt fewer), mul_zero, mul_zero, add_zero]

/-- Either there are so many successes, or there are enough failures to exclude that. -/
theorem atLeast_add_atLeast {failures : Nat} (all : successes + failures = trials + 1) :
    atLeast x trials successes + atLeast (1 - x) trials failures = 1 := by
  induction trials generalizing successes failures with
  | zero =>
    obtain ⟨rfl, rfl⟩ | ⟨rfl, rfl⟩ : successes = 0 ∧ failures = 1 ∨ successes = 1 ∧ failures = 0 := by
      omega
    · exact add_zero 1
    · exact zero_add 1
  | succ trials ih =>
    cases successes with
    | zero => rw [atLeast_zero_right, atLeast_of_lt (by omega), add_zero]
    | succ successes =>
      cases failures with
      | zero => rw [atLeast_zero_right, atLeast_of_lt (by omega), zero_add]
      | succ failures =>
        have after_success := ih (show successes + (failures + 1) = trials + 1 by omega)
        have after_failure := ih (show successes + 1 + failures = trials + 1 by omega)
        rw [atLeast, atLeast]
        linear_combination x * after_success + (1 - x) * after_failure

theorem belief_wholeCdf (satisfied failed : Nat) :
    belief wholeCdf 1 1 x satisfied failed = atLeast x (satisfied + failed + 1) (satisfied + 1) := by
  have whole (n : Nat) : ⌊(n : Rat) + 1⌋₊ = n + 1 := by rw [← Nat.cast_succ, Nat.floor_natCast]
  have trials : satisfied + 1 + (failed + 1) - 1 = satisfied + failed + 1 := by omega
  rw [belief, wholeCdf, whole, whole, trials]

end

end SchedulerLearning

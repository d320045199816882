import Mathlib.Analysis.SpecialFunctions.Gamma.Basic
import Mathlib.Analysis.SpecialFunctions.Log.Basic
import Mathlib.Tactic.FieldSimp
import Mathlib.Tactic.Linarith
import Mathlib.Tactic.NormNum
import Mathlib.Tactic.Positivity
import Mathlib.Tactic.Ring
import SchedulerLearning.Statistics.Beta

/-!
# The reflection of the Beta distribution

Over the real numbers, and whatever stands for the logarithm, the exponential and the logarithm of
the gamma function: the cumulative distribution of a shape at `x` and the one of the shape turned
round at `1 - x` sum to one. One of the two is evaluated directly and the other reflected, with the
same front factor and the same continued fraction, except at the point that divides the sides, where
both are reflected.
-/

namespace SchedulerLearning

-- ---------------------------------------------------------------------------
-- Real numbers
-- ---------------------------------------------------------------------------

namespace Scalar

noncomputable instance : Scalar ℝ where
  decLt := inferInstance
  decLe := inferInstance
  isNaN _ := false
  isFinite _ := true

theorem zero_real : (@OfNat.ofNat ℝ 0 instOfNat) = 0 := Nat.cast_zero

theorem one_real : (@OfNat.ofNat ℝ 1 instOfNat) = 1 := Nat.cast_one

theorem clampUnit_real (v : ℝ) : clampUnit v = max 0 (min v 1) := by
  unfold clampUnit
  simp only [zero_real, one_real]
  split
  · next low => rw [min_eq_left (by linarith), max_eq_left low.le]
  · next above =>
    split
    · next high => rw [min_eq_right high.le, max_eq_right zero_le_one]
    · next within => rw [min_eq_left (not_lt.mp within), max_eq_right (not_lt.mp above)]

theorem clampUnit_mem (v : ℝ) : clampUnit v ∈ Set.Icc 0 1 := by
  rw [clampUnit_real]
  exact ⟨le_max_left _ _, max_le zero_le_one (min_le_right _ _)⟩

theorem clampUnit_add_one_sub (v : ℝ) : clampUnit v + clampUnit (1 - v) = 1 := by
  rw [clampUnit_real, clampUnit_real]
  rcases le_total v 0 with low | above
  · rw [min_eq_left (by linarith), max_eq_left low, min_eq_right (by linarith),
      max_eq_right zero_le_one, zero_add]
  · rcases le_total v 1 with within | high
    · rw [min_eq_left within, max_eq_right above, min_eq_left (by linarith),
        max_eq_right (by linarith), add_sub_cancel]
    · rw [min_eq_right high, max_eq_right zero_le_one, min_eq_left (by linarith),
        max_eq_left (by linarith), add_zero]

end Scalar

namespace Beta

open Scalar (clampUnit zero_real one_real)

def mirror {α : Type} (d : Beta α) : Beta α := ⟨d.beta, d.alpha⟩

@[simp] theorem mirror_alpha {α : Type} (d : Beta α) : d.mirror.alpha = d.beta := rfl

@[simp] theorem mirror_beta {α : Type} (d : Beta α) : d.mirror.beta = d.alpha := rfl

theorem mirror_mirror {α : Type} (d : Beta α) : d.mirror.mirror = d := rfl

variable {f : SpecialFunctions ℝ} {d : Beta ℝ} {x : ℝ}

-- ---------------------------------------------------------------------------
-- The two sides
-- ---------------------------------------------------------------------------

/-- The cumulative distribution as the continued fraction gives it. -/
noncomputable def direct (f : SpecialFunctions ℝ) (d : Beta ℝ) (x : ℝ) : ℝ :=
  d.front f x * continuedFraction d.alpha d.beta x / d.alpha

theorem front_eq : d.front f x =
    f.exp (d.alpha * f.ln x + d.beta * f.ln (1 - x) -
      (f.logGamma d.alpha + f.logGamma d.beta - f.logGamma (d.alpha + d.beta))) := by
  simp only [front, logBeta, one_real]

theorem front_mirror : d.mirror.front f (1 - x) = d.front f x := by
  rw [front_eq, front_eq, mirror_alpha, mirror_beta, sub_sub_cancel, add_comm (d.beta * _),
    add_comm (f.logGamma d.beta), add_comm d.beta d.alpha]

theorem split_eq : d.split = (d.alpha + 1) / (d.alpha + d.beta + 2) := by
  simp only [split, one_real]

theorem split_mirror (total : d.alpha + d.beta + 2 ≠ 0) : d.mirror.split = 1 - d.split := by
  have swapped : d.mirror.split = (d.beta + 1) / (d.alpha + d.beta + 2) := by
    rw [split_eq, mirror_alpha, mirror_beta, add_comm d.beta d.alpha]
  rw [swapped, split_eq, eq_sub_iff_add_eq, ← add_div, div_eq_one_iff_eq total]
  ring

theorem cdf_of_nonpos (low : x ≤ 0) : cdf f d x = 0 := by
  simp [cdf, Scalar.isNaN, zero_real, low]

theorem cdf_of_one_le (high : 1 ≤ x) : cdf f d x = 1 := by
  have above : ¬x ≤ 0 := by linarith
  simp [cdf, Scalar.isNaN, zero_real, one_real, high, above]

theorem cdf_of_inside (low : 0 < x) (high : x < 1) : cdf f d x =
    clampUnit (if x < d.split then direct f d x else 1 - direct f d.mirror (1 - x)) := by
  have reflected : direct f d.mirror (1 - x) =
      d.front f x * continuedFraction d.beta d.alpha (1 - x) / d.beta := by
    rw [direct, front_mirror]
    rfl
  simp only [cdf, zero_real, one_real, not_le.mpr low, not_le.mpr high, reflected, if_false]
  rfl

theorem cdf_mem : cdf f d x ∈ Set.Icc 0 1 := by
  rcases le_or_gt x 0 with low | above
  · rw [cdf_of_nonpos low]
    exact Set.left_mem_Icc.mpr zero_le_one
  · rcases le_or_gt 1 x with high | within
    · rw [cdf_of_one_le high]
      exact Set.right_mem_Icc.mpr zero_le_one
    · rw [cdf_of_inside above within]
      exact Scalar.clampUnit_mem _

-- ---------------------------------------------------------------------------
-- Reflection
-- ---------------------------------------------------------------------------

/-- Below the point that divides the sides, the shape turned round is evaluated by reflection. -/
theorem cdf_add_of_lt_split (total : d.alpha + d.beta + 2 ≠ 0) (low : 0 < x) (high : x < 1)
    (left : x < d.split) : cdf f d x + cdf f d.mirror (1 - x) = 1 := by
  have right : ¬1 - x < d.mirror.split := by
    rw [split_mirror total]
    linarith
  rw [cdf_of_inside low high, if_pos left, cdf_of_inside (by linarith) (by linarith), if_neg right,
    mirror_mirror, sub_sub_cancel]
  exact Scalar.clampUnit_add_one_sub _

theorem cdf_add (total : d.alpha + d.beta + 2 ≠ 0) (off : x ≠ d.split) :
    cdf f d x + cdf f d.mirror (1 - x) = 1 := by
  rcases le_or_gt x 0 with low | above
  · rw [cdf_of_nonpos low, cdf_of_one_le (by linarith), zero_add]
  rcases le_or_gt 1 x with high | within
  · rw [cdf_of_one_le high, cdf_of_nonpos (by linarith), add_zero]
  rcases lt_or_gt_of_ne off with left | right
  · exact cdf_add_of_lt_split total above within left
  -- On the other side, the two shapes change places.
  · have total' : d.mirror.alpha + d.mirror.beta + 2 ≠ 0 := by
      rwa [mirror_alpha, mirror_beta, add_comm d.beta]
    have left : 1 - x < d.mirror.split := by
      rw [split_mirror total]
      linarith
    have sum := cdf_add_of_lt_split (f := f) total' (by linarith) (by linarith) left
    rwa [mirror_mirror, sub_sub_cancel, add_comm] at sum

theorem massBetween_mirror {low high : ℝ} (total : d.alpha + d.beta + 2 ≠ 0) (offLow : low ≠ d.split)
    (offHigh : high ≠ d.split) :
    massBetween (cdf f) d low high = massBetween (cdf f) d.mirror (1 - high) (1 - low) := by
  have atLow := cdf_add (f := f) total offLow
  have atHigh := cdf_add (f := f) total offHigh
  have same : cdf f d high - cdf f d low = cdf f d.mirror (1 - low) - cdf f d.mirror (1 - high) := by
    linarith
  rw [massBetween, massBetween, same]

/-- Over the real numbers, for any functions in place of the logarithm, the exponential and the
logarithm of the gamma function: away from the point that divides the sides, the cumulative
distributions of a shape and of the shape turned round reflect each other, and so do the
probabilities of intervals, in whichever order their bounds are. -/
theorem cdf_reflects (f : SpecialFunctions ℝ) {alpha beta : ℝ} (ha : 0 < alpha) (hb : 0 < beta) :
    ∃ d r, Beta.of alpha beta = .ok d ∧ Beta.of beta alpha = .ok r ∧
      (∀ x, cdf f d x ∈ Set.Icc 0 1 ∧ cdf f r x ∈ Set.Icc 0 1) ∧
      (∀ x, x ≠ (alpha + 1) / (alpha + beta + 2) → cdf f d x + cdf f r (1 - x) = 1) ∧
      ∀ low high, low ≠ (alpha + 1) / (alpha + beta + 2) → high ≠ (alpha + 1) / (alpha + beta + 2) →
        massBetween (cdf f) d low high = massBetween (cdf f) r (1 - high) (1 - low) := by
  have shape {a b : ℝ} (ha : 0 < a) (hb : 0 < b) : Beta.of a b = .ok ⟨a, b⟩ := by
    simp [Beta.of, Scalar.isFinite, zero_real, ha, hb]
  have total : alpha + beta + 2 ≠ 0 := by positivity
  rw [← split_eq (d := ⟨alpha, beta⟩)]
  exact ⟨_, _, shape ha hb, shape hb ha, fun x => ⟨cdf_mem, cdf_mem⟩, fun x off => cdf_add total off,
    fun low high offLow offHigh => massBetween_mirror total offLow offHigh⟩

theorem cdf_reflects_at_quarter :
    ∃ d r, Beta.of (1 : ℝ) 2 = .ok d ∧ Beta.of (2 : ℝ) 1 = .ok r ∧
      cdf ⟨Real.log, Real.exp, fun x => Real.log (Real.Gamma x)⟩ d (1 / 4) +
        cdf ⟨Real.log, Real.exp, fun x => Real.log (Real.Gamma x)⟩ r (3 / 4) = 1 := by
  obtain ⟨d, r, shape, turned, -, sum, -⟩ :=
    cdf_reflects ⟨Real.log, Real.exp, fun x => Real.log (Real.Gamma x)⟩ one_pos two_pos
  have reflected : (1 : ℝ) - 1 / 4 = 3 / 4 := by norm_num
  exact ⟨d, r, shape, turned, reflected ▸ sum (1 / 4) (by norm_num)⟩

end Beta

end SchedulerLearning

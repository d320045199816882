import SchedulerLearning.Learning.Mixture
import SchedulerLearning.Model.Distribution
import Mathlib.Algebra.BigOperators.Ring.List
import Mathlib.Algebra.Order.BigOperators.Group.List
import Mathlib.Algebra.Order.Field.Rat
import Mathlib.Tactic.FieldSimp
import Mathlib.Tactic.Linarith
import Mathlib.Tactic.Positivity
import Mathlib.Tactic.Ring

/-!
# Probabilities in exact arithmetic

Lists of rational numbers that are probability distributions, and the ways in which the update
rules make new ones: normalised weights, mixtures of two distributions, and one choice set
apart from all the others. Branches with such probabilities pass for a choice.
-/

namespace SchedulerLearning

/-- Whether the numbers are probabilities, one of each choice. -/
structure IsDistribution (ps : List Rat) : Prop where
  nonneg : ∀ p ∈ ps, 0 ≤ p
  sum : ps.sum = 1

theorem Scalar.sum_rat (xs : List Rat) : Scalar.sum xs = xs.sum := by
  have from_start : ∀ start : Rat, xs.foldl (· + ·) start = start + xs.sum := by
    induction xs with
    | nil => simp
    | cons x rest ih =>
      intro start
      rw [List.foldl_cons, ih, List.sum_cons, add_assoc]
  exact (from_start 0).trans (zero_add _)

theorem Scalar.abs_rat (x : Rat) : Scalar.abs x = |x| := by
  unfold Scalar.abs
  split
  · next neg => exact (abs_of_neg neg).symm
  · next pos => exact (abs_of_nonneg (not_lt.mp pos)).symm

theorem forall_mem_zipWith {σ τ υ : Type} {f : σ → τ → υ} {r : υ → Prop} {xs : List σ} {ys : List τ}
    (h : ∀ x ∈ xs, ∀ y ∈ ys, r (f x y)) : ∀ z ∈ List.zipWith f xs ys, r z := by
  induction xs generalizing ys with
  | nil => simp
  | cons x rest ih =>
    cases ys with
    | nil => simp
    | cons y others =>
      rw [List.zipWith_cons_cons, List.forall_mem_cons]
      refine ⟨h x List.mem_cons_self y List.mem_cons_self, ih fun x hx y hy => ?_⟩
      exact h x (List.mem_cons_of_mem _ hx) y (List.mem_cons_of_mem _ hy)

theorem sum_zipWith_mix (a b : Rat) {ps qs : List Rat} (same : ps.length = qs.length) :
    (List.zipWith (fun p q => a * p + b * q) ps qs).sum = a * ps.sum + b * qs.sum := by
  induction ps generalizing qs with
  | nil =>
    obtain rfl := List.length_eq_zero_iff.mp same.symm
    simp
  | cons p rest ih =>
    cases qs with
    | nil => cases same
    | cons q others =>
      rw [List.zipWith_cons_cons, List.sum_cons, ih (Nat.succ.inj same), List.sum_cons,
        List.sum_cons]
      ring

theorem sum_setApart (n best : Nat) (first other : Rat) :
    ((List.range n).map fun i => if i = best then first else other).sum =
      if best < n then first + ((n : Rat) - 1) * other else n * other := by
  induction n with
  | zero => simp
  | succ n ih =>
    rw [List.range_succ, List.map_append, List.sum_append, ih]
    rcases Nat.lt_trichotomy best n with before | rfl | after
    · simp [before, Nat.lt_succ_of_lt before, Nat.ne_of_gt before]
      ring
    · simp
      ring
    · simp [Nat.not_lt_of_gt after, Nat.ne_of_lt after, Nat.not_lt.mpr after]
      ring

namespace IsDistribution

variable {ps qs : List Rat}

theorem le_one (h : IsDistribution ps) : ∀ p ∈ ps, p ≤ 1 := by
  intro p hp
  rw [← h.sum]
  exact List.single_le_sum h.nonneg p hp

theorem ne_nil (h : IsDistribution ps) : ps ≠ [] := by
  rintro rfl
  simpa using h.sum

theorem pair {p q : Rat} (hp : 0 ≤ p) (hq : 0 ≤ q) (sum : p + q = 1) : IsDistribution [p, q] :=
  ⟨by simp [hp, hq], by simp [sum]⟩

theorem normalise {ws : List Rat} (nonneg : ∀ w ∈ ws, 0 ≤ w) (norm : ws.sum ≠ 0) :
    IsDistribution (ws.map (· / ws.sum)) := by
  have total : 0 ≤ ws.sum := List.sum_nonneg nonneg
  refine ⟨?_, ?_⟩
  · intro p hp
    obtain ⟨w, hw, rfl⟩ := List.mem_map.mp hp
    exact div_nonneg (nonneg w hw) total
  · simp only [div_eq_mul_inv]
    rw [List.sum_map_mul_right, List.map_id', mul_inv_cancel₀ norm]

theorem mix {weight : Rat} (low : 0 ≤ weight) (high : weight ≤ 1) (hp : IsDistribution ps)
    (hq : IsDistribution qs) (same : ps.length = qs.length) :
    IsDistribution (List.zipWith (fun p q => weight * p + (1 - weight) * q) ps qs) := by
  refine ⟨?_, ?_⟩
  · refine forall_mem_zipWith fun p hp' q hq' => ?_
    have first := mul_nonneg low (hp.nonneg p hp')
    have second := mul_nonneg (sub_nonneg.mpr high) (hq.nonneg q hq')
    exact add_nonneg first second
  · rw [sum_zipWith_mix weight (1 - weight) same, hp.sum, hq.sum]
    ring

theorem setApart {n best : Nat} {first other : Rat} (present : best < n) (hf : 0 ≤ first)
    (ho : 0 ≤ other) (total : first + ((n : Rat) - 1) * other = 1) :
    IsDistribution ((List.range n).map fun i => if i = best then first else other) := by
  refine ⟨?_, ?_⟩
  · intro p hp
    obtain ⟨i, -, rfl⟩ := List.mem_map.mp hp
    split
    · exact hf
    · exact ho
  · rw [sum_setApart, if_pos present, total]

theorem uniform {n : Nat} (some : 0 < n) : IsDistribution (List.replicate n (1 / (n : Rat))) := by
  have parts : (n : Rat) ≠ 0 := Nat.cast_ne_zero.mpr (by omega)
  refine ⟨?_, ?_⟩
  · intro p hp
    rw [List.eq_of_mem_replicate hp]
    positivity
  · rw [List.sum_replicate, nsmul_eq_mul, mul_one_div_cancel parts]

end IsDistribution

namespace Distribution

variable {τ : Type} {d : Distribution Rat}

theorem total_eq {branches : List (Rat × τ)} : total branches = (branches.map Prod.fst).sum :=
  Scalar.sum_rat _

theorem check_of_isDistribution (source : State) (h : IsDistribution (d.map Prod.fst)) :
    d.check source = .ok () := by
  have close : ¬(tolerance : Rat) < Scalar.abs (total d - 1) := by
    rw [total_eq, h.sum, Scalar.abs_rat]
    norm_num [tolerance]
  exact check_eq_ok.mpr ⟨close, fun b there => not_lt.mpr (h.nonneg b.1 (List.mem_map_of_mem there))⟩

end Distribution

end SchedulerLearning

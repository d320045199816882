import SchedulerLearning.Scalar
import Mathlib.Data.Int.Order.Basic
import Mathlib.Data.Prod.Lex

/-!
# The order of floating point values

Floating point values compare as the places in a linear order do, but for those that are no
numbers, which compare with nothing.
-/

namespace SchedulerLearning.FloatOrder

open Float.Model (UnpackedFloat)

variable {x y z : Float}

/-- The place of a value among all that compare. -/
def place? : UnpackedFloat → Option (Int ×ₗ Int ×ₗ Int)
  | .notANumber => none
  | .infinity .negative => some (toLex (-2, toLex (0, 0)))
  | .finite .negative mantissa exponent _ => some (toLex (-1, toLex (-exponent, -mantissa)))
  | .zero _ => some (toLex (0, toLex (0, 0)))
  | .finite .positive mantissa exponent _ => some (toLex (1, toLex (exponent, mantissa)))
  | .infinity .positive => some (toLex (2, toLex (0, 0)))

theorem compare_eq_lt {a b : UnpackedFloat} :
    a.compare b = some .lt ↔ ∃ i j, place? a = some i ∧ place? b = some j ∧ i < j := by
  rcases a with (_ | _) | _ | _ | ⟨_ | _, m, e, _⟩ <;>
    rcases b with (_ | _) | _ | _ | ⟨_ | _, m', e', _⟩ <;>
    dsimp only [UnpackedFloat.compare, place?] <;>
    simp [Prod.Lex.toLex_lt_toLex, Ordering.then_eq_lt, compare_lt_iff_lt, Ordering.swap_eq_lt,
      Ordering.then_eq_gt, compare_gt_iff_gt]
  rfl

theorem compare_eq_eq {a b : UnpackedFloat} :
    a.compare b = some .eq ↔ ∃ i, place? a = some i ∧ place? b = some i := by
  rcases a with (_ | _) | _ | _ | ⟨_ | _, m, e, _⟩ <;>
    rcases b with (_ | _) | _ | _ | ⟨_ | _, m', e', _⟩ <;>
    dsimp only [UnpackedFloat.compare, place?] <;>
    simp [Ordering.then_eq_eq]
  · rfl
  · rfl
  · omega
  · omega

theorem lt_iff : x < y ↔ x.toModel.unpack.compare y.toModel.unpack = some .lt := by
  show decide (x.toModel < y.toModel) = true ↔ _
  rw [decide_eq_true_iff]
  show (_ == _) = true ↔ _
  rw [beq_iff_eq]

theorem le_iff : x ≤ y ↔ x.toModel.unpack.compare y.toModel.unpack = some .lt ∨
    x.toModel.unpack.compare y.toModel.unpack = some .eq := by
  show decide (x.toModel ≤ y.toModel) = true ↔ _
  rw [decide_eq_true_iff]
  show Option.any _ _ = true ↔ _
  rcases x.toModel.unpack.compare y.toModel.unpack with _ | (_ | _ | _) <;> simp [Ordering.isLE]

theorem lt_iff_place : x < y ↔
    ∃ i j, place? x.toModel.unpack = some i ∧ place? y.toModel.unpack = some j ∧ i < j :=
  lt_iff.trans compare_eq_lt

theorem le_iff_place : x ≤ y ↔
    ∃ i j, place? x.toModel.unpack = some i ∧ place? y.toModel.unpack = some j ∧ i ≤ j := by
  rw [le_iff, compare_eq_lt, compare_eq_eq]
  constructor
  · rintro (⟨i, j, hi, hj, lt⟩ | ⟨i, hi, hj⟩)
    · exact ⟨i, j, hi, hj, lt.le⟩
    · exact ⟨i, i, hi, hj, le_rfl⟩
  · rintro ⟨i, j, hi, hj, le⟩
    rcases le.lt_or_eq with lt | rfl
    · exact .inl ⟨i, j, hi, hj, lt⟩
    · exact .inr ⟨i, hi, hj⟩

theorem lt_irrefl (x : Float) : ¬x < x := by
  rw [lt_iff_place]
  rintro ⟨i, j, hi, hj, lt⟩
  cases hi.symm.trans hj
  exact lt.false

theorem le_of_lt (h : x < y) : x ≤ y := le_iff.mpr (.inl (lt_iff.mp h))

theorem lt_of_lt_of_le (h : x < y) (h' : y ≤ z) : x < z := by
  obtain ⟨i, j, hi, hj, lt⟩ := lt_iff_place.mp h
  obtain ⟨j', k, hj', hk, le⟩ := le_iff_place.mp h'
  cases hj.symm.trans hj'
  exact lt_iff_place.mpr ⟨i, k, hi, hk, lt.trans_le le⟩

theorem lt_trans (h : x < y) (h' : y < z) : x < z := lt_of_lt_of_le h (le_of_lt h')

end SchedulerLearning.FloatOrder

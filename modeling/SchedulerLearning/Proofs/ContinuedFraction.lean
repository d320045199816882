import Mathlib.Algebra.ContinuedFractions.ContinuantsRecurrence
import Mathlib.Algebra.ContinuedFractions.Translations
import Mathlib.Tactic.NormNum
import SchedulerLearning.Proofs.CheckedDivision
import SchedulerLearning.Proofs.Probabilities
import SchedulerLearning.Statistics.Beta

/-!
# The continued fraction of the incomplete beta function

In exact arithmetic: the modified Lentz method divides by no zero, guarded or not. Until a value is
guarded, it holds the convergents of the fraction, and with them the ratios of their numerators and
of their denominators. It answers with the first value that has settled, or with the last one.
-/

namespace SchedulerLearning.Lentz

open Checked (number)

-- ---------------------------------------------------------------------------
-- The method, one numerator at a time
-- ---------------------------------------------------------------------------

section
variable {α : Type} [Scalar α]

def evenNumerator (a b x m : α) : α := m * (b - m) * x / ((a - 1 + 2 * m) * (a + 2 * m))

def oddNumerator (a b x m : α) : α := -(a + m) * (a + b + m) * x / ((a + 2 * m) * (a + 1 + 2 * m))

def advance (e : α) (s : Lentz α) : Lentz α :=
  let d := 1 / guard (1 + e * s.d)
  let c := guard (1 + e / s.c)
  ⟨c, d, s.value * (d * c), d * c⟩

def divisors (e : α) (s : Lentz α) : List α := [1 + e * s.d, 1 + e / s.c]

def guarded (a b x : α) : Nat → List α
  | 0 => [1 - (a + b) * x / (a + 1)]
  | m + 1 =>
    let e := evenNumerator a b x (m + 1 : Nat)
    let s := after a b x m
    guarded a b x m ++ (s.divisors e ++ (s.advance e).divisors (oddNumerator a b x (m + 1 : Nat)))

variable {a b x : α} {left m : Nat}

theorem next_eq {m : α} {s : Lentz α} :
    s.next a b x m = (s.advance (evenNumerator a b x m)).advance (oddNumerator a b x m) := rfl

theorem settle_after : settle a b x (left + 1) m (after a b x m) =
    if (after a b x (m + 1)).settled then (after a b x (m + 1)).value
    else settle a b x left (m + 1) (after a b x (m + 1)) := rfl

theorem exists_settle (more : 0 < left) :
    ∃ k, m < k ∧ k ≤ m + left ∧ settle a b x left m (after a b x m) = (after a b x k).value ∧
      ((after a b x k).settled ∨ k = m + left) ∧ ∀ j, m < j → j < k → ¬(after a b x j).settled := by
  induction left generalizing m with
  | zero => contradiction
  | succ left ih =>
    rw [settle_after]
    split
    · next settled => exact ⟨m + 1, by omega, by omega, rfl, .inl settled, fun j _ _ => by omega⟩
    · next moving =>
      rcases Nat.eq_zero_or_pos left with rfl | more
      · exact ⟨m + 1, by omega, by omega, rfl, .inr rfl, fun j _ _ => by omega⟩
      · obtain ⟨k, above, below, value, ended, before⟩ := ih more (m := m + 1)
        refine ⟨k, by omega, by omega, value, ended.imp_right (by omega), fun j after_m before_k => ?_⟩
        rcases Nat.eq_or_lt_of_le after_m with rfl | later
        · exact moving
        · exact before j later before_k

end

-- ---------------------------------------------------------------------------
-- Divisions
-- ---------------------------------------------------------------------------

def checked (s : Lentz Rat) : Lentz Checked := ⟨number s.c, number s.d, number s.value, number s.factor⟩

variable {a b x e v : Rat} {s : Lentz Rat} {k m : Nat}

theorem settled_iff : s.settled ↔ |s.factor - 1| < 1e-15 := by
  rw [← Scalar.abs_rat]
  exact decide_eq_true_iff

theorem guard_ne_zero : guard v ≠ 0 := by
  have least : (0 : Rat) < 1e-300 := by decide +kernel
  unfold guard
  split
  · exact ne_of_gt least
  · next large =>
    rintro rfl
    rw [Scalar.abs_rat, abs_zero] at large
    exact large least

theorem guard_number : guard (number v) = number (guard v) := by
  have small : Scalar.abs (number v) < 1e-300 ↔ Scalar.abs v < 1e-300 := by
    rw [Checked.abs_number, Checked.ofScientific_eq, Checked.number_lt]
  unfold guard
  split
  · next h => exact congrArg number (if_pos (small.mp h)).symm
  · next h => exact congrArg number (if_neg (mt small.mpr h)).symm

theorem evenNumerator_number (ha : 0 < a) (pos : 0 < m) :
    evenNumerator (number a) (number b) (number x) (m : Nat) = number (evenNumerator a b x m) := by
  have divisor : (a - 1 + 2 * m) * (a + 2 * m) ≠ 0 := by
    have one : (1 : Rat) ≤ m := Nat.one_le_cast.mpr pos
    exact (mul_pos (by linarith) (by linarith)).ne'
  simp [evenNumerator, divisor]

theorem oddNumerator_number (ha : 0 < a) :
    oddNumerator (number a) (number b) (number x) (m : Nat) = number (oddNumerator a b x m) := by
  have divisor : (a + 2 * m) * (a + 1 + 2 * m) ≠ 0 := by positivity
  simp [oddNumerator, divisor]

theorem advance_checked (divisor : s.c ≠ 0) : s.checked.advance (number e) = (s.advance e).checked := by
  simp [advance, checked, guard_number, guard_ne_zero, divisor]

theorem start_checked (ha : 0 < a) : start (number a) (number b) (number x) = (start a b x).checked := by
  have divisor : a + 1 ≠ 0 := by positivity
  simp [start, checked, guard_number, guard_ne_zero, divisor]

theorem next_checked (ha : 0 < a) (pos : 0 < m) (divisor : s.c ≠ 0) :
    s.checked.next (number a) (number b) (number x) (m : Nat) = (s.next a b x m).checked := by
  rw [next_eq, evenNumerator_number ha pos, oddNumerator_number ha, advance_checked divisor,
    advance_checked guard_ne_zero, ← next_eq]

theorem c_after_ne_zero : (after a b x m).c ≠ 0 := by
  cases m with
  | zero => exact one_ne_zero
  | succ m => exact guard_ne_zero

theorem after_checked (ha : 0 < a) (m : Nat) :
    after (number a) (number b) (number x) m = (after a b x m).checked := by
  induction m with
  | zero => exact start_checked ha
  | succ m ih => rw [after, ih, next_checked ha m.succ_pos c_after_ne_zero, ← after]

theorem settled_checked : s.checked.settled = s.settled := by
  unfold settled checked
  simp

theorem settle_checked (ha : 0 < a) {left : Nat} :
    settle (number a) (number b) (number x) left m (after (number a) (number b) (number x) m) =
      number (settle a b x left m (after a b x m)) := by
  induction left generalizing m with
  | zero =>
    rw [after_checked ha]
    rfl
  | succ left ih =>
    rw [settle_after, settle_after, ih, after_checked ha, settled_checked]
    exact (apply_ite number _ _ _).symm

-- ---------------------------------------------------------------------------
-- The fraction
-- ---------------------------------------------------------------------------

def coefficient (a b x : Rat) (k : Nat) : Rat :=
  let j : Rat := (k / 2 : Nat)
  if k % 2 = 0 then j * (b - j) * x / ((a + 2 * j - 1) * (a + 2 * j))
  else -((a + j) * (a + b + j) * x) / ((a + 2 * j) * (a + 2 * j + 1))

/-- One over one and, behind it, each numerator over one and what is behind that. Convergent number
`k + 1` is the fraction cut behind numerator number `k`. -/
def fraction (a b x : Rat) : GenContFract Rat where
  h := 0
  s := .ofStream fun k => ⟨if k = 0 then 1 else coefficient a b x k, 1⟩

theorem coefficient_even : coefficient a b x (2 * m) = evenNumerator a b x m := by
  have half : 2 * m / 2 = m := by omega
  have even : 2 * m % 2 = 0 := by omega
  have rule : evenNumerator a b x m = m * (b - m) * x / ((a - 1 + 2 * m) * (a + 2 * m)) := rfl
  rw [coefficient, half, if_pos even, rule, sub_add_eq_add_sub]

theorem coefficient_odd : coefficient a b x (2 * m + 1) = oddNumerator a b x m := by
  have half : (2 * m + 1) / 2 = m := by omega
  have odd : ¬(2 * m + 1) % 2 = 0 := by omega
  have rule : oddNumerator a b x m = -(a + m) * (a + b + m) * x / ((a + 2 * m) * (a + 1 + 2 * m)) := rfl
  rw [coefficient, half, if_neg odd, rule, add_right_comm a 1, neg_mul, neg_mul]

theorem nums_zero : (fraction a b x).nums 0 = 0 := rfl

theorem dens_zero : (fraction a b x).dens 0 = 1 := rfl

theorem nums_one : (fraction a b x).nums 1 = 1 := by
  have term : (fraction a b x).s.get? 0 = some ⟨1, 1⟩ := rfl
  rw [GenContFract.first_num_eq term, one_mul]
  exact zero_add 1

theorem dens_one : (fraction a b x).dens 1 = 1 := by
  have term : (fraction a b x).s.get? 0 = some ⟨1, 1⟩ := rfl
  exact GenContFract.first_den_eq term

theorem nums_recurrence : (fraction a b x).nums (k + 2) =
    (fraction a b x).nums (k + 1) + coefficient a b x (k + 1) * (fraction a b x).nums k := by
  have term : (fraction a b x).s.get? (k + 1) = some ⟨coefficient a b x (k + 1), 1⟩ := rfl
  rw [GenContFract.nums_recurrence term rfl rfl, one_mul]

theorem dens_recurrence : (fraction a b x).dens (k + 2) =
    (fraction a b x).dens (k + 1) + coefficient a b x (k + 1) * (fraction a b x).dens k := by
  have term : (fraction a b x).s.get? (k + 1) = some ⟨coefficient a b x (k + 1), 1⟩ := rfl
  rw [GenContFract.dens_recurrence term rfl rfl, one_mul]

-- ---------------------------------------------------------------------------
-- Convergents
-- ---------------------------------------------------------------------------

/-- Whether a state holds the fraction cut behind numerator number `k`. -/
structure Holds (s : Lentz Rat) (a b x : Rat) (k : Nat) : Prop where
  num : (fraction a b x).nums (k + 1) ≠ 0
  den : (fraction a b x).dens (k + 1) ≠ 0
  c : s.c * (fraction a b x).nums k = (fraction a b x).nums (k + 1)
  d : s.d * (fraction a b x).dens (k + 1) = (fraction a b x).dens k
  value : s.value * (fraction a b x).dens (k + 1) = (fraction a b x).nums (k + 1)

theorem holds_start (ha : 0 < a)
    (spared : guard (1 - (a + b) * x / (a + 1)) = 1 - (a + b) * x / (a + 1)) :
    (start a b x).Holds a b x 1 := by
  have first : 1 + coefficient a b x 1 = 1 - (a + b) * x / (a + 1) := by
    simp [coefficient]
    field_simp
    ring
  have nums : (fraction a b x).nums 2 = 1 := by
    rw [nums_recurrence, nums_one, nums_zero, mul_zero, add_zero]
  have dens : (fraction a b x).dens 2 = 1 - (a + b) * x / (a + 1) := by
    rw [dens_recurrence, dens_one, dens_zero, mul_one, first]
  have d : (start a b x).d = 1 / (1 - (a + b) * x / (a + 1)) := congrArg (1 / ·) spared
  have den_ne : 1 - (a + b) * x / (a + 1) ≠ 0 := spared ▸ guard_ne_zero
  have one : (start a b x).d * (fraction a b x).dens 2 = 1 := by
    rw [d, dens, one_div_mul_cancel den_ne]
  constructor
  · rw [nums]
    exact one_ne_zero
  · rw [dens]
    exact den_ne
  · rw [nums, nums_one]
    exact one_mul 1
  · rw [one, dens_one]
  · rw [nums]
    exact one

/-- The recurrences of the convergents, divided by the convergent before. -/
theorem Holds.advance (held : s.Holds a b x k)
    (spared : ∀ v ∈ s.divisors (coefficient a b x (k + 1)), guard v = v) :
    (s.advance (coefficient a b x (k + 1))).Holds a b x (k + 1) := by
  obtain ⟨num, den, ratioNum, ratioDen, value⟩ := held
  have nums := nums_recurrence (a := a) (b := b) (x := x) (k := k)
  have dens := dens_recurrence (a := a) (b := b) (x := x) (k := k)
  generalize coefficient a b x (k + 1) = e at *
  have first : guard (1 + e * s.d) = 1 + e * s.d := spared _ (.head _)
  have second : guard (1 + e / s.c) = 1 + e / s.c := spared _ (.tail _ (.head _))
  have first_ne : 1 + e * s.d ≠ 0 := first ▸ guard_ne_zero
  have second_ne : 1 + e / s.c ≠ 0 := second ▸ guard_ne_zero
  have c_ne : s.c ≠ 0 := left_ne_zero_of_mul (ratioNum ▸ num)
  have nums : (fraction a b x).nums (k + 2) = (1 + e / s.c) * (fraction a b x).nums (k + 1) := by
    rw [nums, ← ratioNum]
    field_simp
  have dens : (fraction a b x).dens (k + 2) = (1 + e * s.d) * (fraction a b x).dens (k + 1) := by
    rw [dens, ← ratioDen]
    ring
  have c : (s.advance e).c = 1 + e / s.c := second
  have d : (s.advance e).d = 1 / (1 + e * s.d) := congrArg (1 / ·) first
  have whole : (s.advance e).value = s.value * ((s.advance e).d * (s.advance e).c) := rfl
  constructor
  · rw [nums]
    exact mul_ne_zero second_ne num
  · rw [dens]
    exact mul_ne_zero first_ne den
  · rw [nums, c]
  · rw [dens, d]
    field_simp
  · rw [whole, dens, nums, c, d, ← value]
    field_simp

theorem holds_after (ha : 0 < a) (spared : ∀ v ∈ guarded a b x m, guard v = v) :
    (after a b x m).Holds a b x (2 * m + 1) := by
  induction m with
  | zero => exact holds_start ha (spared _ (.head _))
  | succ m ih =>
    simp only [guarded, List.forall_mem_append] at spared
    obtain ⟨before, even, odd⟩ := spared
    rw [after, next_eq, ← coefficient_even, ← coefficient_odd]
    rw [← coefficient_even] at even odd
    rw [← coefficient_odd] at odd
    exact ((ih before).advance even).advance odd

/-- With a positive first shape: no division of the method is by zero, in any iteration. The state
after `m` iterations in which no value is guarded holds the fraction cut behind numerator number
`2 * m + 1`, whose denominator is not zero. The answer is the value after the first iteration whose
factor has settled, or after the last one. -/
theorem computes_convergents (ha : 0 < a) :
    ((∀ m, after (number a) (number b) (number x) m = (after a b x m).checked) ∧
      continuedFraction (number a) (number b) (number x) = number (continuedFraction a b x)) ∧
    (∀ m, (∀ v ∈ guarded a b x m, guard v = v) → (fraction a b x).dens (2 * m + 2) ≠ 0 ∧
      (after a b x m).value = (fraction a b x).nums (2 * m + 2) / (fraction a b x).dens (2 * m + 2)) ∧
    ∃ m, 1 ≤ m ∧ m ≤ 20000 ∧ continuedFraction a b x = (after a b x m).value ∧
      (|(after a b x m).factor - 1| < 1e-15 ∨ m = 20000) ∧
      ∀ k, 1 ≤ k → k < m → ¬|(after a b x k).factor - 1| < 1e-15 := by
  refine ⟨⟨after_checked ha, settle_checked ha⟩, fun m spared => ?_, ?_⟩
  · have held := holds_after ha spared
    exact ⟨held.den, eq_div_of_mul_eq held.den held.value⟩
  · obtain ⟨m, pos, most, value, ended, before⟩ :=
      exists_settle (a := a) (b := b) (x := x) (m := 0) (show 0 < maxIterations by decide)
    simp only [settled_iff, Nat.zero_add] at ended before
    exact ⟨m, pos, most, value, ended, before⟩

theorem computes_convergents_of_quarter : (0 : Rat) < 2 ∧
    (∀ v ∈ guarded (2 : Rat) 3 (1 / 4) 1, guard v = v) ∧
    (after (2 : Rat) 3 (1 / 4) 1).value =
      (fraction 2 3 (1 / 4)).nums 4 / (fraction 2 3 (1 / 4)).dens 4 ∧
    (after (2 : Rat) 3 (1 / 4) 1).value = 392 / 237 := by
  have spared : ∀ v ∈ guarded (2 : Rat) 3 (1 / 4) 1, guard v = v := by decide +kernel
  obtain ⟨-, convergent, -⟩ := computes_convergents (a := 2) (b := 3) (x := 1 / 4) (by decide)
  exact ⟨by decide, spared, (convergent 1 spared).2, by decide +kernel⟩

end SchedulerLearning.Lentz

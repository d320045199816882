import SchedulerLearning.Scalar
import Mathlib.Algebra.Order.Field.Rat

/-!
# Arithmetic that shows a division by zero

Among rationals a quotient by zero is a number, and nothing shows that it was taken. Here it is
undefined, and so is every number computed from one that is. What is written over `Scalar` divides
by no zero if it has a number as its result here.
-/

namespace SchedulerLearning

/-- A number, or what a division by zero leaves. -/
inductive Checked
  | number (x : Rat)
  | undefined
  deriving DecidableEq

namespace Checked

def map (f : Rat → Rat) : Checked → Checked
  | number x => number (f x)
  | undefined => undefined

def map₂ (f : Rat → Rat → Rat) : Checked → Checked → Checked
  | number x, number y => number (f x y)
  | _, _ => undefined

def div : Checked → Checked → Checked
  | number x, number y => if y = 0 then undefined else number (x / y)
  | _, _ => undefined

def Compares (r : Rat → Rat → Prop) : Checked → Checked → Prop
  | number x, number y => r x y
  | _, _ => False

instance (r : Rat → Rat → Prop) [DecidableRel r] : DecidableRel (Compares r) := fun x y => by
  cases x <;> cases y <;> unfold Compares <;> infer_instance

instance : Scalar Checked where
  add := map₂ (· + ·)
  sub := map₂ (· - ·)
  mul := map₂ (· * ·)
  div := div
  neg := map (-·)
  lt := Compares (· < ·)
  le := Compares (· ≤ ·)
  natCast n := number n
  ofScientific m s e := number (OfScientific.ofScientific m s e)
  decLt := inferInstanceAs (DecidableRel (Compares (· < ·)))
  decLe := inferInstanceAs (DecidableRel (Compares (· ≤ ·)))
  isNaN x := x = undefined
  isFinite x := x ≠ undefined

variable {x y : Rat}

@[simp] theorem number_add : number x + number y = number (x + y) := rfl

@[simp] theorem number_sub : number x - number y = number (x - y) := rfl

@[simp] theorem number_mul : number x * number y = number (x * y) := rfl

@[simp] theorem number_neg : -number x = number (-x) := rfl

@[simp] theorem number_div (h : y ≠ 0) : number x / number y = number (x / y) := if_neg h

example : number 1 / number 0 + number 2 = undefined := by decide

@[simp] theorem number_lt : number x < number y ↔ x < y := Iff.rfl

@[simp] theorem natCast_eq (n : Nat) : (n : Checked) = number n := rfl

@[simp] theorem ofNat_eq (n : Nat) : (OfNat.ofNat n : Checked) = number (OfNat.ofNat n) := rfl

@[simp] theorem ofScientific_eq (m : Nat) (s : Bool) (e : Nat) :
    (OfScientific.ofScientific m s e : Checked) = number (OfScientific.ofScientific m s e) := rfl

@[simp] theorem abs_number : Scalar.abs (number x) = number (Scalar.abs x) := by
  have sign : number x < 0 ↔ x < (Nat.cast 0 : Rat) := Iff.rfl
  unfold Scalar.abs
  split
  · next neg => exact congrArg number (if_pos (sign.mp neg)).symm
  · next pos => exact congrArg number (if_neg (mt sign.mpr pos)).symm

end Checked

end SchedulerLearning

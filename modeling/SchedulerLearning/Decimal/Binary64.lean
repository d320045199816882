/-!
# Binary floating-point values as exact fractions

A finite `Float` is a sign and a fraction of natural numbers; this is where the printers and
the rounding of the library start, so that they compute in exact arithmetic only.
-/

namespace SchedulerLearning.Decimal

/-- A magnitude `numerator / denominator`. -/
structure Magnitude where
  numerator : Nat
  denominator : Nat
  deriving Repr, DecidableEq

/-- `significand * 2 ^ exponent`. -/
def Magnitude.ofDyadic (significand : Nat) (exponent : Int) : Magnitude :=
  ⟨significand * Nat.pow 2 exponent.toNat, Nat.pow 2 (-exponent).toNat⟩

/-- `significand * 10 ^ exponent`. -/
def Magnitude.ofDecimal (significand : Nat) (exponent : Int) : Magnitude :=
  ⟨significand * Nat.pow 10 exponent.toNat, Nat.pow 10 (-exponent).toNat⟩

def Magnitude.le (a b : Magnitude) : Bool :=
  a.numerator * b.denominator ≤ b.numerator * a.denominator

def Magnitude.lt (a b : Magnitude) : Bool :=
  a.numerator * b.denominator < b.numerator * a.denominator

inductive Binary64
  | notANumber
  | infinite (negative : Bool)
  /-- `significand * 2 ^ exponent`. The value just below lies half as far as the one above
  if `narrow` holds. -/
  | finite (negative : Bool) (significand : Nat) (exponent : Int) (narrow : Bool)
  deriving Repr, DecidableEq

namespace Binary64

/-- The fields of the format: one sign bit, eleven exponent bits, 52 fraction bits. -/
def ofBits (bits : Nat) : Binary64 :=
  let negative := bits.testBit 63
  let biased := bits / Nat.pow 2 52 % Nat.pow 2 11
  let fraction := bits % Nat.pow 2 52
  if biased = 2047 then
    if fraction = 0 then .infinite negative else .notANumber
  else if biased = 0 then
    .finite negative fraction (-1074) false
  else
    .finite negative (Nat.pow 2 52 + fraction) ((Int.ofNat biased) - 1075) (fraction = 0 && biased ≠ 1)

def ofFloat (x : Float) : Binary64 := ofBits x.toBits.toNat

end Binary64

def digitCount (n : Nat) : Nat := if n = 0 then 0 else (Nat.toDigits 10 n).length

/-- The decimal exponent of the leading digit: `10 ^ p ≤ a < 10 ^ (p + 1)` for the result
`p` and a positive magnitude `a`. -/
def Magnitude.leading (a : Magnitude) : Int :=
  if a.denominator ≤ a.numerator then
    (digitCount (a.numerator / a.denominator) : Int) - 1
  else
    let d := digitCount (a.denominator / a.numerator)
    if a.numerator * Nat.pow 10 (d - 1) = a.denominator then -((d : Int) - 1) else -(d : Int)

end SchedulerLearning.Decimal

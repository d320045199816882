import SchedulerLearning.Decimal.Layout

/-!
# Rounding to decimal places

The exact value of a binary number rounded to a decimal grid, a tie to the even neighbour:
to a fixed number of places for reports, or to a number of significant digits.
-/

namespace SchedulerLearning.Decimal

/-- The whole number nearest to `numerator / denominator`, of two equally near the even one. -/
def roundDiv (numerator denominator : Nat) : Nat :=
  let below := numerator / denominator
  let rest := 2 * (numerator % denominator)
  if rest < denominator then below
  else if denominator < rest then below + 1
  else if below % 2 = 0 then below else below + 1

def Magnitude.roundTo (a : Magnitude) (exponent : Int) : Numeral :=
  let scaled := a.scaled exponent
  ⟨roundDiv scaled.numerator scaled.denominator, exponent⟩

/-- The text of a number with exactly `places` digits after the point. -/
def fixed (places : Nat) (x : Float) : String :=
  match Binary64.ofFloat x with
  | .notANumber => "NaN"
  | .infinite negative => if negative then "-inf" else "inf"
  | .finite negative significand exponent _ =>
    let n := (Magnitude.ofDyadic significand exponent).roundTo (-(places : Int))
    let text := n.positional places
    if negative then "-" ++ text else text

def Numeral.toFloat (n : Numeral) : Float :=
  if 0 ≤ n.exponent then Float.ofScientific (n.digits * Nat.pow 10 n.exponent.toNat) false 0
  else Float.ofScientific n.digits true (-n.exponent).toNat

private def withSign (negative : Bool) (x : Float) : Float := if negative then -x else x

def roundSignificant (count : Nat) (x : Float) : Float :=
  match Binary64.ofFloat x with
  | .finite negative significand exponent _ =>
    if significand = 0 then x
    else
      let a := Magnitude.ofDyadic significand exponent
      withSign negative (a.roundTo (a.leading - count + 1)).toFloat
  | _ => x

def roundPlaces (places : Nat) (x : Float) : Float :=
  match Binary64.ofFloat x with
  | .finite negative significand exponent _ =>
    withSign negative ((Magnitude.ofDyadic significand exponent).roundTo (-(places : Int))).toFloat
  | _ => x

end SchedulerLearning.Decimal

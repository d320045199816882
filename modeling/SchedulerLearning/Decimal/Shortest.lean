import SchedulerLearning.Decimal.Binary64

/-!
# The shortest decimal that reads back

Among the decimals that a reader rounding to nearest takes for a given binary value, the
ones with fewest digits, and of these the nearest. Everything is decided in exact
arithmetic: the decimals in question form an interval around the value, and a decimal grid
meets the interval only if one of the value's two neighbours on the grid lies in it.
-/

namespace SchedulerLearning.Decimal

/-- `digits * 10 ^ exponent`, without trailing zeros in `digits`. -/
structure Numeral where
  digits : Nat
  exponent : Int
  deriving Repr, DecidableEq

/-- Moves the trailing zeros of the digits into the exponent, at most `fuel` of them. -/
def Numeral.trim : Nat → Numeral → Numeral
  | 0, n => n
  | fuel + 1, n =>
    if n.digits ≠ 0 ∧ n.digits % 10 = 0 then trim fuel ⟨n.digits / 10, n.exponent + 1⟩ else n

/-- The decimals read as one binary value; the ends belong to it if `closed` holds. -/
structure Interval where
  low : Magnitude
  high : Magnitude
  closed : Bool

/-- Half way to the neighbours of `significand * 2 ^ exponent`. A tie is read as the value
with the even significand. -/
def Interval.around (significand : Nat) (exponent : Int) (narrow : Bool) : Interval where
  low := .ofDyadic (4 * significand - if narrow then 1 else 2) (exponent - 2)
  high := .ofDyadic (4 * significand + 2) (exponent - 2)
  closed := significand % 2 = 0

def Interval.holds (i : Interval) (a : Magnitude) : Bool :=
  if i.closed then i.low.le a && a.le i.high else i.low.lt a && a.lt i.high

def Magnitude.scaled (a : Magnitude) (exponent : Int) : Magnitude :=
  ⟨a.numerator * Nat.pow 10 (-exponent).toNat, a.denominator * Nat.pow 10 exponent.toNat⟩

/-- The decimal of the interval on the grid of multiples of `10 ^ exponent` that is nearest
to `value`, the upper one of two equally near. -/
def Interval.onGrid? (i : Interval) (value : Magnitude) (exponent : Int) : Option Nat :=
  let v := value.scaled exponent
  let below := v.numerator / v.denominator
  let lower := i.holds (.ofDecimal below exponent)
  let upper := i.holds (.ofDecimal (below + 1) exponent)
  if lower && upper then
    some (if 2 * v.numerator < (2 * below + 1) * v.denominator then below else below + 1)
  else if lower then some below
  else if upper then some (below + 1)
  else none

/-- Tries ever finer grids; seventeen digits suffice for every value of the format. -/
def shortestFrom (i : Interval) (value : Magnitude) (exponent : Int) : Nat → Numeral
  | 0 => ⟨(value.scaled exponent).numerator / (value.scaled exponent).denominator, exponent⟩
  | more + 1 =>
    match i.onGrid? value exponent with
    | some digits => ⟨digits, exponent⟩
    | none => shortestFrom i value (exponent - 1) more

/-- The shortest decimal read as `significand * 2 ^ exponent`. -/
def shortest (significand : Nat) (exponent : Int) (narrow : Bool) : Numeral :=
  if significand = 0 then ⟨0, 0⟩
  else
    let value := Magnitude.ofDyadic significand exponent
    (shortestFrom (.around significand exponent narrow) value value.leading 17).trim 20

end SchedulerLearning.Decimal

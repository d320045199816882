import SchedulerLearning.Decimal.Shortest

/-!
# How numbers are written

Two layouts of the shortest decimal. `plain` is used inside texts: positional at every
size, a whole number without a point. `exact` is used for data: a point always, and an
exponent for values below `1e-4` or from `1e16` on.
-/

namespace SchedulerLearning.Decimal

/-- Positional notation of `n`, with at least `places` digits after the point. -/
def Numeral.positional (n : Numeral) (places : Nat) : String :=
  let text := toString n.digits
  if 0 ≤ n.exponent then
    let whole := text ++ "".pushn '0' (if n.digits = 0 then 0 else n.exponent.toNat)
    if places = 0 then whole else whole ++ "." ++ "".pushn '0' places
  else
    let decimals := (-n.exponent).toNat
    let padded := "".pushn '0' (decimals + 1 - text.length) ++ text
    let point := padded.length - decimals
    let fraction := (padded.drop point).toString
    (padded.take point).toString ++ "." ++ fraction ++ "".pushn '0' (places - fraction.length)

/-- One digit before the point, and an exponent without padding or plus sign. -/
def Numeral.scientific (n : Numeral) : String :=
  let text := toString n.digits
  let exponent := n.exponent + (text.length : Int) - 1
  let rest := (text.drop 1).toString
  let point := if rest.isEmpty then "" else "." ++ rest
  (text.take 1).toString ++ point ++ "e" ++ toString exponent

def Numeral.leading (n : Numeral) : Int :=
  n.exponent + ((toString n.digits).length : Int) - 1

private def signed (negative : Bool) (text : String) : String :=
  if negative then "-" ++ text else text

/-- The text of a number in messages and reports. -/
def plain (x : Float) : String :=
  match Binary64.ofFloat x with
  | .notANumber => "NaN"
  | .infinite negative => signed negative "inf"
  | .finite negative significand exponent narrow =>
    signed negative ((shortest significand exponent narrow).positional 0)

/-- The text of a number in data, from which the same number is read back. -/
def exact (x : Float) : String :=
  match Binary64.ofFloat x with
  | .notANumber => "NaN"
  | .infinite negative => signed negative "inf"
  | .finite negative significand exponent narrow =>
    let n := shortest significand exponent narrow
    let plainly := n.digits = 0 || (-4 ≤ n.leading && n.leading < 16)
    signed negative (if plainly then n.positional 1 else n.scientific)

end SchedulerLearning.Decimal

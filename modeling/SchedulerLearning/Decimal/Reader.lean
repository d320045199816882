import SchedulerLearning.Word

/-!
# Reading numbers

The two number grammars of model files and of the command line. Neither allows blanks or
separators.
-/

namespace SchedulerLearning.Decimal

/-- The value of a decimal digit; only the ASCII digits count. -/
def digit? (c : Char) : Option Nat := if c.isDigit then some (c.toNat - '0'.toNat) else none

/-- The value of a run of digits read after `value`, `none` at any other character. -/
def digits? (value : Nat) : List Char → Option Nat
  | [] => some value
  | c :: rest => (digit? c).bind fun d => digits? (10 * value + d) rest

/-- A size: digits behind an optional plus sign, at least one, with a value below `2 ^ 64`. -/
def size? (text : List Char) : Option Nat :=
  let digits := if text.head? = some '+' then text.tail else text
  if digits.isEmpty then none else (digits? 0 digits).filter (· < Word.size)

/-- An integer: digits behind an optional sign, at least one, in the signed 64-bit range. -/
def integer? (text : List Char) : Option Int :=
  let negative := text.head? = some '-'
  let digits := if negative || text.head? = some '+' then text.tail else text
  if digits.isEmpty then none
  else
    (digits? 0 digits).bind fun n =>
      let value := if negative then -(n : Int) else n
      if Word.InRange value then some value else none

/-- The number nearest to `digits * 10 ^ exponent`. Exponents that only zero or infinity
can result from are cut off before any power is formed. -/
def nearest (digits : Nat) (exponent : Int) : Float :=
  if digits = 0 then 0
  else
    let leading := exponent + ((Nat.toDigits 10 digits).length : Int)
    if 400 < leading then 1 / 0
    else if leading < -400 then 0
    else if 0 ≤ exponent then Float.ofScientific (digits * Nat.pow 10 exponent.toNat) false 0
    else Float.ofScientific digits true (-exponent).toNat

/-- The exponent behind a mantissa: nothing, or `e`, an optional sign and digits. -/
def exponent? : List Char → Option Int
  | [] => some 0
  | c :: rest =>
    if c = 'e' ∨ c = 'E' then
      let negative := rest.head? = some '-'
      let digits := if negative || rest.head? = some '+' then rest.tail else rest
      if digits.isEmpty then none
      else (digits? 0 digits).map fun n => if negative then -(n : Int) else n
    else none

/-- An unsigned number: the words for infinity and no number in any case, or digits with an
optional point, at least one digit, and an optional exponent. -/
def magnitude? (text : List Char) : Option Float :=
  let word := text.map Char.toLower
  if word = "inf".toList ∨ word = "infinity".toList then some (1 / 0)
  else if word = "nan".toList then some (0 / 0)
  else
    let whole := text.takeWhile Char.isDigit
    let rest := text.dropWhile Char.isDigit
    let behind := if rest.head? = some '.' then rest.tail else []
    let fraction := behind.takeWhile Char.isDigit
    let rest := if rest.head? = some '.' then behind.dropWhile Char.isDigit else rest
    if whole.isEmpty && fraction.isEmpty then none
    else do
      let digits ← digits? 0 (whole ++ fraction)
      let exponent ← exponent? rest
      return nearest digits (exponent - fraction.length)

def number? (text : List Char) : Option Float :=
  match text with
  | '-' :: rest => (magnitude? rest).map (-·)
  | '+' :: rest => magnitude? rest
  | _ => magnitude? text

end SchedulerLearning.Decimal

/-!
# Scalars

The arithmetic that probabilities, reward shares and Bayes factors are computed in. Every
numeric definition of the library is written once, over `Scalar`. Programs evaluate it on
`Float`; statements in exact arithmetic read it on `Rat` or on the real numbers.
-/

namespace SchedulerLearning

/-- Arithmetic, comparisons and decimal constants. No law is assumed: on `Float` two
values may be incomparable, and sums depend on their order. -/
class Scalar (α : Type) extends Add α, Sub α, Mul α, Div α, Neg α, LT α, LE α, BEq α,
    NatCast α, OfScientific α where
  decLt : DecidableRel (α := α) (· < ·)
  decLe : DecidableRel (α := α) (· ≤ ·)
  /-- Whether the value is no number at all. -/
  isNaN : α → Bool
  isFinite : α → Bool

namespace Scalar

attribute [reducible, instance] decLt decLe

instance (priority := low) {α : Type} [Scalar α] {n : Nat} : OfNat α n := ⟨Nat.cast n⟩

instance : NatCast Float := ⟨Float.ofNat⟩

instance : Scalar Float where
  decLt := Float.decLt
  decLe := Float.decLe
  isNaN := Float.isNaN
  isFinite := Float.isFinite

instance : Scalar Rat where
  decLt := inferInstance
  decLe := inferInstance
  isNaN _ := false
  isFinite _ := true

variable {α : Type} [Scalar α]

@[inline] def abs (x : α) : α := if x < 0 then -x else x

/-- `x` held between zero and one. A value that compares with neither bound stays. -/
@[inline] def clampUnit (x : α) : α := if x < 0 then 0 else if 1 < x then 1 else x

/-- The sum from the left. On floating point the neutral start is `-0`, so that a list
of negative zeros keeps its sign. -/
@[specialize] def sum (xs : List α) : α := xs.foldl (· + ·) (-0)

end Scalar

end SchedulerLearning

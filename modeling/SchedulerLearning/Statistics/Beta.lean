import SchedulerLearning.Scalar
import SchedulerLearning.Statistics.Error
import SchedulerLearning.Statistics.LogGamma

/-!
# The Beta distribution

The cumulative distribution is the regularised incomplete beta function: a front factor
times a continued fraction, evaluated by the modified Lentz method on whichever side of the
mean it converges faster, and reflected from there to the other side.
-/

namespace SchedulerLearning

/-- The functions that the cumulative distribution takes from analysis. -/
structure SpecialFunctions (α : Type) where
  ln : α → α
  exp : α → α
  logGamma : α → α

def SpecialFunctions.float : SpecialFunctions Float := ⟨Float.log, Float.exp, SchedulerLearning.logGamma⟩

structure Beta (α : Type) where
  alpha : α
  beta : α
  deriving Repr

abbrev Cumulative (α : Type) := Beta α → α → α

/-- One iteration's state of the modified Lentz method: the ratios of successive numerators
and denominators, the value reached, and the last factor it was multiplied by. -/
structure Lentz (α : Type) where
  c : α
  d : α
  value : α
  factor : α

variable {α : Type} [Scalar α]

namespace Lentz

/-- Keeps a divisor away from zero. -/
@[inline] def guard (v : α) : α := if Scalar.abs v < 1e-300 then 1e-300 else v

@[inline] def start (a b x : α) : Lentz α :=
  let d := 1 / guard (1 - (a + b) * x / (a + 1))
  ⟨1, d, d, d⟩

@[inline] def next (a b x m : α) (s : Lentz α) : Lentz α :=
  let m2 := 2 * m
  let e := m * (b - m) * x / ((a - 1 + m2) * (a + m2))
  let d := 1 / guard (1 + e * s.d)
  let c := guard (1 + e / s.c)
  let value := s.value * (d * c)
  let e := -(a + m) * (a + b + m) * x / ((a + m2) * (a + 1 + m2))
  let d := 1 / guard (1 + e * d)
  let c := guard (1 + e / c)
  let factor := d * c
  ⟨c, d, value * factor, factor⟩

@[inline] def settled (s : Lentz α) : Bool := Scalar.abs (s.factor - 1) < 1e-15

def after (a b x : α) : Nat → Lentz α
  | 0 => start a b x
  | m + 1 => (after a b x m).next a b x (m + 1 : Nat)

/-- Iterates from `s`, the state after `m` iterations, at most `left` times more. -/
@[specialize] def settle (a b x : α) : (left m : Nat) → Lentz α → α
  | 0, _, s => s.value
  | left + 1, m, s =>
    let s := s.next a b x (m + 1 : Nat)
    if s.settled then s.value else settle a b x left (m + 1) s

end Lentz

/-- The most iterations of the continued fraction. It settles after about the square root of
the larger shape parameter. -/
def maxIterations : Nat := 20000

@[specialize] def continuedFraction (a b x : α) : α :=
  (Lentz.start a b x).settle a b x maxIterations 0

namespace Beta

@[specialize] def of (alpha beta : α) : Except (StatsError α) (Beta α) :=
  if Scalar.isFinite alpha && Scalar.isFinite beta && 0 < alpha && 0 < beta then .ok ⟨alpha, beta⟩
  else .error (.invalidBeta alpha beta)

def mean (d : Beta α) : α := d.alpha / (d.alpha + d.beta)

@[specialize] def logBeta (f : SpecialFunctions α) (d : Beta α) : α :=
  f.logGamma d.alpha + f.logGamma d.beta - f.logGamma (d.alpha + d.beta)

/-- `x ^ alpha * (1 - x) ^ beta / B(alpha, beta)`. -/
@[specialize] def front (f : SpecialFunctions α) (d : Beta α) (x : α) : α :=
  f.exp (d.alpha * f.ln x + d.beta * f.ln (1 - x) - d.logBeta f)

/-- The point that divides the sides on which the continued fraction converges fast. -/
@[specialize] def split (d : Beta α) : α := (d.alpha + 1) / (d.alpha + d.beta + 2)

@[specialize] def cdf (f : SpecialFunctions α) : Cumulative α := fun d x =>
  if Scalar.isNaN x then x
  else if x ≤ 0 then 0
  else if 1 ≤ x then 1
  else
    let front := d.front f x
    Scalar.clampUnit <|
      if x < d.split then front * continuedFraction d.alpha d.beta x / d.alpha
      else 1 - front * continuedFraction d.beta d.alpha (1 - x) / d.beta

@[specialize] def massBetween (cdf : Cumulative α) (d : Beta α) (low high : α) : α :=
  let mass := cdf d high - cdf d low
  if 0 < mass then mass else 0

def floatCdf : Cumulative Float := cdf .float

end Beta

end SchedulerLearning

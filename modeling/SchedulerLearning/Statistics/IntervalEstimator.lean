import SchedulerLearning.Statistics.Beta

/-!
# Sequential interval estimation

Estimates the success probability of a stream of verdicts to within a half-width, and stops
once the posterior puts enough of its mass into the interval.
-/

namespace SchedulerLearning

variable {α : Type} [Scalar α]

/-- The interval of half-width `delta` around `p`, shifted into `[0, 1]` with its width kept. -/
def credibleInterval (p delta : α) : α × α :=
  if 1 < p + delta then (1 - 2 * delta, 1)
  else if p - delta < 0 then (0, 2 * delta)
  else (p - delta, p + delta)

structure Estimate (α : Type) where
  /-- The mean of the posterior. -/
  p : α
  lower : α
  upper : α
  /-- The posterior probability of the interval. -/
  mass : α
  satisfied : Nat
  traces : Nat
  deriving Repr

structure IntervalEstimator (α : Type) where
  alpha : α
  beta : α
  delta : α
  coefficient : α
  traces : Nat
  satisfied : Nat
  deriving Repr

namespace IntervalEstimator

def start (alpha beta delta coefficient : α) : Except (StatsError α) (IntervalEstimator α) := do
  let _ ← Beta.of alpha beta
  unless 0 < delta && delta ≤ 0.5 do throw (.invalidParameter .delta delta)
  unless 0 < coefficient && coefficient < 1 do
    throw (.invalidParameter .coefficient coefficient)
  return { alpha, beta, delta, coefficient, traces := 0, satisfied := 0 }

/-- The posterior probability of an interval; none if the verdicts have no posterior. -/
def mass (cdf : Cumulative α) (e : IntervalEstimator α) (lower upper : α) : α :=
  match Beta.of ((e.satisfied : α) + e.alpha) (((e.traces - e.satisfied : Nat) : α) + e.beta) with
  | .ok posterior => posterior.massBetween cdf lower upper
  | .error _ => 0

def estimate (cdf : Cumulative α) (e : IntervalEstimator α) : Estimate α :=
  let p := ((e.satisfied : α) + e.alpha) / ((e.traces : α) + e.alpha + e.beta)
  let (lower, upper) := credibleInterval p e.delta
  { p, lower, upper, mass := e.mass cdf lower upper, satisfied := e.satisfied, traces := e.traces }

def record (e : IntervalEstimator α) (verdict : Bool) : IntervalEstimator α :=
  { e with
    traces := e.traces + 1
    satisfied := if verdict then e.satisfied + 1 else e.satisfied }

/-- Takes one verdict, and answers with the estimate unless its mass is below the coefficient. -/
def observe (cdf : Cumulative α) (e : IntervalEstimator α) (verdict : Bool) :
    IntervalEstimator α × Option (Estimate α) :=
  let e := e.record verdict
  let estimate := e.estimate cdf
  (e, if estimate.mass < e.coefficient then none else some estimate)

end IntervalEstimator

namespace Estimate

/-- The estimate, the ends of the interval, satisfied and all verdicts. -/
def csv (r : Estimate Float) : String :=
  ", ".intercalate
    [Decimal.plain r.p, Decimal.plain r.lower, Decimal.plain r.upper, toString r.satisfied,
      toString r.traces]

def lines (r : Estimate Float) : List String :=
  ["*** Interval Estimation Results ***",
    s!" - Estimate: {Decimal.plain r.p}",
    s!" - Interval: [{Decimal.plain r.lower}, {Decimal.plain r.upper}] with posterior probability " ++
      Decimal.plain r.mass,
    s!" - Number of satisfied traces/total number of traces: {r.satisfied}/{r.traces}"]

end Estimate

end SchedulerLearning

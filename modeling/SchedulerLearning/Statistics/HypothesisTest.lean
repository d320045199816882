import SchedulerLearning.Statistics.Beta

/-!
# The sequential Bayes factor test

Decides between `p ≤ theta` and `p > theta` for the success probability `p` of a stream of
verdicts under a Beta prior. The test stops once the Bayes factor in favour of the second
hypothesis is above `T` or below `1 / T`, or once the budget of verdicts is spent. The
cumulative distribution functions are a parameter of every definition.
-/

namespace SchedulerLearning

variable {α : Type} [Scalar α]

/-- The odds of `p ≤ theta` against `p > theta` before any verdict. -/
@[specialize] def priorOdds (cdf : Cumulative α) (alpha beta theta : α) : Except (StatsError α) α := do
  let p := cdf (← Beta.of alpha beta) theta
  return p / (1 - p)

/-- The Bayes factor in favour of `p > theta` after `satisfied` and `failed` verdicts. -/
@[specialize] def bayesFactor (cdf : Cumulative α) (priorOdds alpha beta theta : α) (satisfied failed : Nat) :
    Except (StatsError α) α := do
  let posterior ← Beta.of ((satisfied : α) + alpha) ((failed : α) + beta)
  return priorOdds * (1 / cdf posterior theta - 1)

inductive Hypothesis
  /-- `p ≤ theta` -/
  | null
  /-- `p > theta` -/
  | alternative
  deriving Repr, DecidableEq

structure TestResult (α : Type) where
  factor : α
  accepted : Hypothesis
  satisfied : Nat
  traces : Nat
  deriving Repr

structure HypothesisTest (α : Type) where
  theta : α
  threshold : α
  alpha : α
  beta : α
  priorOdds : α
  /-- No decision before this many verdicts. -/
  minTraces : Nat
  /-- A decision at the latest with this many verdicts. -/
  maxTraces : Nat
  traces : Nat
  satisfied : Nat
  deriving Repr

namespace HypothesisTest

@[specialize] def start (cdf : Cumulative α) (theta threshold alpha beta : α) (minTraces maxTraces : Nat) :
    Except (StatsError α) (HypothesisTest α) := do
  unless 0 < theta && theta < 1 do throw (.invalidParameter .theta theta)
  unless 1 ≤ threshold && Scalar.isFinite threshold do
    throw (.invalidParameter .threshold threshold)
  if maxTraces = 0 then throw (.invalidParameter .maxTraces 0)
  let priorOdds ← SchedulerLearning.priorOdds cdf alpha beta theta
  return {
    theta, threshold, alpha, beta, priorOdds
    minTraces := min minTraces maxTraces
    maxTraces
    traces := 0
    satisfied := 0 }

/-- The Bayes factor for the verdicts so far; no number if they have no posterior. -/
@[specialize] def factor (cdf : Cumulative α) (t : HypothesisTest α) : α :=
  match bayesFactor cdf t.priorOdds t.alpha t.beta t.theta t.satisfied (t.traces - t.satisfied) with
  | .ok factor => factor
  | .error _ => 0 / 0

def record (t : HypothesisTest α) (verdict : Bool) : HypothesisTest α :=
  { t with
    traces := t.traces + 1
    satisfied := if verdict then t.satisfied + 1 else t.satisfied }

/-- The hypothesis that a Bayes factor settles on, `none` to go on. With the budget spent, a
factor above one settles on the alternative and any other on the null hypothesis. -/
@[specialize] def settles? (t : HypothesisTest α) (factor : α) : Option Hypothesis :=
  let exhausted := t.maxTraces ≤ t.traces
  if t.threshold < factor ∨ exhausted ∧ 1 < factor then some .alternative
  else if factor < 1 / t.threshold ∨ exhausted then some .null
  else none

@[specialize] def decision? (cdf : Cumulative α) (t : HypothesisTest α) : Option (TestResult α) :=
  if t.traces < t.minTraces then none
  else
    let factor := t.factor cdf
    (t.settles? factor).map fun accepted =>
      { factor, accepted, satisfied := t.satisfied, traces := t.traces }

@[specialize] def observe (cdf : Cumulative α) (t : HypothesisTest α) (verdict : Bool) :
    HypothesisTest α × Option (TestResult α) :=
  let t := t.record verdict
  (t, t.decision? cdf)

end HypothesisTest

namespace TestResult

def nullAccepted (r : TestResult α) : Bool := r.accepted = .null

/-- Whether the null hypothesis is accepted, the Bayes factor, satisfied and all verdicts. -/
def csv (r : TestResult Float) : String :=
  ", ".intercalate
    [if r.nullAccepted then "1" else "0", Decimal.plain r.factor, toString r.satisfied,
      toString r.traces]

def lines (r : TestResult Float) : List String :=
  ["*** Hypothesis Testing Results ***",
    " - Accepted: " ++ (if r.nullAccepted then "NULL" else "ALTERNATIVE") ++ " hypothesis",
    s!" - Bayes Factor of: {Decimal.plain r.factor}",
    s!" - Number of satisfied traces/total number of traces: {r.satisfied}/{r.traces}"]

end TestResult

end SchedulerLearning

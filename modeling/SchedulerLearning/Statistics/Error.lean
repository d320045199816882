import SchedulerLearning.Decimal.Layout

/-!
# Parameters a statistic refuses
-/

namespace SchedulerLearning

inductive Parameter
  | theta
  | threshold
  | maxTraces
  | delta
  | coefficient
  deriving Repr, DecidableEq

def Parameter.name : Parameter → String
  | .theta => "theta"
  | .threshold => "T"
  | .maxTraces => "max_traces"
  | .delta => "delta"
  | .coefficient => "coefficient"

def Parameter.requirement : Parameter → String
  | .theta => "must lie strictly between 0 and 1"
  | .threshold => "must be a finite Bayes factor of at least 1"
  | .maxTraces => "must be positive"
  | .delta => "half-width must lie in (0, 0.5]"
  | .coefficient => "must lie strictly between 0 and 1"

inductive StatsError (α : Type)
  | invalidBeta (alpha beta : α)
  | invalidParameter (parameter : Parameter) (value : α)
  deriving Repr

def StatsError.message : StatsError Float → String
  | .invalidBeta alpha beta =>
    "Beta distribution parameters must be finite and positive (alpha=" ++ Decimal.plain alpha ++
      ", beta=" ++ Decimal.plain beta ++ ")"
  | .invalidParameter parameter value =>
    s!"invalid parameter {parameter.name}={Decimal.plain value}: {parameter.requirement}"

end SchedulerLearning

import SchedulerLearning.Decimal.Layout
import SchedulerLearning.Learning.Attribution
import SchedulerLearning.Learning.Update

/-!
# Configuration of a run

What a run of learning and checking is set up with, and the ranges its settings must have.
-/

namespace SchedulerLearning

inductive Method
  | testing
  | estimation
  deriving Repr, DecidableEq

namespace Method

def name : Method → String
  | .testing => "testing"
  | .estimation => "estimation"

def ofName? (text : String) : Option Method :=
  match text.toLower with
  | "testing" | "ht" => some .testing
  | "estimation" | "ie" => some .estimation
  | _ => none

end Method

structure Config where
  /-- The number of workers; zero stands for all that the machine has. -/
  workers : Nat := 1
  tracesPerBlock : Nat := 2000
  blocks : Nat := 30
  /-- The most jobs that a worker claims at once. -/
  jobsPerRequest : Nat := 50
  /-- The jobs issued at once while checking. -/
  checkBatch : Nat := 100
  history : Float := 0.5
  epsilon : Float := 0.1
  /-- The Bayes factor above which learning ends early. -/
  learnThreshold : Float := 30
  /-- What the early test of learning adds to `theta`. -/
  iota : Float := 0.05
  /-- Whether learning may end early. -/
  bayesLearning : Bool := false
  /-- Whether checking takes the most likely choices instead of sampling. -/
  determinise : Bool := true
  rule : UpdateRule := .count
  attribution : Attribution := .uniform
  method : Method := .testing
  alpha : Float := 0.5
  beta : Float := 0.5
  theta : Float := 0.5
  threshold : Float := 1000
  minTraces : Nat := 500
  maxTraces : Nat := 100000
  /-- The half-width of the estimated interval. -/
  delta : Float := 0.01
  /-- The posterior probability asked of the interval. -/
  coefficient : Float := 0.95
  /-- Where the workers' seeds come from; without one, from the machine. -/
  seed : Option UInt64 := none
  /-- How many states the scheduler has room for from the start. -/
  schedulerCapacity : Nat := 500000
  /-- How many states the rewards have room for from the start. -/
  rewardCapacity : Nat := 1000
  deriving Repr

inductive Setting
  | tracesPerBlock
  | blocks
  | jobsPerRequest
  | checkBatch
  | history
  | epsilon
  | alpha
  | beta
  | theta
  | threshold
  | maxTraces
  | delta
  | coefficient
  | iota
  | learnThreshold
  deriving Repr, DecidableEq

def Setting.name : Setting → String
  | .tracesPerBlock => "traces_per_block"
  | .blocks => "num_blocks"
  | .jobsPerRequest => "jobs_per_request"
  | .checkBatch => "modelcheck_block_size"
  | .history => "history"
  | .epsilon => "epsilon"
  | .alpha => "alpha"
  | .beta => "beta"
  | .theta => "theta"
  | .threshold => "T"
  | .maxTraces => "max_traces"
  | .delta => "delta"
  | .coefficient => "coefficient"
  | .iota => "iota"
  | .learnThreshold => "learn_t"

inductive Objection
  | zero
  | outsideUnit (value : Float)
  | notPositive (value : Float)
  | notInsideUnit (value : Float)
  | belowOne (value : Float)
  | noHalfWidth (value : Float)
  | negative (value : Float)
  /-- The threshold of the learning test is not below one. -/
  | noRoom (theta : Float)
  deriving Repr

def Objection.message : Objection → String
  | .zero => "must be positive"
  | .outsideUnit value => Decimal.plain value ++ " is outside [0, 1]"
  | .notPositive value => Decimal.plain value ++ " is not a positive number"
  | .notInsideUnit value => Decimal.plain value ++ " is not strictly between 0 and 1"
  | .belowOne value => Decimal.plain value ++ " is below 1"
  | .noHalfWidth value => Decimal.plain value ++ " is outside (0, 0.5]"
  | .negative value => Decimal.plain value ++ " is negative"
  | .noRoom theta =>
    "theta + iota = " ++ Decimal.plain theta ++ " leaves no room for the learning test"

inductive ConfigError
  | unknownRule (text : String)
  | unknownAttribution (text : String)
  | unknownMethod (text : String)
  | invalid (setting : Setting) (objection : Objection)
  deriving Repr

def ConfigError.message : ConfigError → String
  | .unknownRule text =>
    s!"unknown policy update '{text}' (expected count, compcount, success, epsilon or epcount)"
  | .unknownAttribution text =>
    s!"unknown reward method '{text}' (expected uniform, lastaction or decay)"
  | .unknownMethod text =>
    s!"unknown checking method '{text}' (expected testing or estimation)"
  | .invalid setting objection => s!"invalid {setting.name}: {objection.message}"

def UpdateRule.ofName (text : String) : Except ConfigError UpdateRule :=
  (UpdateRule.ofName? text).elim (.error (.unknownRule text)) .ok

def Attribution.ofName (text : String) : Except ConfigError Attribution :=
  (Attribution.ofName? text).elim (.error (.unknownAttribution text)) .ok

def Method.ofName (text : String) : Except ConfigError Method :=
  (Method.ofName? text).elim (.error (.unknownMethod text)) .ok

namespace Config

/-- The number of workers on a machine that runs so many threads at once. -/
def threads (c : Config) (parallelism : Nat) : Nat :=
  if c.workers = 0 then parallelism else c.workers

def weights (c : Config) : UpdateWeights Float := ⟨c.history, c.epsilon⟩

/-- The threshold of the early test of learning, at most one. -/
def learnTheta (c : Config) : Float :=
  let theta := c.theta + c.iota
  if theta < 1 then theta else 1

def require (setting : Setting) (objection : Objection) (condition : Bool) : Except ConfigError Unit :=
  if condition then .ok () else .error (.invalid setting objection)

/-- The first setting out of range. Comparisons are such that no number is in no range. -/
def validate (c : Config) : Except ConfigError Unit := do
  require .tracesPerBlock .zero (c.tracesPerBlock ≠ 0)
  require .blocks .zero (c.blocks ≠ 0)
  require .jobsPerRequest .zero (c.jobsPerRequest ≠ 0)
  require .checkBatch .zero (c.checkBatch ≠ 0)
  require .history (.outsideUnit c.history) (0 ≤ c.history && c.history ≤ 1)
  require .epsilon (.outsideUnit c.epsilon) (0 ≤ c.epsilon && c.epsilon ≤ 1)
  require .alpha (.notPositive c.alpha) (0 < c.alpha && c.alpha.isFinite)
  require .beta (.notPositive c.beta) (0 < c.beta && c.beta.isFinite)
  require .theta (.notInsideUnit c.theta) (0 < c.theta && c.theta < 1)
  require .threshold (.belowOne c.threshold) (1 ≤ c.threshold && c.threshold.isFinite)
  require .maxTraces .zero (c.maxTraces ≠ 0)
  require .delta (.noHalfWidth c.delta) (0 < c.delta && c.delta ≤ 0.5)
  require .coefficient (.notInsideUnit c.coefficient) (0 < c.coefficient && c.coefficient < 1)
  if c.bayesLearning then
    require .iota (.negative c.iota) (0 ≤ c.iota)
    require .iota (.noRoom (c.theta + c.iota)) !(1 ≤ c.learnTheta)
    require .learnThreshold (.belowOne c.learnThreshold)
      (1 ≤ c.learnThreshold && c.learnThreshold.isFinite)

end Config

end SchedulerLearning

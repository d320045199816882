import SchedulerLearning.Learning.Config
import SchedulerLearning.Model.Error
import SchedulerLearning.Statistics.Error

/-!
# What a run may be refused for
-/

namespace SchedulerLearning

inductive LearnError
  | config (error : ConfigError)
  | stats (error : StatsError Float)
  /-- The first failure that a worker reported. -/
  | workerFailed (error : ModelError Float)
  | notRunning
  | stopped
  | alreadyRunning
  deriving Repr

def LearnError.message : LearnError → String
  | .config error => error.message
  | .stats error => error.message
  | .workerFailed error => "worker failed: " ++ error.message
  | .notRunning => "worker pool is not running"
  | .stopped => "worker pool was stopped"
  | .alreadyRunning => "worker pool is already running"

end SchedulerLearning

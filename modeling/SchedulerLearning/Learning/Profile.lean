import SchedulerLearning.Decimal.Rounding

/-!
# Time profiles

How long the phases of a run took. Durations are whole nanoseconds.
-/

namespace SchedulerLearning

structure WorkerProfile where
  simulating : Nat := 0
  checking : Nat := 0
  rewarding : Nat := 0
  /-- The number of jobs done. -/
  traces : Nat := 0
  deriving Repr, DecidableEq

structure RunProfile where
  threadStart : Nat := 0
  learning : Nat := 0
  policyUpdate : Nat := 0
  determinise : Nat := 0
  checking : Nat := 0
  /-- The phases of the workers' jobs, averaged over the workers. -/
  averageSimulating : Nat := 0
  averageChecking : Nat := 0
  averageRewarding : Nat := 0
  total : Nat := 0
  policyStates : Nat := 0
  deriving Repr, DecidableEq

/-- A duration in seconds: whole seconds and the rest converted separately. -/
def seconds (nanos : Nat) : Float :=
  (nanos / 1000000000).toFloat + (nanos % 1000000000).toFloat / 1000000000.0

namespace RunProfile

/-- Averages over all workers, rounded down. -/
def withWorkers (p : RunProfile) (workers : List WorkerProfile) : RunProfile :=
  let total (phase : WorkerProfile → Nat) := workers.foldl (fun sum w => sum + phase w) 0
  let average (phase : WorkerProfile → Nat) := total phase / max 1 workers.length
  { p with
    averageSimulating := average (·.simulating)
    averageChecking := average (·.checking)
    averageRewarding := average (·.rewarding) }

def durations (p : RunProfile) : List Nat :=
  [p.threadStart, p.learning, p.policyUpdate, p.determinise, p.checking, p.averageSimulating,
    p.averageChecking, p.averageRewarding, p.total]

/-- The durations in milliseconds, and the number of states. -/
def csv (p : RunProfile) : String :=
  ", ".intercalate
    (p.durations.map (fun d => Decimal.fixed 3 (seconds d * 1000.0)) ++ [toString p.policyStates])

def inSeconds (nanos : Nat) : String := Decimal.fixed 3 (seconds nanos) ++ "s"

def lines (p : RunProfile) : List String :=
  ["Profile:",
    "  thread start:   " ++ inSeconds p.threadStart,
    "  learning:       " ++ inSeconds p.learning,
    "  policy update:  " ++ inSeconds p.policyUpdate,
    "  determinise:    " ++ inSeconds p.determinise,
    "  checking:       " ++ inSeconds p.checking,
    "  per worker:     simulating " ++ inSeconds p.averageSimulating ++ ", checking " ++
      inSeconds p.averageChecking ++ ", rewarding " ++ inSeconds p.averageRewarding,
    "  total:          " ++ inSeconds p.total,
    "  policy states:  " ++ toString p.policyStates]

end RunProfile

end SchedulerLearning

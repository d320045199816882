import SchedulerLearning.Engine.Worker
import SchedulerLearning.Learning.Error
import SchedulerLearning.Statistics.HypothesisTest
import SchedulerLearning.Statistics.IntervalEstimator

/-!
# Sessions

A session owns a pool of workers and drives it through learning and checking. What a call
does between two waits is a step of an activity, and a call that does not have to wait is a
plain function. Who steps when is left open here: `Schedule` chooses one order.
-/

namespace SchedulerLearning

open SchedulerLearning.Random (Generator)

structure Machine where
  entropy : UInt64
  /-- The threads that can run at once, one where that cannot be told. -/
  parallelism : Nat
  parallelism_pos : 0 < parallelism
  /-- The most states that a map of them can be given room for. -/
  mapRoom : Nat

structure Session where
  machine : Machine
  setup : Setup
  config : Config
  shared : Shared
  /-- The workers started and not yet joined. -/
  workers : List Worker
  overlay : Option Overlay
  /-- Whether checking follows the overlay. -/
  deterministic : Bool
  /-- Where the workers' seeds come from. -/
  seeds : Generator

inductive Progress (σ β : Type)
  /-- There is something to wait for. -/
  | blocked
  | continues (session : Session) (activity : σ)
  | returns (session : Session) (result : Except (Stop LearnError) β)

namespace Session

/-- A session at rest, for a valid configuration. Without a seed in the configuration the
workers' seeds follow from the entropy of the machine. -/
def prepare (process : DecisionProcess Float) (property : Property) (config : Config)
    (machine : Machine) : Except (Stop LearnError) Session := do
  config.validate.mapError fun e => .refused (.config e)
  let traceLength ← Word.add property.required 1
  let initial ← process.initial
  let scheduler ← Scheduler.withRoom machine.mapRoom config.schedulerCapacity
  let rewards ← Rewards.withRoom machine.mapRoom config.rewardCapacity
  return {
    machine
    setup := {
      process, property, initial, traceLength
      attribution := config.attribution
      jobsPerRequest := config.jobsPerRequest }
    config
    shared := {
      queue := .ofContext .learning
      scheduler, rewards
      satisfied := 0
      failed := 0
      channel := none }
    workers := []
    overlay := none
    deterministic := false
    seeds := .ofSeed (config.seed.getD machine.entropy) }

/-- How many states the scheduler in use knows, those of an active overlay included. -/
def schedulerStates (s : Session) : Nat :=
  let covered :=
    match s.overlay, s.deterministic with
    | some overlay, true => overlay.size
    | _, _ => 0
  s.shared.scheduler.size + covered

/-- Refuses a pool that a worker has failed in, that was stopped, or that never started. -/
def ensureRunning (s : Session) : Except LearnError Unit :=
  match s.shared.queue.failure with
  | some e => .error (.workerFailed e)
  | none =>
    if s.shared.queue.shutdown then .error .stopped
    else if s.workers.isEmpty then .error .notRunning
    else .ok ()

def spawn : Nat → Generator → List Worker × Generator
  | 0, seeds => ([], seeds)
  | count + 1, seeds =>
    let (seed, seeds) := seeds.word
    let (others, seeds) := spawn count seeds
    (.ofSeed seed :: others, seeds)

def start (s : Session) : Session × Except LearnError Unit :=
  if !s.workers.isEmpty then (s, .error .alreadyRunning)
  else if s.shared.queue.shutdown then (s, .error .stopped)
  else
    let (workers, seeds) := spawn (s.config.threads s.machine.parallelism) s.seeds
    ({ s with workers, seeds }, .ok ())

def determinise (s : Session) : Session × Nat :=
  let overlay := s.shared.scheduler.determinise
  ({ s with overlay := some overlay }, overlay.size)

def setDeterministic (s : Session) (deterministic : Bool) : Session := { s with deterministic }

def withContext (s : Session) (context : Batch) : Session :=
  { s with shared := { s.shared with queue := { s.shared.queue with context } } }

def resetCounts (s : Session) : Session :=
  { s with shared := { s.shared with satisfied := 0, failed := 0 } }

def resetRewards (s : Session) : Session :=
  { s with shared := { s.shared with rewards := .empty } }

def issue (s : Session) (count : Nat) : Session × Except Fault Unit :=
  let (queue, issued) := s.shared.queue.issue count
  ({ s with shared := { s.shared with queue } }, issued)

end Session

/-! ## Learning -/

structure LearnReport where
  /-- The blocks that ended with an update. -/
  blocks : Nat
  /-- Whether the early test ended learning before the last block. -/
  stoppedEarly : Bool
  deriving Repr, DecidableEq

structure Learning where
  tracesPerBlock : Nat
  blocks : Nat
  /-- The most jobs issued at once. -/
  miniBatch : Nat
  /-- The prior odds of the early test, if it is made. -/
  prior : Option Float
  /-- The blocks done. -/
  done : Nat
  /-- The jobs issued in the current block. -/
  issued : Nat
  /-- Whether a batch is out. -/
  waiting : Bool

namespace Learning

def start (s : Session) (tracesPerBlock blocks : Nat) : Except (Stop LearnError) (Session × Learning) := do
  s.ensureRunning.mapError .refused
  let c := s.config
  let prior ←
    if c.bayesLearning then
      some <$> (priorOdds Beta.floatCdf c.alpha c.beta c.learnTheta).mapError
        fun e => Stop.refused (LearnError.stats e)
    else pure none
  let jobs ← Word.mul s.workers.length c.jobsPerRequest
  let s := (s.withContext .learning).resetRewards.resetCounts
  return (s, ⟨tracesPerBlock, blocks, max 1 jobs, prior, 0, 0, false⟩)

def endsEarly (s : Session) (prior : Float) : Except (StatsError Float) Bool := do
  let c := s.config
  let factor ← bayesFactor Beta.floatCdf prior c.alpha c.beta c.learnTheta
    s.shared.satisfied.toNat s.shared.failed.toNat
  return c.learnThreshold < factor

/-- The end of a batch: a failure, the early test, or the way back to issuing. -/
def collect (s : Session) (l : Learning) : Progress Learning LearnReport :=
  if !s.shared.queue.idle then .blocked
  else
    match s.shared.queue.failure, l.prior with
    | some e, _ => .returns s (.error (.refused (.workerFailed e)))
    | none, none => .continues s { l with waiting := false }
    | none, some prior =>
      match endsEarly s prior with
      | .error e => .returns s (.error (.refused (.stats e)))
      | .ok true => .returns s.resetCounts.resetRewards (.ok ⟨l.done, true⟩)
      | .ok false => .continues s { l with waiting := false }

def endBlock (s : Session) (l : Learning) : Progress Learning LearnReport :=
  let s := s.resetCounts
  let updated := s.shared.scheduler.update s.config.rule s.config.weights s.shared.rewards
  let s := { s with shared := { s.shared with scheduler := updated.scheduler } }
  match updated.fault with
  | some fault => .returns s (.error (.faulted fault))
  | none => .continues s.resetRewards { l with done := l.done + 1, issued := 0 }

def step (s : Session) (l : Learning) : Progress Learning LearnReport :=
  if l.waiting then collect s l
  else if l.blocks ≤ l.done then .returns s (.ok ⟨l.done, false⟩)
  else if l.issued < l.tracesPerBlock then
    let batch := min l.miniBatch (l.tracesPerBlock - l.issued)
    match s.issue batch with
    | (s, .ok ()) => .continues s { l with issued := l.issued + batch, waiting := true }
    | (s, .error fault) => .returns s (.error (.faulted fault))
  else endBlock s l

end Learning

/-! ## Checking -/

inductive Procedure
  | testing (test : HypothesisTest Float)
  | estimating (estimator : IntervalEstimator Float)

inductive Outcome
  | testing (result : TestResult Float)
  | estimation (estimate : Estimate Float)
  deriving Repr

namespace Outcome

def csv : Outcome → String
  | .testing r => r.csv
  | .estimation r => r.csv

def lines : Outcome → List String
  | .testing r => r.lines
  | .estimation r => r.lines

end Outcome

def Procedure.observe (verdict : Bool) : Procedure → Procedure × Option Outcome
  | .testing t =>
    let (t, result) := t.observe Beta.floatCdf verdict
    (.testing t, result.map .testing)
  | .estimating e =>
    let (e, result) := e.observe Beta.floatCdf verdict
    (.estimating e, result.map .estimation)

/-- Where checking is: about to look at the queue, about to receive, about to withdraw what is
not claimed, or waiting for the grants still out. -/
inductive CheckPhase
  | looking
  | receiving
  | withdrawing (outcome : Except LearnError Outcome)
  | draining (outcome : Except LearnError Outcome)

structure Checking where
  procedure : Procedure
  issued : Nat
  received : Nat
  phase : CheckPhase

namespace Checking

/-- Takes up checking on a running pool. The channel has room for a batch of verdicts and a
failure of every worker. -/
def start (s : Session) (procedure : Procedure) : Except (Stop LearnError) (Session × Checking) := do
  s.ensureRunning.mapError .refused
  let room ← Word.add s.config.checkBatch s.workers.length
  Room.claim 40 room
  let overlay := if s.deterministic then s.overlay else none
  let s := s.withContext ⟨.verdicts, overlay⟩
  return ({ s with shared := { s.shared with channel := some (.ofRoom room) } },
    ⟨procedure, 0, 0, .looking⟩)

/-- Issues the next batch once every job issued is received and no grant is out. -/
def look (s : Session) (c : Checking) : Progress Checking Outcome :=
  match s.shared.queue.failure with
  | some e => .continues s { c with phase := .withdrawing (.error (.workerFailed e)) }
  | none =>
    if c.received = c.issued ∧ s.shared.queue.active = 0 then
      match s.issue s.config.checkBatch, Word.add c.issued s.config.checkBatch with
      | (s, .ok ()), .ok issued => .continues s { c with issued, phase := .receiving }
      | (s, .ok ()), .error fault | (s, .error fault), _ => .returns s (.error (.faulted fault))
    else .continues s { c with phase := .receiving }

def receive (s : Session) (c : Checking) : Progress Checking Outcome :=
  match s.shared.channel.bind Channel.receive? with
  | none => .blocked
  | some (report, channel) =>
    let s := { s with shared := { s.shared with channel := some channel } }
    match report with
    | .error e => .continues s { c with phase := .withdrawing (.error (.workerFailed e)) }
    | .ok verdict =>
      let received := c.received + 1
      match c.procedure.observe verdict.satisfied with
      | (procedure, none) => .continues s { c with procedure, received, phase := .looking }
      | (procedure, some outcome) =>
        .continues s { c with procedure, received, phase := .withdrawing (.ok outcome) }

def withdraw (s : Session) (c : Checking) (outcome : Except LearnError Outcome) :
    Progress Checking Outcome :=
  let (_, queue) := s.shared.queue.cancel
  .continues { s with shared := { s.shared with queue } } { c with phase := .draining outcome }

def drain (s : Session) (outcome : Except LearnError Outcome) : Progress Checking Outcome :=
  if !s.shared.queue.idle then .blocked
  else
    let s := s.withContext .learning
    .returns { s with shared := { s.shared with channel := none } } (outcome.mapError .refused)

def step (s : Session) (c : Checking) : Progress Checking Outcome :=
  match c.phase with
  | .looking => look s c
  | .receiving => receive s c
  | .withdrawing outcome => withdraw s c outcome
  | .draining outcome => drain s outcome

end Checking

/-! ## Stopping -/

namespace Session

def close (s : Session) : Session :=
  if s.workers.isEmpty then s
  else { s with shared := { s.shared with queue := s.shared.queue.close } }

def join (s : Session) : Progress Unit (List Nat) :=
  if s.workers.all Worker.hasStopped then
    .returns { s with workers := [] } (.ok (s.workers.map (·.traces)))
  else .blocked

/-- A step of the worker at a place in the pool, `none` if it has to wait. -/
def stepWorker (s : Session) (place : Nat) : Option Session := do
  let worker ← s.workers[place]?
  let (shared, worker) ← worker.step s.setup s.shared
  return { s with shared, workers := s.workers.set place worker }

end Session

end SchedulerLearning

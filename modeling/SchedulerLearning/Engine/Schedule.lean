import SchedulerLearning.Engine.Session
import SchedulerLearning.Learning.Profile

/-!
# Running a session

Sessions are run under one of the orders that threads could step in: before every step of an
activity the workers step, the first one first, each until it has to wait. With a single
worker the answers are the same in every order.
-/

namespace SchedulerLearning

namespace Worker

/-- Steps a worker until it has to wait, at most `fuel` times, and tells whether it moved. -/
def settle (setup : Setup) (fuel : Nat) (shared : Shared) (w : Worker) (moved : Bool) :
    Shared × Worker × Bool :=
  match fuel with
  | 0 => (shared, w, moved)
  | fuel + 1 =>
    if w.ready shared then
      let (shared, w) := w.act setup shared
      settle setup fuel shared w true
    else (shared, w, moved)

end Worker

namespace Session

/-- How often a worker or an activity steps at most before another one is looked at. No
counter of 64 bits lasts longer. -/
@[noinline] def patience : Nat := Nat.pow 2 62

def settleEach (setup : Setup) (shared : Shared) : List Worker → Shared × List Worker × Bool
  | [] => (shared, [], false)
  | w :: rest =>
    let (shared, w, moved) := w.settle setup patience shared false
    let (shared, rest, others) := settleEach setup shared rest
    (shared, w :: rest, moved || others)

def settle (s : Session) : Session × Bool :=
  let (shared, workers, moved) := settleEach s.setup s.shared s.workers
  ({ s with shared, workers }, moved)

/-- Runs an activity to its result, the workers settled before each of its steps. -/
@[specialize] def complete {σ β : Type} (step : Session → σ → Progress σ β) :
    Nat → Session → σ → Session × Except (Stop LearnError) β
  | 0, s, _ => (s, .error (.faulted (.overflow .add)))
  | fuel + 1, s, activity =>
    let (s, moved) := s.settle
    match step s activity with
    | .continues s activity => complete step fuel s activity
    | .returns s result => (s, result)
    | .blocked =>
      if moved then complete step fuel s activity
      else (s, .error (.faulted (.assertion "nothing left to wait for")))

def learn (s : Session) (tracesPerBlock blocks : Nat) : Session × Except (Stop LearnError) LearnReport :=
  match Learning.start s tracesPerBlock blocks with
  | .error e => (s, .error e)
  | .ok (s, l) => complete Learning.step patience s l

def check (s : Session) (procedure : Procedure) : Session × Except (Stop LearnError) Outcome :=
  match Checking.start s procedure with
  | .error e => (s, .error e)
  | .ok (s, c) => complete Checking.step patience s c

def test (s : Session) (theta threshold alpha beta : Float) : Session × Except (Stop LearnError) Outcome :=
  match HypothesisTest.start Beta.floatCdf theta threshold alpha beta s.config.minTraces
      s.config.maxTraces with
  | .error e => (s, .error (.refused (.stats e)))
  | .ok test => s.check (.testing test)

def estimate (s : Session) (alpha beta delta coefficient : Float) :
    Session × Except (Stop LearnError) Outcome :=
  match IntervalEstimator.start alpha beta delta coefficient with
  | .error e => (s, .error (.refused (.stats e)))
  | .ok estimator => s.check (.estimating estimator)

def decide (s : Session) : Session × Except (Stop LearnError) Outcome :=
  let c := s.config
  match c.method with
  | .testing => s.test c.theta c.threshold c.alpha c.beta
  | .estimation => s.estimate c.alpha c.beta c.delta c.coefficient

def stop (s : Session) : Session × List Nat :=
  match complete (fun s (_ : Unit) => s.join) patience s.close () with
  | (s, .ok traces) => (s, traces)
  | (s, .error _) => (s, [])

structure Summary where
  outcome : Outcome
  learning : LearnReport
  profile : RunProfile
  workers : List WorkerProfile

/-- Starts the workers, learns, and decides. The clock tells the nanoseconds that have passed;
what single workers spend is not measured. -/
@[specialize] def runTimed {m : Type → Type} [Monad m] (now : m Nat) (s : Session) :
    m (Session × Except (Stop LearnError) Summary) := do
  let t₀ ← now
  match s.start with
  | (s, .error e) => return (s, .error (.refused e))
  | (s, .ok ()) =>
  let t₁ ← now
  match s.learn s.config.tracesPerBlock s.config.blocks with
  | (s, .error e) => return (s, .error e)
  | (s, .ok learning) =>
  let t₂ ← now
  let s := if s.config.determinise then s.determinise.1.setDeterministic true else s
  let t₃ ← now
  match s.decide with
  | (s, .error e) => return (s, .error e)
  | (s, .ok outcome) =>
  let t₄ ← now
  let policyStates := s.schedulerStates
  let (s, traces) := s.stop
  let workers := traces.map fun traces => { traces : WorkerProfile }
  let t₅ ← now
  let profile : RunProfile := {
    threadStart := t₁ - t₀
    learning := t₂ - t₁
    determinise := t₃ - t₂
    checking := t₄ - t₃
    total := t₅ - t₀
    policyStates }
  return (s, .ok ⟨outcome, learning, profile.withWorkers workers, workers⟩)

def run (s : Session) : Session × Except (Stop LearnError) Summary := Id.run (s.runTimed (pure 0))

end Session

end SchedulerLearning

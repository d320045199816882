import SchedulerLearning.Engine.Channel
import SchedulerLearning.Engine.JobQueue
import SchedulerLearning.Learning.Attribution
import SchedulerLearning.Learning.Scheduler
import SchedulerLearning.Model.DecisionProcess
import SchedulerLearning.Model.Property

/-!
# Workers

A worker claims a grant and, for each of its jobs, simulates a trace under the learned
scheduler, checks it, and delivers the result: rewards while learning, verdicts while
checking. What it does is cut into steps that touch the shared state at most once, so that
the steps of several workers can be interleaved in every way that threads can. Only the last
delivery of a grant is one step with the end of the grant: both happen under the job lock.
-/

namespace SchedulerLearning

open SchedulerLearning.Random (Generator)

inductive Sink
  | rewards
  | verdicts
  deriving Repr, DecidableEq

structure Batch where
  sink : Sink
  /-- Resolves choices before the learned scheduler does. -/
  overlay : Option Overlay

def Batch.learning : Batch := ⟨.rewards, none⟩

/-- What stays the same for all workers of a pool. -/
structure Setup where
  process : DecisionProcess Float
  property : Property
  attribution : Attribution
  initial : State
  /-- The most steps of a trace. -/
  traceLength : Nat
  jobsPerRequest : Nat

abbrev Report := Except (ModelError Float) Verdict

structure Shared where
  queue : JobQueue Batch
  scheduler : Scheduler Float
  rewards : Rewards
  /-- Verdicts of the learning block; the counters wrap. -/
  satisfied : UInt64
  failed : UInt64
  /-- Open while a decision procedure takes verdicts. -/
  channel : Option (Channel Report)

/-- A grant that a worker is busy with: the jobs not yet delivered, and their batch. -/
structure Holding where
  jobs : Nat
  batch : Batch

inductive Phase
  | requesting
  /-- On a trace that may take `left` more steps. -/
  | simulating (holding : Holding) (left : Nat) (trace : Trace)
  /-- At a choice in a state found unknown to the scheduler. -/
  | entering (holding : Holding) (left : Nat) (trace : Trace)
      (offers : List (Distribution Float)) (x : Float)
  /-- At a choice in a state known to the scheduler. -/
  | sampling (holding : Holding) (left : Nat) (trace : Trace)
      (offers : List (Distribution Float)) (x : Float)
  /-- With credits still to be made; `missed` if the first one's state was found unknown. -/
  | delivering (holding : Holding) (credits : List Credit) (missed : Bool) (verdict : Verdict)
  | failing (holding : Holding) (error : ModelError Float)
  | reporting (error : ModelError Float)
  | stopped

structure Worker where
  /-- Draws the branches. -/
  branching : Generator
  /-- Draws the choices. -/
  choosing : Generator
  /-- The number of traces simulated and checked. -/
  traces : Nat
  phase : Phase

namespace Shared

def count (shared : Shared) (verdict : Verdict) : Shared :=
  if verdict.satisfied then { shared with satisfied := shared.satisfied + 1 }
  else { shared with failed := shared.failed + 1 }

/-! A store leaves the record while it changes, so that it is changed in place. -/

def credit (shared : Shared) (c : Credit) : Shared × Except Fault Unit :=
  let rewards := shared.rewards
  let shared := { shared with rewards := .empty }
  let (rewards, credited) := rewards.credit c
  ({ shared with rewards }, credited)

def creditAll (shared : Shared) (cs : List Credit) : Shared × Except Fault Unit :=
  let rewards := shared.rewards
  let shared := { shared with rewards := .empty }
  let (rewards, credited) := rewards.creditAll cs
  ({ shared with rewards }, credited)

def enter (shared : Shared) (s : State) (count : Nat) : Shared :=
  let scheduler := shared.scheduler
  let shared := { shared with scheduler := .empty }
  { shared with scheduler := (scheduler.enter s count).1 }

/-- Whether a report can be sent. A closed channel takes and forgets every one. -/
def takesReport (shared : Shared) : Bool := shared.channel.all Channel.hasRoom

def send (shared : Shared) (report : Report) : Shared :=
  { shared with channel := shared.channel.map (·.send report) }

/-- Delivers a result at once: all its credits and the count of the verdict, or the report of
it. A fault among the credits leaves the verdict uncounted. -/
def deliver (shared : Shared) (sink : Sink) (credits : List Credit) (verdict : Verdict) :
    Shared × Except Fault Unit :=
  match sink with
  | .verdicts => (shared.send (.ok verdict), .ok ())
  | .rewards =>
    match shared.creditAll credits with
    | (shared, .ok ()) => (shared.count verdict, .ok ())
    | (shared, .error fault) => (shared, .error fault)

end Shared

namespace Worker

def ofSeed (seed : UInt64) : Worker where
  branching := .ofSeed seed
  choosing := .ofSeed (seed ^^^ 0x9e3779b97f4a7c15)
  traces := 0
  phase := .requesting

/-- The worker between two phases. What the old one held is free to be changed in place. -/
def leave (w : Worker) : Worker := { w with phase := .requesting }

def failureOf : Stop (ModelError Float) → ModelError Float
  | .refused error => error
  | .faulted fault => .internal (.workerFault fault)

def beginJob (setup : Setup) (holding : Holding) : Phase :=
  match Trace.withRoom setup.initial setup.traceLength with
  | .ok t => .simulating holding setup.traceLength t
  | .error fault => .failing holding (failureOf (.faulted fault))

def checkTrace (setup : Setup) (w : Worker) (holding : Holding) (t : Trace) : Worker :=
  match setup.property.evaluate t with
  | .error e => { w with phase := .failing holding (failureOf e) }
  | .ok verdict =>
    let credits :=
      match holding.batch.sink with
      | .rewards => setup.attribution.credits t.steps.toList verdict
      | .verdicts => []
    { w with traces := w.traces + 1, phase := .delivering holding credits false verdict }

def advance (w : Worker) (holding : Holding) (left : Nat) (t : Trace)
    (branches : Distribution Float) (choice offered : Nat) : Worker :=
  match DecisionProcess.follow Generator.source branches choice offered t w.branching with
  | (.ok t, branching) => { w with branching, phase := .simulating holding left t }
  | (.error e, branching) => { w with branching, phase := .failing holding (failureOf e) }

def take (w : Worker) (holding : Holding) (left : Nat) (t : Trace)
    (offers : List (Distribution Float)) (choice : Nat) : Worker :=
  match DecisionProcess.chosen offers choice with
  | .error e => { w with phase := .failing holding (failureOf e) }
  | .ok branches => w.advance holding left t branches choice offers.length

/-- Goes on with a trace: ends it, follows the only choice, or comes to resolve one. Only the
test whether the scheduler knows the state reads what is shared. -/
def explore (setup : Setup) (shared : Shared) (w : Worker) (holding : Holding) (left : Nat) (t : Trace) :
    Worker :=
  match left with
  | 0 => w.checkTrace setup holding t
  | left + 1 =>
    match setup.process.turn t with
    | .error e => { w with phase := .failing holding (failureOf e) }
    | .ok .deadlock => w.checkTrace setup holding t
    | .ok (.only branches) => w.advance holding left t branches 0 1
    | .ok (.among offers) =>
      let (x, choosing) := w.choosing.unit
      let w := { w with choosing }
      match holding.batch.overlay.bind (·.choice? t.last) with
      | some choice => w.take holding left t offers choice
      | none =>
        if shared.scheduler.contains t.last then
          { w with phase := .sampling holding left t offers x }
        else
          { w with phase := .entering holding left t offers x }

/-- The last delivery of a grant, and the grant's end. -/
def deliverLast (shared : Shared) (w : Worker) (holding : Holding) (credits : List Credit)
    (verdict : Verdict) : Shared × Worker :=
  let (shared, delivered) := shared.deliver holding.batch.sink credits verdict
  match delivered, shared.queue.finish with
  | .ok (), .ok queue => ({ shared with queue }, { w with phase := .requesting })
  | .error fault, _ | _, .error fault =>
    (shared, { w with phase := .failing holding (failureOf (.faulted fault)) })

/-- A step of a delivery that does not end the grant: one credit, the count of the verdict, or
the report of it. -/
def deliver (setup : Setup) (shared : Shared) (w : Worker) (holding : Holding)
    (credits : List Credit) (missed : Bool) (verdict : Verdict) : Shared × Worker :=
  let next : Worker := { w with phase := beginJob setup { holding with jobs := holding.jobs - 1 } }
  match holding.batch.sink, credits with
  | .verdicts, _ => (shared.send (.ok verdict), next)
  | .rewards, [] => (shared.count verdict, next)
  | .rewards, credit :: rest =>
    if missed || shared.rewards.contains credit.state then
      match shared.credit credit with
      | (shared, .ok ()) => (shared, { w with phase := .delivering holding rest false verdict })
      | (shared, .error fault) =>
        (shared, { w with phase := .failing holding (failureOf (.faulted fault)) })
    else
      (shared, { w with phase := .delivering holding credits true verdict })

def ready (shared : Shared) (w : Worker) : Bool :=
  match w.phase with
  | .requesting => shared.queue.answers
  | .delivering holding _ _ _ =>
    match holding.batch.sink with
    | .rewards => true
    | .verdicts => shared.takesReport
  | .reporting _ => shared.takesReport
  | .stopped => false
  | _ => true

def act (setup : Setup) (shared : Shared) (w : Worker) : Shared × Worker :=
  match w.phase with
  | .requesting =>
    match shared.queue.request setup.jobsPerRequest with
    | (.granted grant, queue) =>
      ({ shared with queue }, { w with phase := beginJob setup ⟨grant.count, grant.context⟩ })
    | (.closed, _) => (shared, { w with phase := .stopped })
    | (.wait, _) => (shared, w)
  | .simulating holding left t => (shared, w.leave.explore setup shared holding left t)
  | .entering holding left t offers x =>
    (shared.enter t.last offers.length, { w with phase := .sampling holding left t offers x })
  | .sampling holding left t offers x =>
    (shared, w.leave.take holding left t offers (shared.scheduler.sample t.last x))
  | .delivering holding credits missed verdict =>
    if holding.jobs ≤ 1 then w.deliverLast shared holding credits verdict
    else w.deliver setup shared holding credits missed verdict
  | .failing holding error =>
    let shared := { shared with queue := shared.queue.fail error }
    match holding.batch.sink with
    | .rewards => (shared, { w with phase := .stopped })
    | .verdicts => (shared, { w with phase := .reporting error })
  | .reporting error => (shared.send (.error error), { w with phase := .stopped })
  | .stopped => (shared, w)

/-- The next step of a worker, `none` while it has to wait or after it has stopped. -/
def step (setup : Setup) (shared : Shared) (w : Worker) : Option (Shared × Worker) :=
  if w.ready shared then some (w.act setup shared) else none

def hasStopped (w : Worker) : Bool :=
  match w.phase with
  | .stopped => true
  | _ => false

end Worker

end SchedulerLearning

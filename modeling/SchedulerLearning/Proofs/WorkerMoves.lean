import SchedulerLearning.Engine.Worker
import SchedulerLearning.Proofs.QueueLaws

/-!
# What a worker can do

The moves of a worker as rules on what is shared and on the phase it is in. Every step that a
worker takes is one of them, so an invariant of the pool is proved by cases on the move.
-/

namespace SchedulerLearning

namespace Phase

def simulates? : Phase → Option Holding
  | .simulating holding _ _ | .entering holding _ _ _ _ | .sampling holding _ _ _ _ => some holding
  | _ => none

def holding? : Phase → Option Holding
  | .simulating holding _ _ | .entering holding _ _ _ _ | .sampling holding _ _ _ _
  | .delivering holding _ _ _ | .failing holding _ => some holding
  | .requesting | .reporting _ | .stopped => none

def credits : Phase → List Credit
  | .delivering _ credits _ _ => credits
  | _ => []

def verdicts : Phase → List Verdict
  | .delivering _ _ _ verdict => [verdict]
  | _ => []

def grants (p : Phase) : Nat := p.holding?.elim 0 fun _ => 1

def jobs (p : Phase) : Nat := p.holding?.elim 0 Holding.jobs

def Failing : Phase → Prop
  | .failing _ _ => True
  | _ => False

def Done : Phase → Prop
  | .reporting _ | .stopped => True
  | _ => False

section
variable (holding : Holding) (left : Nat) (t : Trace) (owed : List Credit) (missed : Bool)
  (verdict : Verdict) (error : ModelError Float)

@[simp] theorem holding_requesting : requesting.holding? = none := rfl
@[simp] theorem holding_simulating : (simulating holding left t).holding? = some holding := rfl
@[simp] theorem holding_delivering :
    (delivering holding owed missed verdict).holding? = some holding := rfl
@[simp] theorem holding_failing : (failing holding error).holding? = some holding := rfl
@[simp] theorem holding_reporting : (reporting error).holding? = none := rfl
@[simp] theorem holding_stopped : stopped.holding? = none := rfl

@[simp] theorem jobs_requesting : requesting.jobs = 0 := rfl
@[simp] theorem jobs_simulating : (simulating holding left t).jobs = holding.jobs := rfl
@[simp] theorem jobs_delivering :
    (delivering holding owed missed verdict).jobs = holding.jobs := rfl

@[simp] theorem credits_requesting : requesting.credits = [] := rfl
@[simp] theorem credits_simulating : (simulating holding left t).credits = [] := rfl
@[simp] theorem credits_delivering : (delivering holding owed missed verdict).credits = owed := rfl

@[simp] theorem verdicts_requesting : requesting.verdicts = [] := rfl
@[simp] theorem verdicts_simulating : (simulating holding left t).verdicts = [] := rfl
@[simp] theorem verdicts_delivering :
    (delivering holding owed missed verdict).verdicts = [verdict] := rfl

end

theorem holding_of_simulates {p : Phase} {holding : Holding} (h : p.simulates? = some holding) :
    p.holding? = some holding := by
  cases p <;> simp_all [simulates?, holding?]

theorem grants_of_holding {p : Phase} {holding : Holding} (h : p.holding? = some holding) :
    p.grants = 1 := by
  simp [grants, h]

theorem grants_pos {p : Phase} : 0 < p.grants ↔ p.holding?.isSome := by
  cases h : p.holding? <;> simp [grants, h]

theorem jobs_of_holding {p : Phase} {holding : Holding} (h : p.holding? = some holding) :
    p.jobs = holding.jobs := by
  simp [jobs, h]

theorem not_failing_of_simulates {p : Phase} {holding : Holding} (h : p.simulates? = some holding) :
    ¬p.Failing := by
  cases p <;> simp_all [simulates?, Failing]

theorem not_done_of_simulates {p : Phase} {holding : Holding} (h : p.simulates? = some holding) :
    ¬p.Done := by
  cases p <;> simp_all [simulates?, Done]

theorem credits_of_simulates {p : Phase} {holding : Holding} (h : p.simulates? = some holding) :
    p.credits = [] := by
  cases p <;> simp_all [simulates?, credits]

theorem verdicts_of_simulates {p : Phase} {holding : Holding} (h : p.simulates? = some holding) :
    p.verdicts = [] := by
  cases p <;> simp_all [simulates?, verdicts]

end Phase

namespace Shared

variable (shared : Shared) (verdict : Verdict) (report : Report)

@[simp] theorem queue_count : (shared.count verdict).queue = shared.queue := by
  unfold count
  split <;> rfl

@[simp] theorem rewards_count : (shared.count verdict).rewards = shared.rewards := by
  unfold count
  split <;> rfl

@[simp] theorem queue_send : (shared.send report).queue = shared.queue := rfl

@[simp] theorem channel_send :
    (shared.send report).channel = shared.channel.map (·.send report) := rfl

end Shared

def Setup.creditsOf (setup : Setup) (sink : Sink) (t : Trace) (verdict : Verdict) : List Credit :=
  match sink with
  | .rewards => setup.attribution.credits t.steps.toList verdict
  | .verdicts => []

def Batch.afterFailure (batch : Batch) (error : ModelError Float) : Phase :=
  match batch.sink with
  | .rewards => .stopped
  | .verdicts => .reporting error

theorem Batch.afterFailure_cases (batch : Batch) (error : ModelError Float) :
    (batch.sink = .rewards ∧ batch.afterFailure error = .stopped) ∨
      (batch.sink = .verdicts ∧ batch.afterFailure error = .reporting error) := by
  cases h : batch.sink <;> simp [afterFailure, h]

@[simp] theorem Batch.afterFailure_holding (batch : Batch) (error : ModelError Float) :
    (batch.afterFailure error).holding? = none := by
  rcases batch.afterFailure_cases error with ⟨-, h⟩ | ⟨-, h⟩ <;> simp [h]

/-- The moves of a worker, from what is shared and its phase to those after. -/
inductive Move (setup : Setup) : Shared → Phase → Shared → Phase → Prop
  | claim {shared grant queue}
      (granted : shared.queue.request setup.jobsPerRequest = (.granted grant, queue)) :
      Move setup shared .requesting { shared with queue }
        (Worker.beginJob setup ⟨grant.count, grant.context⟩)
  | leave {shared} (closed : shared.queue.shutdown = true) :
      Move setup shared .requesting shared .stopped
  | explore {shared p q holding scheduler}
      (before : p.simulates? = some holding) (after : q.simulates? = some holding) :
      Move setup shared p { shared with scheduler } q
  | judge {shared holding left t verdict} (judged : setup.property.evaluate t = .ok verdict) :
      Move setup shared (.simulating holding left t) shared
        (.delivering holding (setup.creditsOf holding.batch.sink t verdict) false verdict)
  | abandon {shared p holding error} (before : p.simulates? = some holding) :
      Move setup shared p shared (.failing holding error)
  | miss {shared holding credits missed verdict}
      (sink : holding.batch.sink = .rewards) (more : 1 < holding.jobs) :
      Move setup shared (.delivering holding credits missed verdict) shared
        (.delivering holding credits true verdict)
  | credit {shared holding credit rest missed verdict rewards}
      (sink : holding.batch.sink = .rewards) (more : 1 < holding.jobs)
      (credited : shared.rewards.credit credit = (rewards, .ok ())) :
      Move setup shared (.delivering holding (credit :: rest) missed verdict)
        { shared with rewards } (.delivering holding rest false verdict)
  | count {shared holding missed verdict}
      (sink : holding.batch.sink = .rewards) (more : 1 < holding.jobs) :
      Move setup shared (.delivering holding [] missed verdict) (shared.count verdict)
        (Worker.beginJob setup { holding with jobs := holding.jobs - 1 })
  | send {shared holding credits missed verdict}
      (sink : holding.batch.sink = .verdicts) (more : 1 < holding.jobs)
      (room : shared.takesReport = true) :
      Move setup shared (.delivering holding credits missed verdict) (shared.send (.ok verdict))
        (Worker.beginJob setup { holding with jobs := holding.jobs - 1 })
  | countLast {shared holding credits missed verdict rewards}
      (sink : holding.batch.sink = .rewards) (last : holding.jobs ≤ 1)
      (credited : shared.rewards.creditAll credits = (rewards, .ok ())) :
      Move setup shared (.delivering holding credits missed verdict)
        { ({ shared with rewards } : Shared).count verdict with
          queue := { shared.queue with active := shared.queue.active - 1 } } .requesting
  | sendLast {shared holding credits missed verdict}
      (sink : holding.batch.sink = .verdicts) (last : holding.jobs ≤ 1)
      (room : shared.takesReport = true) :
      Move setup shared (.delivering holding credits missed verdict)
        { shared.send (.ok verdict) with
          queue := { shared.queue with active := shared.queue.active - 1 } } .requesting
  | crash {shared holding credits missed verdict rewards error}
      (sink : holding.batch.sink = .rewards) :
      Move setup shared (.delivering holding credits missed verdict) { shared with rewards }
        (.failing holding error)
  | fail {shared holding error} :
      Move setup shared (.failing holding error)
        { shared with queue := shared.queue.fail error } (holding.batch.afterFailure error)
  | report {shared error} (room : shared.takesReport = true) :
      Move setup shared (.reporting error) (shared.send (.error error)) .stopped

namespace Worker

variable {setup : Setup} {shared shared' : Shared} {w w' : Worker} {holding : Holding} {left : Nat}
  {t : Trace} {offers : List (Distribution Float)}

-- ---------------------------------------------------------------------------
-- On a trace
-- ---------------------------------------------------------------------------

theorem beginJob_cases (setup : Setup) (holding : Holding) :
    (∃ left t, beginJob setup holding = .simulating holding left t) ∨
      ∃ error, beginJob setup holding = .failing holding error := by
  unfold beginJob
  split
  · exact .inl ⟨_, _, rfl⟩
  · exact .inr ⟨_, rfl⟩

@[simp] theorem beginJob_holding : (beginJob setup holding).holding? = some holding := by
  rcases beginJob_cases setup holding with ⟨_, _, h⟩ | ⟨_, h⟩ <;> simp [h, Phase.holding?]

@[simp] theorem beginJob_jobs : (beginJob setup holding).jobs = holding.jobs :=
  Phase.jobs_of_holding beginJob_holding

@[simp] theorem beginJob_credits : (beginJob setup holding).credits = [] := by
  rcases beginJob_cases setup holding with ⟨_, _, h⟩ | ⟨_, h⟩ <;> simp [h, Phase.credits]

@[simp] theorem beginJob_verdicts : (beginJob setup holding).verdicts = [] := by
  rcases beginJob_cases setup holding with ⟨_, _, h⟩ | ⟨_, h⟩ <;> simp [h, Phase.verdicts]

theorem advance_cases (w : Worker) (holding : Holding) (left : Nat) (t : Trace)
    (branches : Distribution Float) (choice offered : Nat) :
    (∃ t', (w.advance holding left t branches choice offered).phase = .simulating holding left t') ∨
      ∃ error, (w.advance holding left t branches choice offered).phase = .failing holding error := by
  unfold advance
  split
  · exact .inl ⟨_, rfl⟩
  · exact .inr ⟨_, rfl⟩

theorem take_cases (w : Worker) (holding : Holding) (left : Nat) (t : Trace)
    (offers : List (Distribution Float)) (choice : Nat) :
    (∃ t', (w.take holding left t offers choice).phase = .simulating holding left t') ∨
      ∃ error, (w.take holding left t offers choice).phase = .failing holding error := by
  unfold take
  split
  · exact .inr ⟨_, rfl⟩
  · exact advance_cases ..

theorem move_of_cases {p q : Phase} (before : p.simulates? = some holding)
    (after : (∃ t', q = .simulating holding left t') ∨ ∃ error, q = .failing holding error) :
    Move setup shared p shared q := by
  rcases after with ⟨t', rfl⟩ | ⟨error, rfl⟩
  · exact @Move.explore _ _ _ _ _ shared.scheduler before rfl
  · exact .abandon before

theorem checkTrace_move (w : Worker) :
    Move setup shared (.simulating holding left t) shared (w.checkTrace setup holding t).phase := by
  unfold checkTrace
  split
  · exact .abandon rfl
  · next verdict judged =>
    exact .judge judged

theorem explore_move (w : Worker) :
    Move setup shared (.simulating holding left t) shared
      (w.explore setup shared holding left t).phase := by
  unfold explore
  split
  · exact checkTrace_move w
  · split
    · exact .abandon rfl
    · exact checkTrace_move w
    · exact move_of_cases rfl (advance_cases ..)
    · simp only
      split
      · exact move_of_cases rfl (take_cases ..)
      · split <;> exact @Move.explore _ _ _ _ _ shared.scheduler rfl rfl

-- ---------------------------------------------------------------------------
-- Deliveries
-- ---------------------------------------------------------------------------

variable {credits : List Credit} {missed : Bool} {verdict : Verdict}

theorem deliver_move (w : Worker) (more : 1 < holding.jobs)
    (ready : holding.batch.sink = .verdicts → shared.takesReport = true) :
    Move setup shared (.delivering holding credits missed verdict)
      (w.deliver setup shared holding credits missed verdict).1
      (w.deliver setup shared holding credits missed verdict).2.phase := by
  unfold deliver
  split
  · next sink => exact .send sink more (ready sink)
  · next sink => exact .count sink more
  · next credit rest sink =>
    split
    · cases h : shared.rewards.credit credit with
      | mk rewards credited =>
        cases credited with
        | ok _ =>
          simp only [Shared.credit, h]
          exact .credit sink more h
        | error fault =>
          simp only [Shared.credit, h]
          exact .crash sink
    · exact .miss sink more

theorem deliverLast_move (w : Worker) (last : holding.jobs ≤ 1) (active : 0 < shared.queue.active)
    (ready : holding.batch.sink = .verdicts → shared.takesReport = true) :
    Move setup shared (.delivering holding credits missed verdict)
      (w.deliverLast shared holding credits verdict).1
      (w.deliverLast shared holding credits verdict).2.phase := by
  cases sink : holding.batch.sink with
  | verdicts =>
    simp only [deliverLast, sink, Shared.deliver, Shared.send, JobQueue.finish, active, if_true]
    exact .sendLast sink last (ready sink)
  | rewards =>
    cases h : shared.rewards.creditAll credits with
    | mk rewards credited =>
      cases credited with
      | ok _ =>
        have queue : (({ shared with rewards } : Shared).count verdict).queue = shared.queue := by
          unfold Shared.count
          split <;> rfl
        simp only [deliverLast, sink, Shared.deliver, Shared.creditAll, h, queue, JobQueue.finish,
          active, if_true]
        exact .countLast sink last h
      | error fault =>
        simp only [deliverLast, sink, Shared.deliver, Shared.creditAll, h]
        exact .crash sink

-- ---------------------------------------------------------------------------
-- Every step is a move
-- ---------------------------------------------------------------------------

theorem requesting_move (hp : w.phase = .requesting) (ready : w.ready shared = true) :
    Move setup shared .requesting (w.act setup shared).1 (w.act setup shared).2.phase := by
  cases h : shared.queue.request setup.jobsPerRequest with
  | mk answer queue =>
    cases answer with
    | granted grant =>
      simp only [act, hp, h]
      exact .claim h
    | closed =>
      simp only [act, hp, h]
      exact .leave (JobQueue.request_closed h).1
    | wait =>
      obtain ⟨hs, hr, -⟩ := JobQueue.request_wait h
      have answers : shared.queue.answers = true := by simpa [Worker.ready, hp] using ready
      rw [JobQueue.answers_eq_false.mpr ⟨hs, hr⟩] at answers
      contradiction

/-- A worker with a grant has to be counted as active, so that it can end the grant. -/
theorem act_move (ready : w.ready shared = true)
    (held : w.phase.holding?.isSome → 0 < shared.queue.active) :
    Move setup shared w.phase (w.act setup shared).1 (w.act setup shared).2.phase := by
  cases hp : w.phase with
  | requesting => exact requesting_move hp ready
  | simulating holding left t =>
    simp only [act, hp]
    exact explore_move _
  | entering holding left t offers x =>
    simp only [act, hp]
    exact .explore rfl rfl
  | sampling holding left t offers x =>
    simp only [act, hp]
    exact move_of_cases rfl (take_cases ..)
  | delivering holding credits missed verdict =>
    have room : holding.batch.sink = .verdicts → shared.takesReport = true := by
      intro sink
      simpa [Worker.ready, hp, sink] using ready
    simp only [act, hp]
    split
    · next last => exact deliverLast_move w last (held (by simp [hp, Phase.holding?])) room
    · next more => exact deliver_move w (by omega) room
  | failing holding error =>
    have move : Move setup shared (.failing holding error) _ _ := .fail
    unfold Batch.afterFailure at move
    cases sink : holding.batch.sink <;> simp only [act, hp, sink] at move ⊢ <;> exact move
  | reporting error =>
    simp only [act, hp]
    exact .report (by simpa [Worker.ready, hp] using ready)
  | stopped => simp [Worker.ready, hp] at ready

theorem move_of_step (h : w.step setup shared = some (shared', w'))
    (held : w.phase.holding?.isSome → 0 < shared.queue.active) :
    Move setup shared w.phase shared' w'.phase := by
  unfold step at h
  split at h
  · next ready =>
    have move : Move setup shared w.phase _ _ := act_move ready held
    rwa [Option.some.inj h] at move
  · cases h

end Worker

end SchedulerLearning

import SchedulerLearning.Engine.Schedule
import SchedulerLearning.Proofs.BlockDelivery

/-!
# The first failure lasts, and so does a stop

Nothing that a worker or the coordinator does clears a failure or opens a queue again. So from the
first failure recorded on, no job is issued or granted, and every call is refused with that failure;
after a stop without one, every call is refused as stopped.
-/

namespace SchedulerLearning

variable {setup : Setup} {shared shared' : Shared} {p q : Phase} {s s' : Session} {a : Account}
  {before after : System} {e : ModelError Float}

-- ---------------------------------------------------------------------------
-- The queue
-- ---------------------------------------------------------------------------

theorem JobQueue.request_of_shutdown {κ : Type} {q : JobQueue κ} (closed : q.shutdown = true)
    (limit : Nat) : q.request limit = (.closed, q) := by
  simp [request, closed]

namespace Move

theorem keeps_failure (h : Move setup shared p shared' q) (failed : shared.queue.failure = some e) :
    shared'.queue.failure = some e := by
  cases h with
  | claim granted =>
    obtain ⟨-, -, -, -, -, rfl⟩ := JobQueue.request_granted granted
    exact failed
  | fail => simp [JobQueue.fail, failed]
  | _ => simpa using failed

theorem takes_nothing (h : Move setup shared p shared' q) (closed : shared.queue.shutdown = true) :
    shared'.queue.remaining = shared.queue.remaining ∧
      shared'.queue.active ≤ shared.queue.active := by
  cases h with
  | claim granted =>
    obtain ⟨opened, -⟩ := JobQueue.request_granted granted
    rw [closed] at opened
    contradiction
  | _ => simp

end Move

-- ---------------------------------------------------------------------------
-- The coordinator
-- ---------------------------------------------------------------------------

theorem Session.close_eq (s : Session) :
    (s.workers = [] ∧ s.close = s) ∨
      s.close = { s with shared := { s.shared with queue := s.shared.queue.close } } := by
  unfold close
  split
  · next empty => exact .inl ⟨List.isEmpty_iff.mp empty, rfl⟩
  · exact .inr rfl

theorem Coordinates.keeps (h : Coordinates before after) :
    after.session.shared.queue.failure = before.session.shared.queue.failure ∧
      (before.session.shared.queue.shutdown = true → after.session.shared.queue.shutdown = true) := by
  have samePool {s s' : Session} (same : s.SamePool s') :
      s'.shared.queue.failure = s.shared.queue.failure ∧
        (s.shared.queue.shutdown = true → s'.shared.queue.shutdown = true) :=
    ⟨same.failure, fun closed => same.shutdown.trans closed⟩
  cases h with
  | start step =>
    obtain ⟨-, _, _, rfl, -⟩ := Session.start_eq_ok step
    exact ⟨rfl, id⟩
  | learn _ step =>
    obtain ⟨-, rfl, -⟩ := Learning.start_eq_ok step
    exact ⟨rfl, id⟩
  | learning step => exact samePool (Learning.turn_of_step step).samePool
  | learned step => exact samePool (Learning.end_of_step step).samePool
  | check step =>
    obtain ⟨-, rfl, -⟩ := Checking.start_eq_ok step
    exact ⟨rfl, id⟩
  | checking step => exact samePool (Checking.turn_of_step step).samePool
  | checked step => exact samePool (Checking.end_of_step step).samePool
  | determinise | setDeterministic => exact ⟨rfl, id⟩
  | @close s =>
    show s.close.shared.queue.failure = s.shared.queue.failure ∧
      (s.shared.queue.shutdown = true → s.close.shared.queue.shutdown = true)
    rcases s.close_eq with ⟨-, same⟩ | shut
    · rw [same]
      exact ⟨rfl, id⟩
    · rw [shut]
      exact ⟨rfl, fun _ => rfl⟩
  | join step =>
    obtain ⟨-, rfl⟩ := Session.join_eq_returns step
    exact ⟨rfl, id⟩

theorem Learning.step_of_failed {l : Learning} (waiting : l.waiting = true)
    (failed : s.shared.queue.failure = some e) :
    Learning.step s l = .returns s (.error (.refused (.workerFailed e))) := by
  have idle : s.shared.queue.idle = true := by simp [JobQueue.idle, failed]
  simp [step, waiting, collect, idle, failed]

theorem Checking.step_of_failed {c : Checking} (failed : s.shared.queue.failure = some e) :
    (Checking.step s c).Obeys
      (fun s' _ => s'.shared.queue.remaining ≤ s.shared.queue.remaining ∧
        s'.shared.queue.active = s.shared.queue.active)
      fun s' _ => s'.shared.queue.remaining ≤ s.shared.queue.remaining ∧
        s'.shared.queue.active = s.shared.queue.active := by
  unfold step
  split
  · simp only [look, failed]
    exact ⟨le_rfl, rfl⟩
  · unfold receive
    split
    · trivial
    · next report channel received =>
      cases report with
      | error error => exact ⟨le_rfl, rfl⟩
      | ok verdict =>
        simp only
        split <;> exact ⟨le_rfl, rfl⟩
  · exact ⟨Nat.zero_le _, rfl⟩
  · unfold drain
    split
    · trivial
    · exact ⟨le_rfl, rfl⟩

theorem Coordinates.issues_nothing (run : Run a before) (h : Coordinates before after)
    (failed : before.session.shared.queue.failure = some e) :
    after.session.shared.queue.remaining ≤ before.session.shared.queue.remaining ∧
      after.session.shared.queue.active ≤ before.session.shared.queue.active := by
  have refused {s : Session} (running : s.ensureRunning = .ok ()) :
      s.shared.queue.failure ≠ some e := by
    rw [(Session.ensureRunning_eq_ok running).1]
    simp
  -- Between two batches there is no failure, so learning waits.
  have waits {s : Session} {l : Learning} (run : Run a ⟨s, .learning l⟩)
      (failed : s.shared.queue.failure = some e) : l.waiting = true := by
    by_contra rested
    have sound : s.shared.queue.failure = none := run.rested (by simpa using rested)
    rw [failed] at sound
    contradiction
  cases h with
  | start step =>
    obtain ⟨-, _, _, rfl, -⟩ := Session.start_eq_ok step
    exact ⟨le_rfl, le_rfl⟩
  | learn _ step => exact absurd failed (refused (Learning.start_eq_ok step).1)
  | learning step =>
    rw [Learning.step_of_failed (waits run failed) failed] at step
    cases step
  | learned step =>
    rw [Learning.step_of_failed (waits run failed) failed] at step
    cases step
    exact ⟨le_rfl, le_rfl⟩
  | check step => exact absurd failed (refused (Checking.start_eq_ok step).1)
  | @checking _ _ c _ step =>
    obtain ⟨fewer, same⟩ := (Checking.step_of_failed (c := c) failed).of_continues step
    exact ⟨fewer, same.le⟩
  | @checked _ _ c _ step =>
    obtain ⟨fewer, same⟩ := (Checking.step_of_failed (c := c) failed).of_returns step
    exact ⟨fewer, same.le⟩
  | determinise | setDeterministic => exact ⟨le_rfl, le_rfl⟩
  | @close s =>
    show s.close.shared.queue.remaining ≤ _ ∧ s.close.shared.queue.active ≤ _
    rcases s.close_eq with ⟨-, same⟩ | shut
    · rw [same]
      exact ⟨le_rfl, le_rfl⟩
    · rw [shut]
      exact ⟨le_rfl, le_rfl⟩
  | join step =>
    obtain ⟨-, rfl⟩ := Session.join_eq_returns step
    exact ⟨le_rfl, le_rfl⟩

-- ---------------------------------------------------------------------------
-- Refused calls
-- ---------------------------------------------------------------------------

/-- Whether each call to learn or to check is refused, and leaves the session as it is. The
parameters of a check are looked at first. -/
structure Session.Refuses (s : Session) (e : LearnError) : Prop where
  learn : ∀ tracesPerBlock blocks, s.learn tracesPerBlock blocks = (s, .error (.refused e))
  test : ∀ theta threshold alpha beta test,
    HypothesisTest.start Beta.floatCdf theta threshold alpha beta s.config.minTraces
      s.config.maxTraces = .ok test →
    s.test theta threshold alpha beta = (s, .error (.refused e))
  estimate : ∀ alpha beta delta coefficient estimator,
    IntervalEstimator.start alpha beta delta coefficient = .ok estimator →
    s.estimate alpha beta delta coefficient = (s, .error (.refused e))

theorem Session.refuses {e : LearnError} (h : s.ensureRunning = .error e) : s.Refuses e := by
  have check (procedure : Procedure) : s.check procedure = (s, .error (.refused e)) := by
    simp only [check, Checking.start, h]
    rfl
  refine ⟨fun tracesPerBlock blocks => ?_, fun theta threshold alpha beta test valid => ?_,
    fun alpha beta delta coefficient estimator valid => ?_⟩
  · simp only [learn, Learning.start, h]
    rfl
  · simp only [Session.test, valid, check]
  · simp only [estimate, valid, check]

-- ---------------------------------------------------------------------------
-- A stop
-- ---------------------------------------------------------------------------

theorem Session.settle_without_workers (empty : s.workers = []) : s.settle = (s, false) := by
  cases s
  cases empty
  rfl

theorem Session.stop_without_workers (empty : s.workers = []) :
    s.close = s ∧ s.join = .returns s (.ok []) ∧ s.stop = (s, []) := by
  have close : s.close = s := by simp [Session.close, empty]
  have join : s.join = .returns s (.ok []) := by
    cases s
    cases empty
    rfl
  refine ⟨close, join, ?_⟩
  have positive : patience = patience - 1 + 1 :=
    (Nat.succ_pred_eq_of_pos (Nat.two_pow_pos 62 : 0 < patience)).symm
  rw [stop, close, positive, complete, settle_without_workers empty]
  simp only [join]

structure Session.Stopped (s : Session) : Prop where
  empty : s.workers = []
  closed : s.shared.queue.shutdown = true
  sound : s.shared.queue.failure = none

def Activity.Closing (s : Session) : Activity → Prop
  | .stopping => s.workers ≠ [] → s.shared.queue.shutdown = true
  | _ => True

theorem Session.Stopped.start (h : s.Stopped) : s.start = (s, .error .stopped) := by
  simp [Session.start, h.empty, h.closed]

theorem Session.Stopped.refuses (h : s.Stopped) : s.Refuses .stopped :=
  Session.refuses (by simp [ensureRunning, h.sound, h.closed])

theorem System.Step.stopped (h : before.Step after) (stopped : before.session.Stopped) :
    after.session.Stopped := by
  cases h with
  | work place step =>
    obtain ⟨w, _, _, there, -⟩ := Session.stepWorker_eq_some step
    rw [show _ = [] from stopped.empty] at there
    cases there
  | coordinate step =>
    obtain ⟨failure, shutdown⟩ := step.keeps
    refine ⟨?_, shutdown stopped.closed, failure.trans stopped.sound⟩
    have empty := stopped.empty
    cases step with
    | start step =>
      rw [stopped.start] at step
      cases step
    | learn _ step =>
      obtain ⟨-, rfl, -⟩ := Learning.start_eq_ok step
      exact empty
    | learning step => rwa [(Learning.turn_of_step step).samePool.workers]
    | learned step => rwa [(Learning.end_of_step step).samePool.workers]
    | check step =>
      obtain ⟨-, rfl, -⟩ := Checking.start_eq_ok step
      exact empty
    | checking step => rwa [(Checking.turn_of_step step).samePool.workers]
    | checked step => rwa [(Checking.end_of_step step).samePool.workers]
    | determinise | setDeterministic => exact empty
    | close => rwa [(Session.stop_without_workers empty).1]
    | join step =>
      obtain ⟨-, rfl⟩ := Session.join_eq_returns step
      rfl

theorem Session.Stopped.leadsTo (stopped : before.session.Stopped) (leads : before.LeadsTo after) :
    after.session.Stopped := by
  induction leads with
  | refl => exact stopped
  | tail _ step ih => exact step.stopped ih

theorem Run.closing {system : System} (run : Run a system) :
    system.activity.Closing system.session := by
  induction run with
  | prepared => trivial
  | @work a s s' activity place run step ih =>
    cases activity with
    | stopping =>
      intro manned
      cases run.orderly.1.works step with
      | mk there move => exact move.shutdown (ih (by simpa using manned))
    | _ => trivial
  | @coordinate a before after run step ih =>
    cases step with
    | learned | checked => exact Activity.of_afterCall (P := (·.Closing _)) trivial trivial
    | @close s =>
      intro manned
      show s.close.shared.queue.shutdown = true
      rcases s.close_eq with ⟨empty, same⟩ | shut
      · rw [same] at manned
        exact absurd empty manned
      · rw [shut]
        rfl
    | _ => trivial

-- ---------------------------------------------------------------------------
-- Whatever follows
-- ---------------------------------------------------------------------------

theorem Run.keeps_failure (run : Run a before) (failed : before.session.shared.queue.failure = some e)
    (leads : before.LeadsTo after) :
    ∃ a', Run a' after ∧ after.session.shared.queue.failure = some e := by
  induction leads with
  | refl => exact ⟨a, run, failed⟩
  | tail _ step ih =>
    obtain ⟨a', run, failed⟩ := ih
    obtain ⟨a'', run'⟩ := run.step step
    refine ⟨a'', run', ?_⟩
    cases step with
    | work place step =>
      cases run.orderly.1.works step with
      | mk there move => exact move.keeps_failure failed
    | coordinate step => exact step.keeps.1.trans failed

/-- From a failure on, a step issues no job and grants none. -/
theorem Run.nothing_more {next : System} (run : Run a before)
    (failed : before.session.shared.queue.failure = some e) (h : before.Step next) :
    next.session.shared.queue.remaining ≤ before.session.shared.queue.remaining ∧
      next.session.shared.queue.active ≤ before.session.shared.queue.active := by
  have hm := run.orderly.1
  have closed := hm.failure (by simp [failed])
  cases h with
  | work place step =>
    cases hm.works step with
    | mk there move =>
      obtain ⟨remaining, active⟩ := move.takes_nothing closed
      exact ⟨remaining.le, active⟩
  | coordinate step => exact step.issues_nothing run failed

/-- In every run: a failure once recorded stays, whatever the workers do and whatever is called;
the queue stays closed, no job is issued or granted, and every call to learn or to check is refused
with that failure. Once a started pool is stopped without a failure, those calls and every start are
refused as stopped, for ever. To stop a pool that has no workers changes nothing. -/
theorem Run.first_failure_lasts (run : Run a before) :
    (∀ e, before.session.shared.queue.failure = some e → ∀ after, before.LeadsTo after →
      after.session.shared.queue.failure = some e ∧ after.session.shared.queue.shutdown = true ∧
      (∀ limit, after.session.shared.queue.request limit = (.closed, after.session.shared.queue)) ∧
      (∀ next, after.Step next →
        next.session.shared.queue.remaining ≤ after.session.shared.queue.remaining ∧
        next.session.shared.queue.active ≤ after.session.shared.queue.active) ∧
      after.session.Refuses (.workerFailed e)) ∧
    (∀ s s' traces, before = ⟨s, .stopping⟩ → s.workers ≠ [] → s.join = .returns s' traces →
      s'.shared.queue.failure = none → ∀ after, System.LeadsTo ⟨s', .resting⟩ after →
        after.session.shared.queue.failure = none ∧ after.session.shared.queue.shutdown = true ∧
        after.session.start = (after.session, .error .stopped) ∧ after.session.Refuses .stopped) ∧
    (before.session.workers = [] → before.session.close = before.session ∧
      before.session.join = .returns before.session (.ok []) ∧
      before.session.stop = (before.session, [])) := by
  refine ⟨fun e failed after leads => ?_, ?_, Session.stop_without_workers⟩
  · obtain ⟨a', run, failed⟩ := run.keeps_failure failed leads
    have closed := run.orderly.1.failure (by simp [failed])
    exact ⟨failed, closed, JobQueue.request_of_shutdown closed,
      fun next step => run.nothing_more failed step,
      Session.refuses (by simp [Session.ensureRunning, failed])⟩
  · rintro s s' traces rfl manned join sound after leads
    have closed : s.shared.queue.shutdown = true := run.closing manned
    obtain ⟨-, rfl⟩ := Session.join_eq_returns join
    have stopped : Session.Stopped { s with workers := [] } := ⟨rfl, closed, sound⟩
    have lasting := stopped.leadsTo leads
    exact ⟨lasting.sound, lasting.closed, lasting.start, lasting.refuses⟩

-- A model that knows none of its states, up to the failure of the only worker.
namespace Unmapped

open SchedulerLearning.Random (Generator)

def state : State := .ofVars []

def process : DecisionProcess Float := ⟨.ok state, fun s => .error (.refused (.unknownState s))⟩

def config : Config := { tracesPerBlock := 1, blocks := 1 }

def session (phase : Phase) (queue : JobQueue Batch) : Session where
  machine := Smallest.machine
  setup := ⟨process, Smallest.property, .uniform, state, 1, 50⟩
  config := config
  shared := ⟨queue, .empty, .empty, 0, 0, none⟩
  workers := [{ Worker.ofSeed (Generator.ofSeed 0).word.1 with phase }]
  overlay := none
  deterministic := false
  seeds := (Generator.ofSeed 0).word.2

def failed : Session := session .stopped ⟨0, 0, true, some (.unknownState state), .learning⟩

theorem learns : ∃ a, Run a ⟨failed, .learning ⟨1, 1, 50, none, 0, 1, true⟩⟩ := by
  have prepared : Run {} ⟨{ session .requesting (.ofContext .learning) with
      workers := [], seeds := .ofSeed 0 }, .resting⟩ :=
    .prepared (show Session.prepare process Smallest.property config Smallest.machine = _ from rfl)
  have started : Run _ ⟨session .requesting (.ofContext .learning), .resting⟩ :=
    prepared.coordinate (.start rfl)
  have begun : Run _ ⟨session .requesting (.ofContext .learning),
      .learning ⟨1, 1, 50, none, 0, 0, false⟩⟩ :=
    started.coordinate (.learn (by decide) (show Learning.start _ 1 1 = _ from rfl))
  have issued : Run _ ⟨session .requesting ⟨1, 0, false, none, .learning⟩,
      .learning ⟨1, 1, 50, none, 0, 1, true⟩⟩ :=
    begun.coordinate (.learning rfl)
  have claimed : Run _ ⟨session (.simulating ⟨1, .learning⟩ 1 (.start state))
      ⟨0, 1, false, none, .learning⟩, .learning ⟨1, 1, 50, none, 0, 1, true⟩⟩ :=
    issued.work 0 rfl
  have broken : Run _ ⟨session (.failing ⟨1, .learning⟩ (.unknownState state))
      ⟨0, 1, false, none, .learning⟩, .learning ⟨1, 1, 50, none, 0, 1, true⟩⟩ :=
    claimed.work 0 rfl
  exact ⟨_, broken.work 0 rfl⟩

-- The call under way ends with the failure, and the pool is stopped.
theorem stops : System.LeadsTo ⟨failed, .learning ⟨1, 1, 50, none, 0, 1, true⟩⟩
    ⟨{ failed with workers := [] }, .resting⟩ := by
  have ends : Learning.step failed ⟨1, 1, 50, none, 0, 1, true⟩ =
      .returns failed (.error (.refused (.workerFailed (.unknownState state)))) :=
    Learning.step_of_failed rfl rfl
  have ended : System.Step ⟨failed, .learning ⟨1, 1, 50, none, 0, 1, true⟩⟩ ⟨failed, .resting⟩ := by
    exact .coordinate (.learned ends)
  have closed : System.Step ⟨failed, .resting⟩ ⟨failed, .stopping⟩ :=
    .coordinate (.close (.inl rfl))
  have joined : System.Step ⟨failed, .stopping⟩ ⟨{ failed with workers := [] }, .resting⟩ :=
    .coordinate (.join rfl)
  exact ((Relation.ReflTransGen.single ended).tail closed).tail joined

end Unmapped

-- The smallest session, stopped right after its start.
namespace Smallest

def closed : Session := session .stopped 0 ⟨0, 0, true, none, .learning⟩ 0 none

theorem stopping : ∃ a, Run a ⟨closed, .stopping⟩ := by
  have shut : Run _ ⟨session .requesting 0 ⟨0, 0, true, none, .learning⟩ 0 none, .stopping⟩ :=
    started.coordinate (.close (.inl rfl))
  exact ⟨_, shut.work 0 rfl⟩

end Smallest

theorem Run.first_failure_lasts_of_unknown_state :
    (∃ a before after, Run a before ∧ before.LeadsTo after ∧ after.session.workers = [] ∧
      before.session.shared.queue.failure = some (.unknownState Unmapped.state) ∧
      after.session.Refuses (.workerFailed (.unknownState Unmapped.state))) ∧
    ∃ a s', Run a ⟨Smallest.closed, .stopping⟩ ∧ Smallest.closed.join = .returns s' (.ok [0]) ∧
      s'.start = (s', .error .stopped) ∧ s'.Refuses .stopped := by
  obtain ⟨a, failed⟩ := Unmapped.learns
  obtain ⟨lasts, -, -⟩ := Run.first_failure_lasts failed
  obtain ⟨-, -, -, -, refuses⟩ := lasts _ rfl _ Unmapped.stops
  obtain ⟨b, stopping⟩ := Smallest.stopping
  obtain ⟨-, stopped, -⟩ := Run.first_failure_lasts stopping
  obtain ⟨-, -, start, refuses'⟩ :=
    stopped Smallest.closed _ _ rfl (List.cons_ne_nil _ _) rfl rfl _ .refl
  exact ⟨⟨a, _, _, failed, Unmapped.stops, rfl, rfl, refuses⟩, b, _, stopping, rfl, start, refuses'⟩

end SchedulerLearning

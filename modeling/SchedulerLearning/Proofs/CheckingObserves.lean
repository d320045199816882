import SchedulerLearning.Proofs.BlockDelivery
import SchedulerLearning.Proofs.CheckingFrame
import SchedulerLearning.Proofs.CheckingProgress
import SchedulerLearning.Proofs.MostLikely

/-!
# Checking only observes

A check leaves rewards, counts, overlay and mixtures as they are, but for states that become known.
Where an overlay is in use, its choices are the most likely ones of the scheduler that it was made
of, whatever is drawn and whatever has become of that scheduler.
-/

namespace SchedulerLearning

open SchedulerLearning.Random (Generator)

-- ---------------------------------------------------------------------------
-- What the overlay was made of
-- ---------------------------------------------------------------------------

/-- The systems of a run, each with the scheduler that was made deterministic last. -/
inductive Recalls : Option (Scheduler Float) → System → Prop
  | prepared {process property config machine s}
      (step : Session.prepare process property config machine = .ok s) : Recalls none ⟨s, .resting⟩
  | work {base s s' activity} (place : Nat) (run : Recalls base ⟨s, activity⟩)
      (step : s.stepWorker place = some s') : Recalls base ⟨s', activity⟩
  | determinise {base s} (run : Recalls base ⟨s, .resting⟩) :
      Recalls (some s.shared.scheduler) ⟨s.determinise.1, .resting⟩
  | coordinate {base before after} (run : Recalls base before) (step : Coordinates before after)
      (kept : after.session.overlay = before.session.overlay) : Recalls base after

variable {s₀ s s' : Session} {a : Account} {base : Option (Scheduler Float)}
  {system before after : System} {procedure : Procedure} {c : Checking}

theorem Learning.Writes.overlay (h : Writes s s') : s'.overlay = s.overlay := by
  cases h <;> rfl

theorem Coordinates.overlay (h : Coordinates before after) :
    (∃ s, before = ⟨s, .resting⟩ ∧ after = ⟨s.determinise.1, .resting⟩) ∨
      after.session.overlay = before.session.overlay := by
  cases h with
  | determinise => exact .inl ⟨_, rfl, rfl⟩
  | start step =>
    obtain ⟨-, _, _, rfl, -⟩ := Session.start_eq_ok step
    exact .inr rfl
  | learn _ step =>
    obtain ⟨-, rfl, -⟩ := Learning.start_eq_ok step
    exact .inr rfl
  | @learning s _ l _ step => exact .inr ((Learning.step_writes s l).of_continues step).overlay
  | @learned s _ l _ step => exact .inr ((Learning.step_writes s l).of_returns step).overlay
  | check step =>
    obtain ⟨-, rfl, -⟩ := Checking.start_eq_ok step
    exact .inr rfl
  | @checking s _ c _ step => exact .inr ((Checking.step_writes s c).of_continues step).untouched.overlay
  | checked step => exact .inr (Checking.untouched_of_returns step).overlay
  | setDeterministic => exact .inr rfl
  | @close s =>
    refine .inr (show s.close.overlay = s.overlay from ?_)
    unfold Session.close
    split <;> rfl
  | join step =>
    obtain ⟨-, rfl⟩ := Session.join_eq_returns step
    exact .inr rfl

namespace Recalls

theorem run (h : Recalls base system) : ∃ a, Run a system := by
  induction h with
  | prepared step => exact ⟨_, .prepared step⟩
  | work place _ step ih =>
    obtain ⟨a, run⟩ := ih
    exact ⟨_, run.work place step⟩
  | determinise _ ih =>
    obtain ⟨a, run⟩ := ih
    exact ⟨_, run.coordinate .determinise⟩
  | coordinate _ step _ ih =>
    obtain ⟨a, run⟩ := ih
    exact ⟨_, run.coordinate step⟩

theorem overlay (h : Recalls base system) :
    system.session.overlay = base.map Scheduler.determinise := by
  induction h with
  | prepared step =>
    obtain ⟨_, _, _, -, -, -, rfl⟩ := Session.prepare_eq step
    rfl
  | work place _ step ih =>
    obtain ⟨w, _, _, -, -, rfl⟩ := Session.stepWorker_eq_some step
    exact ih
  | determinise => rfl
  | coordinate _ _ kept ih => exact kept.trans ih

theorem several {p : Scheduler Float} {t : State} {mixture : Mixture Float}
    (h : Recalls (some p) system) (known : p.get? t = some mixture) : 2 ≤ mixture.size := by
  generalize found : some p = base at h
  induction h with
  | prepared => cases found
  | work _ _ _ ih => exact ih found
  | determinise run =>
    cases found
    obtain ⟨a, run⟩ := run.run
    exact (run.drawn.agrees.stores.scheduler t mixture known).1
  | coordinate _ _ _ ih => exact ih found

end Recalls

theorem Run.recalls (run : Run a system) : ∃ base, Recalls base system := by
  induction run with
  | prepared step => exact ⟨none, .prepared step⟩
  | work place _ step ih =>
    obtain ⟨base, recalls⟩ := ih
    exact ⟨base, recalls.work place step⟩
  | coordinate _ step ih =>
    obtain ⟨base, recalls⟩ := ih
    rcases step.overlay with ⟨s, rfl, rfl⟩ | kept
    · exact ⟨_, recalls.determinise⟩
    · exact ⟨base, recalls.coordinate step kept⟩

-- ---------------------------------------------------------------------------
-- States that the overlay covers
-- ---------------------------------------------------------------------------

namespace Worker

variable {setup : Setup} {shared : Shared} {w : Worker} {holding : Holding} {left choice : Nat}
  {t : Trace} {offers : List (Distribution Float)}

theorem take_redrawn (choosing : Generator) (p : Phase) :
    take { w with choosing, phase := p } holding left t offers choice =
      { w.take holding left t offers choice with choosing } := by
  unfold take advance
  split
  · rfl
  · simp only
    split <;> rfl

/-- Where the overlay of a grant covers a state, its choice is taken whatever is drawn. -/
theorem step_of_covered (simulating : w.phase = .simulating holding (left + 1) t)
    (turn : setup.process.turn t = .ok (.among offers))
    (covered : holding.batch.overlay.bind (·.choice? t.last) = some choice) (choosing : Generator) :
    Worker.step setup shared { w with choosing } =
      some (shared, { w.take holding left t offers choice with choosing := choosing.unit.2 }) := by
  have ready : ({ w with choosing } : Worker).ready shared = true := by simp [ready, simulating]
  rw [step, if_pos ready]
  simp only [act, simulating, leave, explore, turn, covered, take_redrawn]

end Worker

/-- Whether a session resolves each state that a scheduler knows to the most likely choice that this
one has, whatever is drawn, and changes nothing that is shared by it. -/
def Session.Follows (s : Session) (p : Scheduler Float) : Prop :=
  ∀ t mixture, p.get? t = some mixture →
    mixture.Prefers mixture.mostLikely ∧
    (∀ count x, s.shared.scheduler.choose s.overlay t count x =
      (s.shared.scheduler, .ok mixture.mostLikely)) ∧
    ∀ w ∈ s.workers, ∀ holding left trace offers, w.phase = .simulating holding (left + 1) trace →
      trace.last = t → s.setup.process.turn trace = .ok (.among offers) → ∀ choosing,
        Worker.step s.setup s.shared { w with choosing } =
          some (s.shared, { w.take holding left trace offers mixture.mostLikely with
            choosing := choosing.unit.2 })

theorem Checking.Calls.follows {p : Scheduler Float} (call : Calls s₀ procedure s c)
    (recalls : Recalls (some p) ⟨s₀, .resting⟩) (active : s₀.deterministic = true) :
    s.Follows p := by
  intro t mixture known
  obtain ⟨a, run⟩ := recalls.run
  have observes := call.observes run
  have overlay : s₀.overlay = some p.determinise := recalls.overlay
  refine ⟨mixture.prefers_mostLikely (recalls.several known), fun count x => ?_, ?_⟩
  · simp [Scheduler.choose, observes.untouched.overlay, overlay, Scheduler.choice?_determinise, known]
  · rintro w hw holding left trace offers simulating rfl turn choosing
    have batch : holding.batch = s₀.observing := (observes.workers w hw).batch (by rw [simulating]; rfl)
    have covered : holding.batch.overlay.bind (·.choice? trace.last) = some mixture.mostLikely := by
      simp [batch, Session.observing, active, overlay, Scheduler.choice?_determinise, known]
    exact Worker.step_of_covered simulating turn covered choosing

-- ---------------------------------------------------------------------------
-- The end of a call
-- ---------------------------------------------------------------------------

/-- Whether each later call to learn credits what its own traces call for, and nothing else: the
account of a block begins with the block. -/
def Session.LearnsApart (s : Session) : Prop :=
  ∀ s₀, System.LeadsTo ⟨s, .resting⟩ ⟨s₀, .resting⟩ →
    ∀ tracesPerBlock blocks chronicle s' l, tracesPerBlock < Word.size →
      Learning.Calls s₀ tracesPerBlock blocks chronicle s' l → s'.Healthy →
        Rewards.empty.creditAll chronicle.account.credited = (s'.shared.rewards, .ok ()) ∧
          chronicle.account.credited.Subperm (chronicle.account.simulated.flatMap s'.setup.owed)

theorem Run.learnsApart (run : Run a ⟨s, .resting⟩) : s.LearnsApart := by
  intro s₀ leads tracesPerBlock blocks chronicle s' l word call healthy
  obtain ⟨_, run⟩ := run.leadsTo leads
  have kept : l.Kept chronicle.account s' := (call.run run word).kept
  have books := kept.books healthy
  exact ⟨books.rewards, books.credited_subperm⟩

theorem Checking.idle_of_returns {outcome : Outcome} (returns : step s c = .returns s' (.ok outcome))
    (sound : s'.shared.queue.failure = none) :
    s'.shared.queue.remaining = 0 ∧ s'.shared.queue.active = 0 := by
  generalize same : (.ok outcome : Except (Stop LearnError) Outcome) = result at returns
  cases end_of_step returns with
  | drained _ idle =>
    have sound : s.shared.queue.failure = none := sound
    have out : s.shared.queue.remaining = 0 ∧ s.shared.queue.active = 0 := by
      simpa [sound] using JobQueue.idle_iff.mp idle
    exact out
  | faulted => cases same

/-- At any point of a check that began in a run, in any order of the workers' steps, the rewards, the
counts and the overlay are as they were before it, and so is each mixture there was; each new one is
uniform over the choices of its state. Every grant carries the batch of the check. Where an overlay
is in use, it is of the scheduler that was made deterministic last, and each state which that one
knew is resolved to its most likely choice, whatever is drawn. All this holds too of what the check
returns with; and if that is a result, and no worker has failed, no job is left or out, and whatever
is learnt later is credited for its own traces alone. -/
theorem Run.checking_observes (run : Run a ⟨s₀, .resting⟩) (call : Checking.Calls s₀ procedure s c) :
    s₀.Untouched s ∧
    (∀ w ∈ s.workers, w.phase.Carries s₀.observing) ∧
    (∃ base, Recalls base ⟨s₀, .resting⟩ ∧ s₀.overlay = base.map Scheduler.determinise) ∧
    (∀ p, Recalls (some p) ⟨s₀, .resting⟩ → s₀.deterministic = true → s.Follows p) ∧
    ∀ s' result, Checking.step s c = .returns s' result →
      s₀.Untouched s' ∧
      ∀ outcome, result = .ok outcome → s'.shared.queue.failure = none →
        s'.shared.queue.remaining = 0 ∧ s'.shared.queue.active = 0 ∧ s'.LearnsApart := by
  have observes := call.observes run
  obtain ⟨base, recalls⟩ := run.recalls
  refine ⟨observes.untouched, observes.workers, ⟨base, recalls, recalls.overlay⟩,
    fun p recalls active => call.follows recalls active, fun s' result returns => ⟨?_, ?_⟩⟩
  · exact observes.untouched.trans (Checking.untouched_of_returns returns)
  · rintro outcome rfl sound
    obtain ⟨a', run'⟩ := call.run run
    have rests : Run _ ⟨s', .resting⟩ := run'.coordinate (.checked returns)
    obtain ⟨remaining, active⟩ := Checking.idle_of_returns returns sound
    exact ⟨remaining, active, rests.learnsApart⟩

-- A test that takes one verdict.
namespace Smallest

def test : Procedure := .testing ⟨0.5, 1000, 0.5, 0.5, 1, 1, 1, 0, 0⟩

theorem test_decides : ∃ outcome, (test.observe true).2 = some outcome := by
  rw [← Option.isSome_iff_exists]
  simp [test, Procedure.observe, HypothesisTest.observe, HypothesisTest.decision?,
    HypothesisTest.settles?, HypothesisTest.record]
  split <;> rfl

end Smallest

-- A check of a state with two choices, by one verdict, after another one that made it known.
namespace Fork

def watching (w : Worker) (queue : JobQueue Batch) (scheduler : Scheduler Float)
    (overlay : Option Overlay) (channel : Option (Channel Report)) : Session where
  machine := Smallest.machine
  setup := ⟨process, Smallest.property, .uniform, state, 1, 50⟩
  config := Smallest.config
  shared := ⟨queue, scheduler, .empty, 0, 0, channel⟩
  workers := [w]
  overlay := overlay
  deterministic := overlay.isSome
  seeds := (Generator.ofSeed 0).word.2

def opened : Option (Channel Report) := some (.ofRoom 2)

def busy (batch : Batch) : JobQueue Batch := ⟨0, 1, false, none, batch⟩

def hearing : Activity := .checking ⟨Smallest.test, 1, 0, .receiving⟩

def known : Scheduler Float := (Scheduler.empty.enter state 2).1

theorem get?_known : known.get? state = some (.uniform 2) := by
  have unknown : (Scheduler.empty : Scheduler Float).get? state = none :=
    Std.HashMap.getElem?_empty
  simp [known, Scheduler.get?_enter, unknown]

theorem takes (w : Worker) (holding : Holding) (x : Float) :
    ∃ choice branching, w.take holding 0 (.start state) offers (known.sample state x) =
      { w with branching, phase := .simulating holding 0 ((Trace.start state).push choice 2 state) } := by
  have offered : process.Offers state 2 := ⟨le_rfl, offers, rfl, rfl⟩
  have empty : (Scheduler.empty : Scheduler Float).Fits process := by
    intro t mixture found
    simp [Scheduler.get?, Scheduler.empty] at found
  obtain ⟨choice, sampled, inRange⟩ := (empty.enter offered).sample offered Scheduler.contains_enter x
  have sampled : known.sample state x = choice := by simp [Scheduler.sample, known, sampled]
  have chosen : DecisionProcess.chosen offers choice = .ok [(1, state)] := by
    obtain rfl | rfl : choice = 0 ∨ choice = 1 := by omega
    · rfl
    · rfl
  have drawn (y : Float) : Distribution.pick? y [(1, state)] = some state := by
    unfold Distribution.pick? Distribution.pickFrom
    split <;> rfl
  refine ⟨choice, (Generator.source.unit w.branching).2, ?_⟩
  rw [sampled]
  simp only [Worker.take, chosen, Worker.advance, DecisionProcess.follow, drawn]
  rfl

-- The first check: one job, whose only choice makes the state known, and one verdict.
theorem watched : ∃ w : Worker, Recalls none
    ⟨watching { w with phase := .requesting } (.ofContext .learning) known none none, .resting⟩ := by
  have prepared : Recalls none ⟨{ watching worker (.ofContext .learning) .empty none none with
      workers := [], seeds := .ofSeed 0 }, .resting⟩ :=
    .prepared (show Session.prepare process Smallest.property Smallest.config Smallest.machine = _ from rfl)
  have started : Recalls none ⟨watching worker (.ofContext .learning) .empty none none, .resting⟩ :=
    prepared.coordinate (.start rfl) rfl
  have begun : Recalls none ⟨watching worker (.ofContext Batch.ofVerdicts) .empty none opened,
      .checking ⟨Smallest.test, 0, 0, .looking⟩⟩ :=
    started.coordinate (.check rfl) rfl
  have issued : Recalls none
      ⟨watching worker ⟨1, 0, false, none, Batch.ofVerdicts⟩ .empty none opened, hearing⟩ :=
    begun.coordinate (.checking rfl) rfl
  have claimed : Recalls none ⟨watching
      { worker with phase := .simulating ⟨1, Batch.ofVerdicts⟩ 1 (.start state) }
      (busy Batch.ofVerdicts) .empty none opened, hearing⟩ :=
    issued.work 0 rfl
  have unknown : (Scheduler.empty : Scheduler Float).contains state = false := by
    simp [Scheduler.contains, Scheduler.empty]
  have explored : Recalls none ⟨watching
      { worker with
        choosing := worker.choosing.unit.2
        phase := .entering ⟨1, Batch.ofVerdicts⟩ 0 (.start state) offers worker.choosing.unit.1 }
      (busy Batch.ofVerdicts) .empty none opened, hearing⟩ := by
    refine claimed.work 0 ?_
    simp only [watching, Session.stepWorker, Worker.step, Worker.ready, Worker.act,
      List.getElem?_cons_zero, Option.bind_eq_bind, Option.bind_some, if_true]
    rw [Worker.explore_unknown rfl rfl unknown]
    rfl
  have entered : Recalls none ⟨watching
      { worker with
        choosing := worker.choosing.unit.2
        phase := .sampling ⟨1, Batch.ofVerdicts⟩ 0 (.start state) offers worker.choosing.unit.1 }
      (busy Batch.ofVerdicts) known none opened, hearing⟩ :=
    explored.work 0 rfl
  obtain ⟨choice, branching, took⟩ := takes
    { worker with choosing := worker.choosing.unit.2, phase := .requesting }
    ⟨1, Batch.ofVerdicts⟩ worker.choosing.unit.1
  have taken : Recalls none ⟨watching
      { worker with
        branching
        choosing := worker.choosing.unit.2
        phase := .simulating ⟨1, Batch.ofVerdicts⟩ 0 ((Trace.start state).push choice 2 state) }
      (busy Batch.ofVerdicts) known none opened, hearing⟩ :=
    entered.work 0
      (congrArg (fun w => some (watching w (busy Batch.ofVerdicts) known none opened)) took)
  have judged : Recalls none ⟨watching
      { worker with
        branching
        choosing := worker.choosing.unit.2
        traces := 1
        phase := .delivering ⟨1, Batch.ofVerdicts⟩ [] false (.initially true) }
      (busy Batch.ofVerdicts) known none opened, hearing⟩ :=
    taken.work 0 rfl
  have sent : Recalls none ⟨watching
      { worker with branching, choosing := worker.choosing.unit.2, traces := 1, phase := .requesting }
      (.ofContext Batch.ofVerdicts) known none (some ⟨[], [.ok (.initially true)], 1⟩), hearing⟩ :=
    judged.work 0 rfl
  obtain ⟨outcome, decided⟩ := Smallest.test_decides
  have observed : Smallest.test.observe true = ((Smallest.test.observe true).1, some outcome) :=
    Prod.ext rfl decided
  have received (w : Worker) : Checking.step (watching w (.ofContext Batch.ofVerdicts) known none
      (some ⟨[], [.ok (.initially true)], 1⟩)) ⟨Smallest.test, 1, 0, .receiving⟩ =
        .continues (watching w (.ofContext Batch.ofVerdicts) known none opened)
          ⟨(Smallest.test.observe true).1, 1, 1, .withdrawing (.ok outcome)⟩ := by
    simp only [Checking.step, Checking.receive, watching, Channel.receive?, Option.bind,
      List.reverse_cons, List.reverse_nil, List.nil_append, Verdict.initially]
    rw [observed]
    rfl
  have decides : Recalls none ⟨watching _ (.ofContext Batch.ofVerdicts) known none opened,
      .checking ⟨(Smallest.test.observe true).1, 1, 1, .withdrawing (.ok outcome)⟩⟩ :=
    sent.coordinate (.checking (received _)) rfl
  have withdrawn : Recalls none ⟨watching _ (.ofContext Batch.ofVerdicts) known none opened,
      .checking ⟨(Smallest.test.observe true).1, 1, 1, .draining (.ok outcome)⟩⟩ :=
    decides.coordinate (.checking rfl) rfl
  have returned : Recalls none ⟨watching _ (.ofContext .learning) known none none,
      .afterCall (.ok outcome : Except (Stop LearnError) Outcome)⟩ :=
    withdrawn.coordinate (.checked rfl) rfl
  exact ⟨{ worker with branching, choosing := worker.choosing.unit.2, traces := 1 }, returned⟩

def covering : Batch := ⟨.verdicts, some known.determinise⟩

def covered (w : Worker) (queue : JobQueue Batch) (channel : Option (Channel Report)) : Session :=
  watching w queue known (some known.determinise) channel

-- The second check, up to the choice that the overlay makes.
theorem claims (w : Worker) : Checking.Calls
    (covered { w with phase := .requesting } (.ofContext .learning) none) Smallest.test
    (covered { w with phase := .simulating ⟨1, covering⟩ 1 (.start state) } (busy covering) opened)
    ⟨Smallest.test, 1, 0, .receiving⟩ := by
  have begun : Checking.Calls (covered { w with phase := .requesting } (.ofContext .learning) none)
      Smallest.test (covered { w with phase := .requesting } (.ofContext covering) opened)
      ⟨Smallest.test, 0, 0, .looking⟩ :=
    .start rfl
  have issued : Checking.Calls (covered { w with phase := .requesting } (.ofContext .learning) none)
      Smallest.test (covered { w with phase := .requesting } ⟨1, 0, false, none, covering⟩ opened)
      ⟨Smallest.test, 1, 0, .receiving⟩ :=
    begun.turn rfl
  exact issued.work 0 rfl

end Fork

theorem Run.checking_observes_of_two_choices :
    ∃ s₀ s c w, Checking.Calls s₀ Smallest.test s c ∧ s₀.Untouched s ∧
      s₀.overlay = some Fork.known.determinise ∧ w ∈ s.workers ∧
      w.phase = .simulating ⟨1, Fork.covering⟩ 1 (.start Fork.state) ∧
      ∃ choice, (Mixture.uniform 2 : Mixture Float).Prefers choice ∧
        ∀ choosing, Worker.step s.setup s.shared { w with choosing } =
          some (s.shared, { w.take ⟨1, Fork.covering⟩ 0 (.start Fork.state) Fork.offers choice with
            choosing := choosing.unit.2 }) := by
  obtain ⟨w, watched⟩ := Fork.watched
  have switched : Recalls (some Fork.known)
      ⟨Fork.covered { w with phase := .requesting } (.ofContext .learning) none, .resting⟩ :=
    watched.determinise.coordinate (show Coordinates _ ⟨Session.setDeterministic _ true, _⟩
      from .setDeterministic) rfl
  obtain ⟨a, run⟩ := switched.run
  have claims := Fork.claims w
  obtain ⟨untouched, -, -, follows, -⟩ := Run.checking_observes run claims
  obtain ⟨prefers, -, steps⟩ := follows _ switched rfl _ _ Fork.get?_known
  have working := List.mem_singleton_self
    ({ w with phase := .simulating ⟨1, Fork.covering⟩ 1 (.start Fork.state) } : Worker)
  exact ⟨_, _, _, _, claims, untouched, rfl, working, rfl, _, prefers,
    steps _ working _ _ _ _ rfl rfl rfl⟩

end SchedulerLearning

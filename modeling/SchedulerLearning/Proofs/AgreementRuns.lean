import SchedulerLearning.Proofs.ChoiceAgreement
import SchedulerLearning.Proofs.Manning

/-!
# All stores agree in every run

Whatever a session is called for, in whatever order its workers step, and whatever they draw.
-/

namespace SchedulerLearning

open SchedulerLearning.Random (Generator)

variable {s s' : Session}

structure Session.Agrees (s : Session) : Prop where
  stores : s.shared.Fits s.setup
  overlay : ∀ o, s.overlay = some o → o.Fits s.setup.process
  workers : ∀ w ∈ s.workers, w.phase.Fits s.setup s.shared.scheduler

namespace Session.Agrees

-- ---------------------------------------------------------------------------
-- One step
-- ---------------------------------------------------------------------------

theorem work {place : Nat} (h : s.Agrees) (step : s.stepWorker place = some s') : s'.Agrees := by
  obtain ⟨w, there, -, rfl⟩ := act_of_stepWorker step
  have kept := Worker.act_keeps h.stores (h.workers w (List.mem_of_getElem? there))
  exact ⟨kept.stores, h.overlay, forall_mem_set (fun v hv => (h.workers v hv).mono kept.grows)
    kept.phase⟩

theorem withJobs (h : s.Agrees) (count : Nat) : (s.withJobs count).Agrees :=
  ⟨⟨h.stores.scheduler, h.stores.rewards, h.stores.context, h.stores.failure⟩, h.overlay, h.workers⟩

theorem withChannel (h : s.Agrees) (channel : Option (Channel Report)) :
    (s.withChannel channel).Agrees :=
  ⟨⟨h.stores.scheduler, h.stores.rewards, h.stores.context, h.stores.failure⟩, h.overlay, h.workers⟩

theorem withContext {b : Batch} (h : s.Agrees) (hb : b.Fits s.setup.process) :
    (s.withContext b).Agrees :=
  ⟨⟨h.stores.scheduler, h.stores.rewards, hb, h.stores.failure⟩, h.overlay, h.workers⟩

theorem resetCounts (h : s.Agrees) : s.resetCounts.Agrees :=
  ⟨⟨h.stores.scheduler, h.stores.rewards, h.stores.context, h.stores.failure⟩, h.overlay, h.workers⟩

theorem resetRewards (h : s.Agrees) : s.resetRewards.Agrees :=
  ⟨⟨h.stores.scheduler, .empty, h.stores.context, h.stores.failure⟩, h.overlay, h.workers⟩

theorem entries_offered (h : s.Agrees) :
    ∀ entry ∈ s.shared.rewards.states.toList, s.setup.process.Offers entry.1 entry.2.length := by
  rintro ⟨t, ts⟩ listed
  exact (h.stores.rewards t ts (Std.HashMap.mem_toList_iff_getElem?_eq_some.mp listed)).1

theorem update (h : s.Agrees) (rule : UpdateRule) (w : UpdateWeights Float) :
    Agrees { s with shared := { s.shared with
      scheduler := (s.shared.scheduler.update rule w s.shared.rewards).scheduler } } := by
  obtain ⟨fits, grows, -⟩ :=
    h.stores.scheduler.updateEach rule w h.entries_offered
  exact ⟨⟨fits, h.stores.rewards.mono grows, h.stores.context, h.stores.failure⟩, h.overlay,
    fun w hw => (h.workers w hw).mono grows⟩

theorem learning (h : s.Agrees) (writes : Learning.Writes s s') : s'.Agrees := by
  have renewed : s.renewed.Agrees := h.resetCounts.update s.config.rule s.config.weights
  cases writes with
  | nothing => exact h
  | jobs count => exact h.withJobs count
  | discard => exact h.resetCounts.resetRewards
  | fault => exact renewed
  | update => exact renewed.resetRewards

theorem checking (h : s.Agrees) (writes : Checking.Writes s s') : s'.Agrees := by
  cases writes with
  | nothing => exact h
  | jobs count => exact h.withJobs count
  | channel channel => exact h.withChannel channel

end Session.Agrees

theorem Coordinates.agrees {before after : System} (h : Coordinates before after)
    (agrees : before.session.Agrees) : after.session.Agrees := by
  have learning : Batch.learning.Fits before.session.setup.process :=
    ⟨by rintro _ ⟨⟩, fun _ => rfl⟩
  cases h with
  | start step =>
    obtain ⟨-, workers, seeds, rfl, requesting⟩ := Session.start_eq_ok step
    refine ⟨agrees.stores, agrees.overlay, fun w hw => ?_⟩
    rw [requesting w hw]
    trivial
  | learn _ step =>
    obtain ⟨-, rfl, -⟩ := Learning.start_eq_ok step
    exact (agrees.withContext learning).resetRewards.resetCounts
  | @learning s _ l _ step => exact agrees.learning ((Learning.step_writes s l).of_continues step)
  | @learned s _ l _ step => exact agrees.learning ((Learning.step_writes s l).of_returns step)
  | check step =>
    obtain ⟨-, rfl, -⟩ := Checking.start_eq_ok step
    refine (agrees.withContext ⟨fun o active => ?_, by rintro ⟨⟩⟩).withChannel _
    simp only [Session.observing] at active
    split at active
    · exact agrees.overlay o active
    · cases active
  | @checking s _ c _ step => exact agrees.checking ((Checking.step_writes s c).of_continues step)
  | @checked s _ c _ step =>
    rcases (Checking.step_writes s c).of_returns step with writes | rfl
    · exact agrees.checking writes
    · exact (agrees.withContext learning).withChannel none
  | determinise =>
    refine ⟨agrees.stores, ?_, agrees.workers⟩
    rintro _ ⟨⟩
    exact agrees.stores.scheduler.determinise
  | setDeterministic => exact ⟨agrees.stores, agrees.overlay, agrees.workers⟩
  | @close s =>
    show s.close.Agrees
    unfold Session.close
    split
    · exact agrees
    · exact ⟨⟨agrees.stores.scheduler, agrees.stores.rewards, agrees.stores.context,
        agrees.stores.failure⟩, agrees.overlay, agrees.workers⟩
  | join step =>
    obtain ⟨-, rfl⟩ := Session.join_eq_returns step
    exact ⟨agrees.stores, agrees.overlay, by simp⟩

-- ---------------------------------------------------------------------------
-- Any number of steps
-- ---------------------------------------------------------------------------

/-- The systems that a session can come to, whatever its workers draw. -/
inductive Drawn : System → Prop
  | prepared {process property config machine s}
      (step : Session.prepare process property config machine = .ok s) : Drawn ⟨s, .resting⟩
  | work {s s' activity} (place : Nat) (run : Drawn ⟨s, activity⟩)
      (step : s.stepWorker place = some s') : Drawn ⟨s', activity⟩
  | coordinate {before after} (run : Drawn before) (step : Coordinates before after) : Drawn after
  | redraw {s w activity} (place : Nat) (branching choosing : Generator) (run : Drawn ⟨s, activity⟩)
      (there : s.workers[place]? = some w) :
      Drawn ⟨{ s with workers := s.workers.set place { w with branching, choosing } }, activity⟩

theorem Run.drawn {a : Account} {system : System} (run : Run a system) : Drawn system := by
  induction run with
  | prepared step => exact .prepared step
  | work place _ step ih => exact .work place ih step
  | coordinate _ step ih => exact .coordinate ih step

theorem Session.prepare_eq {process : DecisionProcess Float} {property : Property} {config : Config}
    {machine : Machine} (prepared : prepare process property config machine = .ok s) :
    ∃ length initial seeds, Word.add property.required 1 = .ok length ∧ process.initial = .ok initial ∧
      seeds = Generator.ofSeed (config.seed.getD machine.entropy) ∧
      s = ⟨machine, ⟨process, property, config.attribution, initial, length, config.jobsPerRequest⟩,
        config, ⟨.ofContext .learning, .empty, .empty, 0, 0, none⟩, [], none, false, seeds⟩ := by
  unfold prepare at prepared
  obtain ⟨⟨⟩, -, prepared⟩ := bind_eq_ok.mp prepared
  obtain ⟨length, hl, prepared⟩ := bind_eq_ok.mp prepared
  obtain ⟨initial, hi, prepared⟩ := bind_eq_ok.mp prepared
  obtain ⟨scheduler, unknown, prepared⟩ := bind_eq_ok.mp prepared
  obtain ⟨rewards, unrewarded, prepared⟩ := bind_eq_ok.mp prepared
  replace unknown := mapError_eq_ok.mp unknown
  replace unrewarded := mapError_eq_ok.mp unrewarded
  unfold Scheduler.withRoom at unknown
  unfold Rewards.withRoom at unrewarded
  split at unknown <;> cases unknown
  split at unrewarded <;> cases unrewarded
  cases prepared
  exact ⟨length, initial, _, mapError_eq_ok.mp hl, mapError_eq_ok.mp hi, rfl, rfl⟩

theorem Drawn.agrees {system : System} (run : Drawn system) : system.session.Agrees := by
  induction run with
  | prepared step =>
    obtain ⟨length, initial, seeds, -, -, -, rfl⟩ := Session.prepare_eq step
    refine ⟨⟨?_, .empty, ⟨by rintro _ ⟨⟩, fun _ => rfl⟩, by rintro _ ⟨⟩⟩, by rintro _ ⟨⟩, by simp⟩
    intro t mixture known
    simp [Scheduler.get?, Scheduler.empty] at known
  | work place _ step ih => exact ih.work step
  | coordinate _ step ih => exact step.agrees ih
  | redraw place branching choosing _ there ih =>
    have same := ih.workers _ (List.mem_of_getElem? there)
    exact ⟨ih.stores, ih.overlay, forall_mem_set ih.workers same⟩

def Phase.error? : Phase → Option (ModelError Float)
  | .failing _ error | .reporting error => some error
  | _ => none

theorem Phase.Fits.error {setup : Setup} {p : Scheduler Float} {q : Phase} {error : ModelError Float}
    (h : q.Fits setup p) (met : q.error? = some error) : setup.Excuses error := by
  cases q with
  | failing =>
    cases met
    exact h.2
  | reporting =>
    cases met
    exact h
  | _ => cases met

theorem Phase.Fits.credits {setup : Setup} {p : Scheduler Float} {q : Phase} (h : q.Fits setup p) :
    ∀ c ∈ q.credits, c.Fits setup.process p := by
  cases q with
  | delivering => exact h.2
  | _ => simp [Phase.credits]

/-- In every run, whatever is drawn: mixtures and counters have as many entries as their states
have choices, which are at least two, the states with rewards are known to the scheduler, and every
overlay in use chooses what there is. So a choice that a worker comes to resolve is found by the
scheduler or the overlay, and can be taken; no failure is about a choice out of range, unless the
model or the property raised it; every addition is in range; and no update is stopped by anything
but an overflow. -/
theorem Drawn.choices_agree {system : System} (run : Drawn system) :
    let s := system.session
    let m := s.setup.process
    (∀ t mixture, s.shared.scheduler.get? t = some mixture → m.Offers t mixture.size) ∧
    (∀ (t : State) ts, s.shared.rewards.states[t]? = some ts →
      m.Offers t ts.length ∧ s.shared.scheduler.contains t = true) ∧
    (∀ o, (s.overlay = some o ∨ s.shared.queue.context.overlay = some o ∨
        ∃ w ∈ s.workers, ∃ holding, w.phase.holding? = some holding ∧
          holding.batch.overlay = some o) →
      ∀ t choice, o.choice? t = some choice → ∃ n, m.Offers t n ∧ choice < n) ∧
    (∀ w ∈ s.workers, ∀ holding left t offers x, w.phase = .sampling holding left t offers x →
      ∀ y, ∃ choice branches, s.shared.scheduler.sample? t.last y = some choice ∧
        DecisionProcess.chosen offers choice = .ok branches) ∧
    (∀ w ∈ s.workers, ∀ holding left t offers, w.phase = .simulating holding left t →
      m.turn t = .ok (.among offers) →
      ∀ choice, holding.batch.overlay.bind (·.choice? t.last) = some choice →
        ∃ branches, DecisionProcess.chosen offers choice = .ok branches) ∧
    (∀ error, (s.shared.queue.failure = some error ∨ ∃ w ∈ s.workers, w.phase.error? = some error) →
      ∀ choice available, error = .invalidChoice choice available → s.setup.Raises error) ∧
    (∀ w ∈ s.workers, ∃ r, s.shared.rewards.creditAll w.phase.credits = (r, .ok ())) ∧
    (∀ w ∈ s.workers, ∀ c ∈ w.phase.credits, ∃ r, s.shared.rewards.credit c = (r, .ok ())) ∧
    ∀ rule weights fault,
      (s.shared.scheduler.update rule weights s.shared.rewards).fault = some fault →
        ∃ operation, fault = .overflow operation := by
  have agrees := run.agrees
  generalize system.session = s at agrees
  have chosen : ∀ (offers : List (Distribution Float)) choice, choice < offers.length →
      ∃ branches, DecisionProcess.chosen offers choice = .ok branches := by
    intro offers choice inRange
    exact ⟨offers[choice], by simp [DecisionProcess.chosen, inRange]⟩
  refine ⟨agrees.stores.scheduler, agrees.stores.rewards, ?_, ?_, ?_, ?_, ?_, ?_, ?_⟩
  · rintro o (kept | next | ⟨w, hw, holding, held, carried⟩)
    · exact agrees.overlay o kept
    · exact agrees.stores.context.overlay o next
    · exact ((agrees.workers w hw).batch held).overlay o carried
  · intro w hw holding left t offers x sampling y
    have fits := agrees.workers w hw
    rw [sampling] at fits
    obtain ⟨-, -, turn, known⟩ := fits
    obtain ⟨choice, sampled, inRange⟩ :=
      agrees.stores.scheduler.sample (DecisionProcess.offers_of_turn turn) known y
    obtain ⟨branches, taken⟩ := chosen offers choice inRange
    exact ⟨choice, branches, sampled, taken⟩
  · intro w hw holding left t offers simulating turn choice covered
    obtain ⟨o, active, covered⟩ := Option.bind_eq_some_iff.mp covered
    have fits : holding.batch.Fits s.setup.process :=
      (agrees.workers w hw).batch (by rw [simulating]; rfl)
    obtain ⟨n, offered, inRange⟩ := fits.overlay o active t.last choice covered
    rw [offered.unique (DecisionProcess.offers_of_turn turn)] at inRange
    exact chosen offers choice inRange
  · rintro error (recorded | ⟨w, hw, met⟩)
    · exact agrees.stores.failure error recorded
    · exact (agrees.workers w hw).error met
  · intro w hw
    obtain ⟨r, credited, -⟩ := agrees.stores.rewards.creditAll (agrees.workers w hw).credits
    exact ⟨r, credited⟩
  · intro w hw c hc
    obtain ⟨r, credited, -⟩ := agrees.stores.rewards.credit ((agrees.workers w hw).credits c hc)
    exact ⟨r, credited⟩
  · intro rule weights
    exact (agrees.stores.scheduler.updateEach rule weights agrees.entries_offered).2.2

theorem Worker.explore_unknown {setup : Setup} {shared : Shared} {w : Worker} {holding : Holding}
    {left : Nat} {t : Trace} {offers : List (Distribution Float)}
    (turn : setup.process.turn t = .ok (.among offers))
    (free : holding.batch.overlay.bind (·.choice? t.last) = none)
    (unknown : shared.scheduler.contains t.last = false) :
    w.explore setup shared holding (left + 1) t =
      { w with
        choosing := w.choosing.unit.2
        phase := .entering holding left t offers w.choosing.unit.1 } := by
  simp [explore, turn, free, unknown]

-- A session that learns of one state with two choices, up to the first time it is sampled.
namespace Fork

def state : State := .ofVars []

def offers : List (Distribution Float) := [[(1, state)], [(1, state)]]

def process : DecisionProcess Float := ⟨.ok state, fun _ => .ok offers⟩

def config : Config := { tracesPerBlock := 1, blocks := 1 }

def worker : Worker := .ofSeed (Generator.ofSeed 0).word.1

def session (w : Worker) (queue : JobQueue Batch) (scheduler : Scheduler Float) : Session where
  machine := Smallest.machine
  setup := ⟨process, Smallest.property, .uniform, state, 1, 50⟩
  config := config
  shared := ⟨queue, scheduler, .empty, 0, 0, none⟩
  workers := [w]
  overlay := none
  deterministic := false
  seeds := (Generator.ofSeed 0).word.2

def sampling : Session :=
  session { worker with
    choosing := worker.choosing.unit.2
    phase := .sampling ⟨1, .learning⟩ 0 (.start state) offers worker.choosing.unit.1 }
    ⟨0, 1, false, none, .learning⟩ (Scheduler.empty.enter state 2).1

theorem sampled : Drawn ⟨sampling, .learning ⟨1, 1, 50, none, 0, 1, true⟩⟩ := by
  have prepared : Drawn ⟨{ session worker (.ofContext .learning) .empty with
      workers := [], seeds := .ofSeed 0 }, .resting⟩ :=
    .prepared (show Session.prepare process Smallest.property config Smallest.machine = _ from rfl)
  have started : Drawn ⟨session worker (.ofContext .learning) .empty, .resting⟩ :=
    prepared.coordinate (.start rfl)
  have begun : Drawn ⟨session worker (.ofContext .learning) .empty,
      .learning ⟨1, 1, 50, none, 0, 0, false⟩⟩ :=
    started.coordinate (.learn (by decide) rfl)
  have issued : Drawn ⟨session worker ⟨1, 0, false, none, .learning⟩ .empty,
      .learning ⟨1, 1, 50, none, 0, 1, true⟩⟩ :=
    begun.coordinate (.learning rfl)
  have claimed : Drawn ⟨session
      { worker with phase := .simulating ⟨1, .learning⟩ 1 (.start state) }
      ⟨0, 1, false, none, .learning⟩ .empty, .learning ⟨1, 1, 50, none, 0, 1, true⟩⟩ :=
    issued.work 0 rfl
  have unknown : (Scheduler.empty : Scheduler Float).contains state = false := by
    simp [Scheduler.contains, Scheduler.empty]
  have explored : Drawn ⟨session { worker with
      choosing := worker.choosing.unit.2
      phase := .entering ⟨1, .learning⟩ 0 (.start state) offers worker.choosing.unit.1 }
      ⟨0, 1, false, none, .learning⟩ .empty, .learning ⟨1, 1, 50, none, 0, 1, true⟩⟩ := by
    refine claimed.work 0 ?_
    simp only [session, Session.stepWorker, Worker.step, Worker.ready, Worker.act,
      List.getElem?_cons_zero, Option.bind_eq_bind, Option.bind_some, if_true]
    rw [Worker.explore_unknown rfl rfl unknown]
    rfl
  exact explored.work 0 rfl

end Fork

theorem Drawn.choices_agree_of_two_choices :
    (∃ mixture, Fork.sampling.shared.scheduler.get? Fork.state = some mixture ∧
      Fork.process.Offers Fork.state mixture.size) ∧
    ∀ y, ∃ choice branches, Fork.sampling.shared.scheduler.sample? Fork.state y = some choice ∧
      DecisionProcess.chosen Fork.offers choice = .ok branches := by
  obtain ⟨mixtures, -, -, resolved, -⟩ := Drawn.choices_agree Fork.sampled
  have known : Fork.sampling.shared.scheduler.get? Fork.state = some (.uniform 2) := by
    have unknown : (Scheduler.empty : Scheduler Float).get? Fork.state = none :=
      Std.HashMap.getElem?_empty
    show ((Scheduler.empty : Scheduler Float).enter Fork.state 2).1.get? Fork.state = _
    simp [Scheduler.get?_enter, unknown]
  exact ⟨⟨_, known, mixtures _ _ known⟩,
    resolved _ (List.mem_singleton_self _) _ _ _ _ _ rfl⟩

end SchedulerLearning

import SchedulerLearning.Engine.Session
import SchedulerLearning.Proofs.ChoiceAgreement
import SchedulerLearning.Proofs.Runs

/-!
# The sequential program

What a session with one worker comes to, as a program without a worker: it simulates one trace
after the other, updates the scheduler after each block, and then hands verdicts to a decision
procedure until that decides.
-/

namespace SchedulerLearning

open SchedulerLearning.Random (Generator)

-- ---------------------------------------------------------------------------
-- The program
-- ---------------------------------------------------------------------------

structure Task where
  process : DecisionProcess Float
  property : Property
  attribution : Attribution
  initial : State
  traceLength : Nat

def Setup.task (setup : Setup) : Task :=
  ⟨setup.process, setup.property, setup.attribution, setup.initial, setup.traceLength⟩

structure Plain where
  branching : Generator
  choosing : Generator
  scheduler : Scheduler Float

namespace Plain

def ofSeed (seed : UInt64) : Plain :=
  ⟨(Worker.ofSeed seed).branching, (Worker.ofSeed seed).choosing, .empty⟩

def resolver (overlay : Option Overlay) : Resolver (Scheduler Float × Generator) :=
  fun s count (p, choosing) =>
    let (x, choosing) := choosing.unit
    let (choice, p) := p.resolve overlay s count x
    (.ok choice, p, choosing)

def ofSimulation : Except (Stop (ModelError Float)) Trace × Generator × Scheduler Float × Generator →
    Except (Stop (ModelError Float)) (Trace × Plain)
  | (.ok t, branching, p, choosing) => .ok (t, ⟨branching, choosing, p⟩)
  | (.error e, _) => .error e

def simulate (task : Task) (overlay : Option Overlay) (now : Plain) :
    Except (Stop (ModelError Float)) (Trace × Plain) :=
  ofSimulation (task.process.simulate Generator.source (resolver overlay) task.initial
    task.traceLength now.branching (now.scheduler, now.choosing))

def job (task : Task) (overlay : Option Overlay) (now : Plain) :
    Except (Stop (ModelError Float)) (Result × Plain) := do
  let (t, now) ← now.simulate task overlay
  let verdict ← task.property.evaluate t
  return (⟨t, verdict⟩, now)

def gather (task : Task) : Nat → Plain → Rewards →
    Except (Stop (ModelError Float)) (Plain × Rewards)
  | 0, now, rewards => .ok (now, rewards)
  | left + 1, now, rewards => do
    let (r, now) ← now.job task none
    match rewards.creditAll (task.attribution.credits r.trace.steps.toList r.verdict) with
    | (rewards, .ok ()) => gather task left now rewards
    | (_, .error fault) => .error (.faulted fault)

def update (rule : UpdateRule) (w : UpdateWeights Float) (now : Plain) (rewards : Rewards) :
    Except (Stop (ModelError Float)) Plain :=
  let updated := now.scheduler.update rule w rewards
  match updated.fault with
  | some fault => .error (.faulted fault)
  | none => .ok { now with scheduler := updated.scheduler }

def learn (task : Task) (rule : UpdateRule) (w : UpdateWeights Float) (tracesPerBlock : Nat) :
    Nat → Plain → Except (Stop (ModelError Float)) Plain
  | 0, now => .ok now
  | left + 1, now => do
    let (now, rewards) ← gather task tracesPerBlock now .empty
    let now ← now.update rule w rewards
    learn task rule w tracesPerBlock left now

/-- Hands verdicts to a procedure until it decides, at most so many. -/
def check (task : Task) (overlay : Option Overlay) : Nat → Procedure → Plain →
    Except (Stop (ModelError Float)) (Option Outcome)
  | 0, _, _ => .ok none
  | left + 1, procedure, now => do
    let (r, now) ← now.job task overlay
    match procedure.observe r.verdict.satisfied with
    | (_, some outcome) => return some outcome
    | (procedure, none) => check task overlay left procedure now

end Plain

def Config.procedure (c : Config) : Except (Stop LearnError) Procedure :=
  match c.method with
  | .testing =>
    match HypothesisTest.start Beta.floatCdf c.theta c.threshold c.alpha c.beta c.minTraces
        c.maxTraces with
    | .error e => .error (.refused (.stats e))
    | .ok test => .ok (.testing test)
  | .estimation =>
    match IntervalEstimator.start c.alpha c.beta c.delta c.coefficient with
    | .error e => .error (.refused (.stats e))
    | .ok estimator => .ok (.estimating estimator)

def Config.firstSeed (c : Config) (entropy : UInt64) : UInt64 :=
  (Generator.ofSeed (c.seed.getD entropy)).word.1

def Config.overlay (c : Config) (now : Plain) : Option Overlay :=
  if c.determinise then some now.scheduler.determinise else none

/-- The whole program: the blocks learnt from and the outcome, if at most so many verdicts lead to
one. -/
def Plain.run (task : Task) (c : Config) (entropy : UInt64) (verdicts : Nat) :
    Except (Stop LearnError) (Option (Nat × Outcome)) := do
  let now ← (learn task c.rule c.weights c.tracesPerBlock c.blocks (ofSeed (c.firstSeed entropy))).mapError
    (.map .workerFailed)
  let procedure ← c.procedure
  let outcome ← (check task (c.overlay now) verdicts procedure now).mapError (.map .workerFailed)
  return outcome.map (c.blocks, ·)

-- ---------------------------------------------------------------------------
-- Within a trace
-- ---------------------------------------------------------------------------

namespace Plain

variable {task : Task} {overlay : Option Overlay} {now : Plain} {left : Nat} {t : Trace}

def continueFrom (task : Task) (overlay : Option Overlay) (left : Nat) (t : Trace) (now : Plain) :
    Except (Stop (ModelError Float)) (Trace × Plain) :=
  ofSimulation (task.process.continueFrom Generator.source (resolver overlay) left t now.branching
    (now.scheduler, now.choosing))

def follow (task : Task) (overlay : Option Overlay) (left : Nat) (t : Trace)
    (branches : Distribution Float) (choice offered : Nat) (now : Plain) :
    Except (Stop (ModelError Float)) (Trace × Plain) :=
  match DecisionProcess.follow Generator.source branches choice offered t now.branching with
  | (.ok t, branching) => { now with branching }.continueFrom task overlay left t
  | (.error e, _) => .error e

def take (task : Task) (overlay : Option Overlay) (left : Nat) (t : Trace)
    (offers : List (Distribution Float)) (choice : Nat) (now : Plain) :
    Except (Stop (ModelError Float)) (Trace × Plain) :=
  match DecisionProcess.chosen offers choice with
  | .error e => .error e
  | .ok branches => now.follow task overlay left t branches choice offers.length

def choose (overlay : Option Overlay) (s : State) (count : Nat) (now : Plain) : Nat × Plain :=
  let (x, choosing) := now.choosing.unit
  let (choice, scheduler) := now.scheduler.resolve overlay s count x
  (choice, { now with choosing, scheduler })

theorem continueFrom_succ :
    now.continueFrom task overlay (left + 1) t =
      match task.process.turn t with
      | .error e => .error e
      | .ok .deadlock => .ok (t, now)
      | .ok (.only branches) => now.follow task overlay left t branches 0 1
      | .ok (.among offers) =>
        let (choice, now) := now.choose overlay t.last offers.length
        now.take task overlay left t offers choice := by
  unfold continueFrom DecisionProcess.continueFrom
  cases task.process.turn t with
  | error e => rfl
  | ok found =>
    cases found with
    | deadlock => rfl
    | only branches =>
      simp only [follow]
      cases h : DecisionProcess.follow Generator.source branches 0 1 t now.branching with
      | mk followed branching => cases followed <;> rfl
    | among offers =>
      simp only [choose, take, resolver]
      cases DecisionProcess.chosen offers
          (now.scheduler.resolve overlay t.last offers.length now.choosing.unit.1).1 with
      | error e => rfl
      | ok branches =>
        simp only [follow]
        cases h : DecisionProcess.follow Generator.source branches _ offers.length t now.branching with
        | mk followed branching => cases followed <;> rfl

theorem take_eq {offers : List (Distribution Float)} {choice : Nat} (inRange : choice < offers.length) :
    now.take task overlay left t offers choice =
      now.follow task overlay left t offers[choice] choice offers.length := by
  simp [take, DecisionProcess.chosen, inRange]

theorem simulate_eq :
    now.simulate task overlay =
      match Trace.withRoom task.initial task.traceLength with
      | .error fault => .error (.faulted fault)
      | .ok t => now.continueFrom task overlay task.traceLength t := by
  unfold simulate DecisionProcess.simulate
  cases Trace.withRoom task.initial task.traceLength <;> rfl

theorem job_eq_ok {r : Result} {next : Plain} :
    now.job task overlay = .ok (r, next) ↔
      now.simulate task overlay = .ok (r.trace, next) ∧
        task.property.evaluate r.trace = .ok r.verdict := by
  unfold job
  constructor
  · intro h
    obtain ⟨⟨t, after⟩, simulated, h⟩ := bind_eq_ok.mp h
    obtain ⟨verdict, judged, h⟩ := bind_eq_ok.mp h
    cases h
    exact ⟨simulated, judged⟩
  · rintro ⟨simulated, judged⟩
    exact bind_eq_ok.mpr ⟨_, simulated, bind_eq_ok.mpr ⟨_, judged, rfl⟩⟩

end Plain

-- ---------------------------------------------------------------------------
-- Reliable tasks
-- ---------------------------------------------------------------------------

/-- The traces that some choices and draws lead to. -/
inductive Task.Path (task : Task) : Trace → Prop
  | start : Path task (.start task.initial)
  | step {t offers choice branches next} (path : Path task t) (draws : Generator)
      (offered : task.process.offers t.last = .ok offers) (taken : offers[choice]? = some branches)
      (drawn : Distribution.pick? draws.unit.1 branches = some next) :
      Path task (t.push choice offers.length next)

def Task.Stops (task : Task) (t : Trace) : Prop :=
  t.length = task.traceLength ∨ t.length < task.traceLength ∧ task.process.offers t.last = .ok []

/-- Whether no simulation fails, and no evaluation of a trace that one stops at. -/
structure Task.Reliable (task : Task) : Prop where
  room : Trace.withRoom task.initial task.traceLength = .ok (.start task.initial)
  offers : ∀ t, task.Path t → t.length < task.traceLength →
    ∃ offers, task.process.offers t.last = .ok offers ∧ ∀ branches ∈ offers, branches ≠ []
  evaluates : ∀ t, task.Path t → task.Stops t → ∃ verdict, task.property.evaluate t = .ok verdict

theorem Distribution.pick?_isSome {d : Distribution Float} (some : d ≠ []) (x : Float) :
    ∃ next, d.pick? x = .some next :=
  Option.ne_none_iff_exists'.mp (mt pick?_eq_none.mp some)

namespace Task.Reliable

variable {task : Task} {overlay : Option Overlay} {now : Plain} {left : Nat} {t : Trace}
  {offers : List (Distribution Float)} {choice : Nat}

theorem continueFrom (h : task.Reliable) (ho : ∀ o, overlay = some o → o.Fits task.process)
    (path : task.Path t) (bound : t.length + left = task.traceLength)
    (fits : now.scheduler.Fits task.process) :
    ∃ t' next, now.continueFrom task overlay left t = .ok (t', next) ∧ task.Path t' ∧
      task.Stops t' := by
  induction left generalizing t now with
  | zero => exact ⟨t, now, rfl, path, .inl bound⟩
  | succ left ih =>
    have follows : ∀ {branches choice} {found : List (Distribution Float)} (now : Plain),
        now.scheduler.Fits task.process → task.process.offers t.last = .ok found →
        found[choice]? = some branches → branches ≠ [] →
        ∃ t' next, now.follow task overlay left t branches choice found.length = .ok (t', next) ∧
          task.Path t' ∧ task.Stops t' := by
      intro branches choice found now fits offered taken some
      obtain ⟨next, drawn⟩ :=
        Distribution.pick?_isSome some (Generator.source.unit now.branching).1
      have path' := path.step now.branching offered taken drawn
      simp only [Plain.follow, DecisionProcess.follow, drawn]
      exact ih path' (by simp; omega) fits
    have short : t.length < task.traceLength := by omega
    obtain ⟨found, offered, filled⟩ := h.offers t path short
    rw [Plain.continueFrom_succ, DecisionProcess.turn, offered]
    match found with
    | [] => exact ⟨t, now, rfl, path, .inr ⟨short, offered⟩⟩
    | [branches] => exact follows now fits offered rfl (filled branches (by simp))
    | first :: second :: rest =>
      have several : task.process.Offers t.last (first :: second :: rest).length :=
        ⟨by simp, _, offered, rfl⟩
      obtain ⟨inRange, fits'⟩ : (now.choose overlay t.last (first :: second :: rest).length).1 <
          (first :: second :: rest).length ∧ (now.choose overlay t.last
            (first :: second :: rest).length).2.scheduler.Fits task.process :=
        fits.resolve ho several now.choosing.unit.1
      simp only [pure, Except.pure, bind, Except.bind, Plain.take_eq inRange]
      exact follows _ fits' offered (List.getElem?_eq_getElem inRange)
        (filled _ (List.getElem_mem inRange))

theorem job (h : task.Reliable) (ho : ∀ o, overlay = some o → o.Fits task.process)
    (fits : now.scheduler.Fits task.process) :
    ∃ r next, now.job task overlay = .ok (r, next) ∧ task.Path r.trace ∧ task.Stops r.trace := by
  obtain ⟨t', next, continued, path, stops⟩ :=
    h.continueFrom ho .start (Nat.zero_add task.traceLength) fits
  obtain ⟨verdict, judged⟩ := h.evaluates t' path stops
  refine ⟨⟨t', verdict⟩, next, Plain.job_eq_ok.mpr ⟨?_, judged⟩, path, stops⟩
  rw [Plain.simulate_eq, h.room]
  exact continued

end Task.Reliable

end SchedulerLearning

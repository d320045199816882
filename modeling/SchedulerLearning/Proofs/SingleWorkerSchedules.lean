import SchedulerLearning.Proofs.ExecutedRuns
import SchedulerLearning.Proofs.SingleWorkerRuns

/-!
# Batching is invisible with one worker

Every schedule of a whole run with one worker ends, and with what the sequential program learns and
decides. How many jobs are issued or claimed at once, and how far the worker is ahead of the
decision, makes no difference.
-/

namespace SchedulerLearning

open SchedulerLearning.Random (Generator)

variable {entropy : UInt64} {s s' : Session} {stage stage' : Stage} {w : Worker} {now : Plain}
  {b : Batch} {outcome : Outcome}

theorem Plain.check_unique {task : Task} {overlay : Option Overlay} {procedure : Procedure}
    {now : Plain} {m n : Nat} {x y : Outcome} (hx : check task overlay m procedure now = .ok (some x))
    (hy : check task overlay n procedure now = .ok (some y)) : x = y := by
  have both : check task overlay (m + n) procedure now = .ok (some y) := by
    rw [Nat.add_comm]
    exact check_add hy
  cases (check_add hx).symm.trans both
  rfl

theorem Plain.run_unique {task : Task} {c : Config} {m n : Nat} {x y : Nat × Outcome}
    (hx : run task c entropy m = .ok (some x)) (hy : run task c entropy n = .ok (some y)) : x = y := by
  obtain ⟨final, procedure, decided, learnt, chosen, decides, found⟩ := run_eq_ok.mp hx
  obtain ⟨final', procedure', decided', learnt', chosen', decides', found'⟩ := run_eq_ok.mp hy
  cases learnt.symm.trans learnt'
  cases chosen.symm.trans chosen'
  obtain ⟨outcome, rfl, rfl⟩ := Option.map_eq_some_iff.mp found.symm
  obtain ⟨outcome', rfl, rfl⟩ := Option.map_eq_some_iff.mp found'.symm
  rw [check_unique decides decides']

-- ---------------------------------------------------------------------------
-- Every schedule ends
-- ---------------------------------------------------------------------------

def Learning.ahead (l : Learning) : ℕ ×ₗ ℕ ×ₗ ℕ :=
  toLex (l.blocks - l.done, toLex (l.tracesPerBlock - l.issued, if l.waiting then 1 else 0))

def Checking.ahead (verdicts : Nat) (c : Checking) : ℕ ×ₗ ℕ ×ₗ ℕ :=
  match c.phase with
  | .looking => toLex (2, toLex (verdicts - c.received, 1))
  | .receiving => toLex (2, toLex (verdicts - c.received, 0))
  | .withdrawing _ => toLex (1, toLex (0, 0))
  | .draining _ => toLex (0, toLex (0, 0))

def Stage.ahead (verdicts : Nat) : Stage → ℕ ×ₗ ℕ ×ₗ ℕ ×ₗ ℕ
  | .starting => toLex (8, toLex (0, toLex (0, 0)))
  | .started => toLex (7, toLex (0, toLex (0, 0)))
  | .learning l => toLex (6, l.ahead)
  | .learned _ => toLex (5, toLex (0, toLex (0, 0)))
  | .deciding _ => toLex (4, toLex (0, toLex (0, 0)))
  | .checking _ c => toLex (3, c.ahead verdicts)
  | .checked _ _ => toLex (2, toLex (0, toLex (0, 0)))
  | .stopping _ _ => toLex (1, toLex (0, toLex (0, 0)))
  | .finished _ _ | .failed _ => toLex (0, toLex (0, toLex (0, 0)))

theorem Learning.Follows.ahead {first : Plain} {l l' : Learning} (h : l.Follows first s w now)
    (turn : Learning.Turn s l s' l') : l'.ahead < l.ahead := by
  simp only [Learning.ahead, Prod.Lex.toLex_lt_toLex]
  cases turn with
  | collect waiting => simp [waiting]
  | issue rested more short =>
    have batch := h.batch
    refine .inr ⟨rfl, .inl ?_⟩
    simp only [Learning.batch]
    omega
  | update rested more =>
    simp only
    omega

theorem Checking.Follows.ahead {overlay : Option Overlay} {procedure : Procedure} {first : Plain}
    {c c' : Checking} {n : Nat} (h : c.Follows overlay procedure first s w now)
    (decides : first.check s.setup.task overlay n procedure = .ok (some outcome))
    (turn : Checking.Turn s c s' c') : c'.ahead n < c.ahead n := by
  have hears := h.hears
  unfold Checking.Hears at hears
  unfold Checking.ahead
  cases turn with
  | observe receiving =>
    simp only [receiving] at hears ⊢
    obtain ⟨next, verdicts, -, -, goes⟩ := hears
    have later := Checking.Follows.lt_of_decides (goes 0) decides
    simp only [Prod.Lex.toLex_lt_toLex]
    exact .inr ⟨trivial, .inl (Nat.sub_succ_lt_self _ _ later)⟩
  | failed phase | issue phase | look phase | broken phase | decide phase | withdraw phase =>
    simp [phase, Prod.Lex.toLex_lt_toLex]

theorem Stage.Follows.ahead {n : Nat} {result : Nat × Outcome} (h : stage.Follows entropy s)
    (decides : Plain.run s.setup.task s.config entropy n = .ok (some result))
    (step : stage.next s = some (s', stage')) : stage'.ahead n < stage.ahead n := by
  have sooner : ∀ {i j : ℕ} {x y : ℕ ×ₗ ℕ ×ₗ ℕ}, i < j → toLex (i, x) < toLex (j, y) :=
    fun less => Prod.Lex.toLex_lt_toLex.mpr (.inl less)
  have within : ∀ {i : ℕ} {x y : ℕ ×ₗ ℕ ×ₗ ℕ}, x < y → toLex (i, x) < toLex (i, y) :=
    fun less => Prod.Lex.toLex_lt_toLex.mpr (.inr ⟨rfl, less⟩)
  cases stage with
  | learning l =>
    obtain ⟨w, now, follows⟩ := h
    obtain ⟨l', goes, rfl⟩ | ⟨report, -, rfl⟩ | ⟨stop, -, rfl⟩ := Progress.stage_eq_some step
    · exact within (follows.ahead (Learning.turn_of_step goes))
    · exact sooner (by decide)
    · exact sooner (by decide)
  | checking report c =>
    obtain ⟨w, now, final, procedure, follows, chosen, blocks, learnt⟩ := h
    obtain ⟨c', goes, rfl⟩ | ⟨outcome, -, rfl⟩ | ⟨stop, -, rfl⟩ := Progress.stage_eq_some step
    · obtain ⟨final', procedure', decided, learnt', chosen', decides, found⟩ :=
        Plain.run_eq_ok.mp decides
      cases learnt.symm.trans learnt'
      cases chosen.symm.trans chosen'
      cases decided with
      | none => cases found
      | some outcome => exact within (follows.ahead decides (Checking.turn_of_step goes))
    · exact sooner (by decide)
    · exact sooner (by decide)
  | stopping report outcome =>
    simp only [Stage.next, Session.join] at step
    split at step
    · cases step
      exact sooner (by decide)
    · cases step
  | finished => cases step
  | failed => exact h.elim
  | learned | checked =>
    cases step
    exact sooner (by decide)
  | starting | started | deciding =>
    simp only [Stage.next] at step
    split at step <;> cases step <;> exact sooner (by decide)

def Session.ahead (s : Session) : ℕ ×ₗ ℕ ×ₗ ℕ ×ₗ ℕ :=
  s.workers.head?.elim (toLex (0, toLex (0, toLex (0, 0)))) (·.phase.ahead s.shared.queue)

theorem Session.Abreast.ahead {place : Nat} (h : s.Abreast b w now) (reliable : s.setup.task.Reliable)
    (agrees : s.Agrees) (hm : s.Manned) (step : s.stepWorker place = some s') : s'.ahead < s.ahead := by
  obtain ⟨shared', w', now', rfl, stride, -⟩ := h.step reliable agrees hm step
  have less := stride.ahead (hm.positive w (by simp [h.workers]))
  simpa [Session.ahead, h.workers] using less

-- ---------------------------------------------------------------------------
-- Schedules
-- ---------------------------------------------------------------------------

namespace Point

/-- The points that are in step with the program, as long as it decides in time. -/
inductive InStep (entropy : UInt64) (origin : Session) : Point → Prop
  | going {s : Session} {stage : Stage} {a : Account} (setup : s.setup = origin.setup)
      (config : s.config = origin.config) (run : Run a ⟨s, stage.activity⟩)
      (follows : stage.Follows entropy s) :
      InStep entropy origin ⟨s, stage⟩
  | failed {s : Session} {stop : Stop LearnError} (strained : origin.Strained entropy) :
      InStep entropy origin ⟨s, .failed stop⟩

variable {origin : Session} {p q : Point} {n blocks : Nat}

def ahead (verdicts : Nat) (p : Point) : (ℕ ×ₗ ℕ ×ₗ ℕ ×ₗ ℕ) ×ₗ (ℕ ×ₗ ℕ ×ₗ ℕ ×ₗ ℕ) :=
  toLex (p.stage.ahead verdicts, p.session.ahead)

theorem InStep.step (h : p.InStep entropy origin) (single : origin.config.Single)
    (reliable : origin.setup.task.Reliable) (step : p.Step q) : q.InStep entropy origin := by
  cases h with
  | @going s stage a setup config run follows =>
    rw [← setup] at reliable
    rw [← config] at single
    cases step with
    | work place step =>
      obtain ⟨follows', -⟩ := follows.work reliable run step
      have run' := run.work place step
      obtain ⟨_, _, _, -, -, rfl⟩ := Session.stepWorker_eq_some step
      exact .going setup config run' follows'
    | @coordinate _ s' _ stage' step =>
      rcases follows.next single run step with ⟨failed, strained⟩ | ⟨follows', setup', config'⟩
      · cases stage' with
        | failed stop =>
          refine .failed ?_
          rwa [Session.Strained, ← setup, ← config]
        | _ => exact failed.elim
      · obtain ⟨a', run'⟩ := Stage.next_runs run single.traces step fun failed => by
          cases stage' with
          | failed => exact follows'
          | _ => exact failed
        exact .going (setup'.trans setup) (config'.trans config) run' follows'
  | failed strained =>
    cases step with
    | work => exact .failed strained
    | coordinate step => cases step

theorem InStep.ahead {result : Nat × Outcome} (h : p.InStep entropy origin)
    (reliable : origin.setup.task.Reliable)
    (decides : Plain.run origin.setup.task origin.config entropy n = .ok (some result))
    (room : n + origin.config.checkBatch < Word.size) (step : p.Step q) : q.ahead n < p.ahead n := by
  cases h with
  | @going s stage a setup config run follows =>
    rw [← setup, ← config] at decides
    rw [← setup] at reliable
    obtain ⟨hm, -⟩ := run.orderly
    refine Prod.Lex.toLex_lt_toLex.mpr ?_
    cases step with
    | work place step =>
      obtain ⟨-, b, w, now, abreast⟩ := follows.work reliable run step
      exact .inr ⟨rfl, abreast.ahead reliable run.drawn.agrees hm step⟩
    | coordinate step => exact .inl (follows.ahead decides step)
  | failed strained => exact absurd (strained n result decides) (Nat.not_le.mpr room)

theorem InStep.leadsTo (h : p.InStep entropy origin) (single : origin.config.Single)
    (reliable : origin.setup.task.Reliable) (path : p.LeadsTo q) : q.InStep entropy origin := by
  induction path with
  | refl => exact h
  | tail _ step ih => exact ih.step single reliable step

theorem InStep.result {report : LearnReport} {outcome : Outcome} (h : p.InStep entropy origin)
    (yields : p.stage.result? = some (report, outcome)) : origin.Decides entropy report outcome := by
  cases h with
  | @going s stage a setup config run follows =>
    have decides : s.Decides entropy report outcome := by
      cases stage with
      | checked | stopping | finished =>
        cases yields
        exact follows.1
      | _ => cases yields
    rwa [Session.Decides, setup, config] at decides
  | failed => cases yields

def Endless (p : Point) : Prop := ∃ path : Nat → Point, path 0 = p ∧ ∀ i, (path i).Step (path (i + 1))

def Final (p : Point) : Prop := ∀ q, ¬p.Step q

theorem InStep.ends {result : Nat × Outcome} (h : p.InStep entropy origin)
    (single : origin.config.Single) (reliable : origin.setup.task.Reliable)
    (decides : Plain.run origin.setup.task origin.config entropy n = .ok (some result))
    (room : n + origin.config.checkBatch < Word.size) : ¬p.Endless := by
  rintro ⟨path, rfl, steps⟩
  have inStep : ∀ i, (path i).InStep entropy origin := by
    intro i
    induction i with
    | zero => exact h
    | succ i ih => exact ih.step single reliable (steps i)
  obtain ⟨i, stops⟩ := WellFounded.not_rel_apply_succ (r := (· < ·)) fun i => (path i).ahead n
  exact stops ((inStep i).ahead reliable decides room (steps i))

theorem InStep.finished {result : Nat × Outcome} (h : p.InStep entropy origin)
    (decides : Plain.run origin.setup.task origin.config entropy n = .ok (some result))
    (room : n + origin.config.checkBatch < Word.size) (final : p.Final) :
    ∃ report outcome, p.stage = .finished report outcome := by
  cases h with
  | @going s stage a setup config run follows =>
    by_contra unfinished
    obtain ⟨q, step⟩ := follows.goes_on run fun report outcome same =>
      unfinished ⟨report, outcome, same⟩
    exact final q step
  | failed strained => exact absurd (strained n result decides) (Nat.not_le.mpr room)

end Point

-- ---------------------------------------------------------------------------
-- From the preparation of a session on
-- ---------------------------------------------------------------------------

section

variable {process : DecisionProcess Float} {property : Property} {config : Config}
  {machine : Machine}

theorem Point.inStep_of_prepare (prepared : Session.prepare process property config machine = .ok s) :
    InStep machine.entropy s ⟨s, .starting⟩ := by
  refine .going rfl rfl (.prepared prepared) ?_
  obtain ⟨length, initial, seeds, -, -, rfl, rfl⟩ := Session.prepare_eq prepared
  exact ⟨rfl, rfl, rfl, rfl, rfl⟩

/-- How many jobs are claimed at once and issued at once is nothing to the program. -/
theorem Session.task_of_prepare {jobsPerRequest checkBatch : Nat}
    (prepared : prepare process property config machine = .ok s)
    (prepared' : prepare process property { config with jobsPerRequest, checkBatch } machine = .ok s') :
    s'.setup.task = s.setup.task := by
  obtain ⟨length, initial, _, hl, hi, -, rfl⟩ := prepare_eq prepared
  obtain ⟨length', initial', _, hl', hi', -, rfl⟩ := prepare_eq prepared'
  cases hl.symm.trans hl'
  cases hi.symm.trans hi'
  rfl

theorem Point.decides_of_prepare {p : Point} {report : LearnReport}
    (prepared : Session.prepare process property config machine = .ok s) (single : config.Single)
    (reliable : s.setup.task.Reliable) (path : LeadsTo ⟨s, .starting⟩ p)
    (yields : p.stage.result? = some (report, outcome)) :
    report.blocks = config.blocks ∧
      ∃ n, Plain.run s.setup.task config machine.entropy n = .ok (some (report.blocks, outcome)) := by
  have begins := inStep_of_prepare prepared
  obtain ⟨-, rfl, -⟩ := Session.prepare_eq_ok prepared
  exact (begins.leadsTo single reliable path).result yields

/-- In every schedule of the coordinator and its only worker, a whole run has the result of the
sequential program: as many blocks learnt from, and the same outcome. If the program decides, and
sizes leave room, every schedule ends, and not before it has the result. So two configurations
that differ only in how many jobs are claimed at once and issued at once have the same result. What
is executed is one of the schedules. -/
theorem Point.batching_invisible (prepared : Session.prepare process property config machine = .ok s)
    (single : config.Single) (reliable : s.setup.task.Reliable) :
    (∀ p report outcome, LeadsTo ⟨s, .starting⟩ p → p.stage.result? = some (report, outcome) →
      report.blocks = config.blocks ∧
        ∃ n, Plain.run s.setup.task config machine.entropy n = .ok (some (report.blocks, outcome))) ∧
    (∀ n blocks outcome, Plain.run s.setup.task config machine.entropy n = .ok (some (blocks, outcome)) →
      n + config.checkBatch < Word.size →
        ¬Endless ⟨s, .starting⟩ ∧
        ∀ p, LeadsTo ⟨s, .starting⟩ p → p.Final →
          ∃ report, p.stage = .finished report outcome ∧ report.blocks = blocks) ∧
    (∀ jobsPerRequest checkBatch s', { config with jobsPerRequest, checkBatch }.Single →
      Session.prepare process property { config with jobsPerRequest, checkBatch } machine = .ok s' →
        ∀ p p' report report' outcome outcome', LeadsTo ⟨s, .starting⟩ p →
          LeadsTo ⟨s', .starting⟩ p' → p.stage.result? = some (report, outcome) →
          p'.stage.result? = some (report', outcome') →
            report.blocks = report'.blocks ∧ outcome = outcome') ∧
    ∀ s' summary, s.run = (s', .ok summary) →
      ∃ n, Plain.run s.setup.task config machine.entropy n =
        .ok (some (summary.learning.blocks, summary.outcome)) := by
  have begins := inStep_of_prepare prepared
  refine ⟨fun p report outcome => decides_of_prepare prepared single reliable, ?_, ?_, ?_⟩
  · obtain ⟨-, rfl, -⟩ := Session.prepare_eq_ok prepared
    intro n blocks outcome decides room
    refine ⟨begins.ends single reliable decides room, fun p path final => ?_⟩
    obtain ⟨report, outcome', finished⟩ :=
      (begins.leadsTo single reliable path).finished decides room final
    obtain ⟨-, n', decides'⟩ := decides_of_prepare prepared single reliable path
      (show p.stage.result? = some (report, outcome') by rw [finished]; rfl)
    cases Plain.run_unique decides decides'
    exact ⟨report, finished, rfl⟩
  · intro jobsPerRequest checkBatch s' single' prepared' p p' report report' outcome outcome' path path'
      yields yields'
    have same := Session.task_of_prepare prepared prepared'
    obtain ⟨-, n, decides⟩ := decides_of_prepare prepared single reliable path yields
    obtain ⟨-, n', decides'⟩ := decides_of_prepare prepared' single' (same ▸ reliable) path' yields'
    rw [same] at decides'
    have decides' :
        Plain.run s.setup.task config machine.entropy n' = .ok (some (report'.blocks, outcome')) :=
      decides'
    exact Prod.mk.inj (Plain.run_unique decides decides')
  · intro s' summary ran
    obtain ⟨q, path⟩ := Session.leadsTo_run ran
    exact (decides_of_prepare prepared single reliable path rfl).2

end

-- The smallest process, with two blocks, and a test of two verdicts that come in batches of three.
namespace Hasty

def config : Config := { Smallest.config with blocks := 2, checkBatch := 3, maxTraces := 2 }

def session : Session where
  machine := Smallest.machine
  setup := ⟨Smallest.process, Smallest.property, .uniform, .ofVars [], 1, 50⟩
  config := config
  shared := ⟨.ofContext .learning, .empty, .empty, 0, 0, none⟩
  workers := []
  overlay := none
  deterministic := false
  seeds := .ofSeed 0

theorem reliable : session.setup.task.Reliable :=
  ⟨rfl, fun _ _ _ => ⟨[], rfl, by simp⟩, fun _ _ _ => ⟨_, rfl⟩⟩

theorem job_eq (overlay : Option Overlay) (now : Plain) :
    now.job session.setup.task overlay = .ok (⟨.start (.ofVars []), .initially true⟩, now) := rfl

theorem learn_eq (blocks : Nat) (now : Plain) :
    Plain.learn session.setup.task config.rule config.weights 1 blocks now = .ok now := by
  have gathers : Plain.gather session.setup.task 1 now .empty = .ok (now, .empty) := rfl
  have updates : now.update config.rule config.weights .empty = .ok now := by
    simp [Plain.update, Scheduler.update, Scheduler.updateEach, Rewards.empty]
  induction blocks with
  | zero => rfl
  | succ blocks ih =>
    simp only [Plain.learn, gathers, updates, bind, Except.bind]
    exact ih

theorem check_decides (prior : Float) (overlay : Option Overlay) (now : Plain) :
    ∃ outcome, now.check session.setup.task overlay 2
      (.testing ⟨0.5, 1000, 0.5, 0.5, prior, 2, 2, 0, 0⟩) = .ok (some outcome) := by
  rw [Plain.check_succ (job_eq overlay now)]
  simp only [Procedure.observe, HypothesisTest.observe, HypothesisTest.decision?,
    HypothesisTest.record, Nat.zero_add, Nat.one_lt_two, if_true, Option.map_none]
  rw [Plain.check_succ (job_eq overlay now)]
  simp [Procedure.observe, HypothesisTest.observe, HypothesisTest.decision?, HypothesisTest.record,
    HypothesisTest.settles?]
  split_ifs <;> exact ⟨_, rfl⟩

theorem decides : ∃ outcome, Plain.run session.setup.task config 0 2 = .ok (some (2, outcome)) := by
  obtain ⟨prior, chosen⟩ : ∃ prior, config.procedure =
      .ok (.testing ⟨0.5, 1000, 0.5, 0.5, prior, 2, 2, 0, 0⟩) := ⟨_, rfl⟩
  obtain ⟨outcome, decided⟩ := check_decides prior (config.overlay (config.first 0)) (config.first 0)
  exact ⟨outcome, Plain.run_eq_ok.mpr ⟨_, _, _, learn_eq 2 _, chosen, decided, rfl⟩⟩

end Hasty

theorem Point.batching_invisible_of_two_verdicts :
    Session.prepare Smallest.process Smallest.property Hasty.config Smallest.machine = .ok Hasty.session ∧
      ∃ outcome, ¬Endless ⟨Hasty.session, .starting⟩ ∧
        ∀ p, LeadsTo ⟨Hasty.session, .starting⟩ p → p.Final →
          ∃ report, p.stage = .finished report outcome ∧ report.blocks = 2 := by
  have prepared : Session.prepare Smallest.process Smallest.property Hasty.config Smallest.machine =
      .ok Hasty.session := rfl
  have single : Hasty.config.Single := ⟨rfl, rfl, by decide, by decide, by decide⟩
  obtain ⟨-, always, -⟩ := Point.batching_invisible prepared single Hasty.reliable
  obtain ⟨outcome, decides⟩ := Hasty.decides
  obtain ⟨ends, results⟩ := always 2 2 outcome decides (by decide)
  exact ⟨prepared, outcome, ends, results⟩

end SchedulerLearning

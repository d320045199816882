import SchedulerLearning.Proofs.SequentialChecking
import SchedulerLearning.Proofs.SequentialLearning
import SchedulerLearning.Proofs.Stages

/-!
# A whole run with one worker

Whatever its worker and its coordinator do, and in whatever order, a whole run with one worker is at
a stage of the sequential program, and until it has finished one of them can go on.
-/

namespace SchedulerLearning

-- ---------------------------------------------------------------------------
-- The program
-- ---------------------------------------------------------------------------

/-- Whether there is one worker, no early test of learning, and room for what is issued at once. -/
structure Config.Single (c : Config) : Prop where
  workers : c.workers = 1
  untested : c.bayesLearning = false
  traces : c.tracesPerBlock < Word.size
  request : c.jobsPerRequest < Word.size
  room : Room.claim 40 (c.checkBatch + 1) = .ok ()

def Config.first (c : Config) (entropy : UInt64) : Plain := .ofSeed (c.firstSeed entropy)

theorem Room.lt_of_claim {bytes count : Nat} (h : claim bytes count = .ok ()) : count < Word.size := by
  unfold claim at h
  split at h
  · cases h
  · next most =>
    calc count ≤ addressable / bytes := Nat.le_of_not_lt most
      _ ≤ addressable := Nat.div_le_self _ _
      _ < Word.size := by decide

theorem Plain.run_eq_ok {task : Task} {c : Config} {entropy : UInt64} {n : Nat}
    {result : Option (Nat × Outcome)} :
    run task c entropy n = .ok result ↔
      ∃ final procedure outcome,
        learn task c.rule c.weights c.tracesPerBlock c.blocks (c.first entropy) = .ok final ∧
        c.procedure = .ok procedure ∧
        check task (c.overlay final) n procedure final = .ok outcome ∧
        result = outcome.map (c.blocks, ·) := by
  unfold run
  constructor
  · intro h
    obtain ⟨final, learnt, h⟩ := bind_eq_ok.mp h
    obtain ⟨procedure, chosen, h⟩ := bind_eq_ok.mp h
    obtain ⟨outcome, decided, h⟩ := bind_eq_ok.mp h
    cases h
    exact ⟨final, procedure, outcome, mapError_eq_ok.mp learnt, chosen, mapError_eq_ok.mp decided, rfl⟩
  · rintro ⟨final, procedure, outcome, learnt, chosen, decided, rfl⟩
    exact bind_eq_ok.mpr ⟨final, mapError_eq_ok.mpr learnt, bind_eq_ok.mpr ⟨procedure, chosen,
      bind_eq_ok.mpr ⟨outcome, mapError_eq_ok.mpr decided, rfl⟩⟩⟩

-- ---------------------------------------------------------------------------
-- In step with the program
-- ---------------------------------------------------------------------------

variable {entropy : UInt64} {s s' : Session} {a : Account} {stage stage' : Stage} {w : Worker}
  {now : Plain} {report : LearnReport} {outcome : Outcome}

/-- Whether the program learns from as many blocks as the report says, and decides like this. -/
def Session.Decides (s : Session) (entropy : UInt64) (report : LearnReport) (outcome : Outcome) : Prop :=
  report.blocks = s.config.blocks ∧
    ∃ n, Plain.run s.setup.task s.config entropy n = .ok (some (report.blocks, outcome))

/-- Whether the program does not decide with so few verdicts that a word has room for the jobs. -/
def Session.Strained (s : Session) (entropy : UInt64) : Prop :=
  ∀ n result, Plain.run s.setup.task s.config entropy n = .ok (some result) →
    Word.size ≤ n + s.config.checkBatch

def Stage.Follows (entropy : UInt64) (s : Session) : Stage → Prop
  | .starting => s.workers = [] ∧ s.seeds = .ofSeed (s.config.seed.getD entropy) ∧
      s.shared.scheduler = .empty ∧ s.shared.queue = .ofContext .learning ∧ s.deterministic = false
  | .started => ∃ w, s.Abreast .learning w (s.config.first entropy) ∧
      s.shared.queue.shutdown = false ∧ s.deterministic = false
  | .learning l => ∃ w now, l.Follows (s.config.first entropy) s w now
  | .learned report => ∃ w now, s.Abreast .learning w now ∧ s.shared.queue.shutdown = false ∧
      s.deterministic = false ∧ report.blocks = s.config.blocks ∧
      s.learnt (s.config.first entropy) = .ok now
  | .deciding report => ∃ w now, s.Abreast .learning w now ∧ s.shared.queue.shutdown = false ∧
      (if s.deterministic then s.overlay else none) = s.config.overlay now ∧
      report.blocks = s.config.blocks ∧ s.learnt (s.config.first entropy) = .ok now
  | .checking report c => ∃ w now final procedure,
      c.Follows (s.config.overlay final) procedure final s w now ∧
      s.config.procedure = .ok procedure ∧ report.blocks = s.config.blocks ∧
      s.learnt (s.config.first entropy) = .ok final
  | .checked report outcome => s.Decides entropy report outcome ∧
      ∃ w now, s.Abreast .learning w now ∧ s.shared.queue.shutdown = false
  | .stopping report outcome => s.Decides entropy report outcome ∧
      ∃ w now, s.Abreast .learning w now ∧ s.shared.queue.shutdown = true
  | .finished report outcome => s.Decides entropy report outcome ∧ s.workers = []
  | .failed _ => False

namespace Stage.Follows

-- ---------------------------------------------------------------------------
-- A step of the worker
-- ---------------------------------------------------------------------------

theorem work {place : Nat} (h : stage.Follows entropy s) (reliable : s.setup.task.Reliable)
    (run : Run a ⟨s, stage.activity⟩) (step : s.stepWorker place = some s') :
    stage.Follows entropy s' ∧ ∃ b w now, s.Abreast b w now := by
  obtain ⟨hm, ho⟩ := run.orderly
  have agrees := run.drawn.agrees
  -- Between two calls there is nothing to do.
  have still : s.Settled → s.shared.queue.shutdown = false → False := by
    intro settled opened
    obtain ⟨remaining, active⟩ := settled opened
    rw [hm.still opened remaining active place] at step
    cases step
  have empty : s.workers = [] → False := by
    intro none
    simp [Session.stepWorker, none] at step
  cases stage with
  | starting => exact (empty h.1).elim
  | finished => exact (empty h.2).elim
  | started =>
    obtain ⟨-, -, opened, -⟩ := h
    exact (still ho opened).elim
  | learned | deciding =>
    obtain ⟨-, -, -, opened, -⟩ := h
    exact (still ho opened).elim
  | checked =>
    obtain ⟨-, -, -, -, opened⟩ := h
    exact (still ho opened).elim
  | learning l =>
    obtain ⟨w, now, follows⟩ := h
    obtain ⟨w', now', follows'⟩ := follows.work reliable hm agrees ho.2 step
    obtain ⟨_, _, _, -, -, rfl⟩ := Session.stepWorker_eq_some step
    exact ⟨⟨w', now', follows'⟩, _, w, now, follows.abreast⟩
  | checking report c =>
    obtain ⟨w, now, final, procedure, follows, chosen, blocks, learnt⟩ := h
    obtain ⟨w', now', follows'⟩ := follows.work reliable hm agrees run.paced step
    obtain ⟨_, _, _, -, -, rfl⟩ := Session.stepWorker_eq_some step
    exact ⟨⟨w', now', final, procedure, follows', chosen, blocks, learnt⟩, _, w, now, follows.abreast⟩
  | stopping =>
    obtain ⟨decides, w, now, abreast, closed⟩ := h
    obtain ⟨_, w', now', rfl, stride, abreast'⟩ := abreast.step reliable agrees hm step
    exact ⟨⟨decides, w', now', abreast', stride.queue.2.2.trans closed⟩, _, w, now, abreast⟩
  | failed => exact h.elim

-- ---------------------------------------------------------------------------
-- A step of the coordinator
-- ---------------------------------------------------------------------------

def Kept (entropy : UInt64) (s s' : Session) (stage' : Stage) : Prop :=
  stage'.Follows entropy s' ∧ s'.setup = s.setup ∧ s'.config = s.config

theorem start (h : Stage.starting.Follows entropy s) (single : s.config.Single)
    (step : Stage.starting.next s = some (s', stage')) : Kept entropy s s' stage' := by
  obtain ⟨empty, seeds, scheduler, queue, unfixed⟩ := h
  have started : s.start = ({ s with
      workers := [Worker.ofSeed (s.config.firstSeed entropy)], seeds := s.seeds.word.2 }, .ok ()) := by
    simp [Session.start, empty, queue, JobQueue.ofContext, Config.threads, single.workers, Session.spawn,
      seeds, Config.firstSeed]
  simp only [Stage.next, started, Option.some.injEq, Prod.mk.injEq] at step
  obtain ⟨rfl, rfl⟩ := step
  refine ⟨⟨.ofSeed (s.config.firstSeed entropy), ?_, by rw [queue]; rfl, unfixed⟩, rfl, rfl⟩
  have first : s.config.first entropy =
      (Worker.ofSeed (s.config.firstSeed entropy)).plain s.shared := by
    simp only [Worker.plain, scheduler]
    rfl
  rw [first]
  exact .of_requesting rfl rfl (by rw [queue]; rfl) (by rw [queue]; rfl)

theorem learn (h : Stage.started.Follows entropy s) (single : s.config.Single) (hm : s.Manned)
    (settled : s.Settled) (step : Stage.started.next s = some (s', stage')) :
    Kept entropy s s' stage' := by
  obtain ⟨w, abreast, opened, unfixed⟩ := h
  obtain ⟨s'', l, started, follows⟩ := Learning.Follows.begin abreast hm settled opened unfixed
    single.untested single.request
  simp only [Stage.next, started, Option.some.injEq, Prod.mk.injEq] at step
  obtain ⟨rfl, rfl⟩ := step
  obtain ⟨-, rfl, -⟩ := Learning.start_eq_ok started
  exact ⟨⟨w, _, follows⟩, rfl, rfl⟩

theorem learning {l : Learning} (h : (Stage.learning l).Follows entropy s) (hm : s.Manned)
    (settled : l.waiting = false → s.Settled)
    (step : (Stage.learning l).next s = some (s', stage')) :
    (stage'.Failed ∧ s.Strained entropy) ∨ Kept entropy s s' stage' := by
  obtain ⟨w, now, follows⟩ := h
  have obeys := follows.step hm settled
  obtain ⟨l', goes, rfl⟩ | ⟨report, ends, rfl⟩ | ⟨stop, ends, rfl⟩ := Progress.stage_eq_some step
  · rw [goes] at obeys
    obtain ⟨w', now', follows'⟩ := obeys
    have turn := Learning.turn_of_step goes
    rw [← turn.samePool.config] at follows'
    exact .inr ⟨⟨w', now', follows'⟩, turn.keeps_setup, turn.samePool.config⟩
  · rw [ends] at obeys
    obtain ⟨rfl, blocks, learnt⟩ := obeys
    exact .inr ⟨⟨w, now, follows.abreast, follows.opened, follows.unfixed, blocks, learnt⟩, rfl, rfl⟩
  · rw [ends] at obeys
    obtain ⟨e, learnt⟩ := obeys
    refine .inl ⟨trivial, fun n result decides => ?_⟩
    obtain ⟨final, -, -, learnt', -⟩ := Plain.run_eq_ok.mp decides
    cases learnt.symm.trans learnt'

theorem determinise (h : (Stage.learned report).Follows entropy s) (hm : s.Manned)
    (settled : s.Settled) (step : (Stage.learned report).next s = some (s', stage')) :
    Kept entropy s s' stage' := by
  obtain ⟨w, now, abreast, opened, unfixed, blocks, learnt⟩ := h
  obtain ⟨-, active⟩ := settled opened
  obtain ⟨asks, rfl⟩ := abreast.asks hm opened active
  cases step
  split
  · next fixes =>
    have overlay : s.config.overlay (w.plain s.shared) = some s.shared.scheduler.determinise :=
      if_pos fixes
    exact ⟨⟨w, w.plain s.shared, .of_requesting abreast.workers asks abreast.context abreast.sound,
      opened, overlay.symm, blocks, learnt⟩, rfl, rfl⟩
  · next samples =>
    have overlay : s.config.overlay (w.plain s.shared) = none := if_neg samples
    refine ⟨⟨w, w.plain s.shared, abreast, opened, ?_, blocks, learnt⟩, rfl, rfl⟩
    rw [unfixed, overlay]
    rfl

theorem decide (h : (Stage.deciding report).Follows entropy s) (single : s.config.Single)
    (hm : s.Manned) (settled : s.Settled) (step : (Stage.deciding report).next s = some (s', stage')) :
    (stage'.Failed ∧ s.Strained entropy) ∨ Kept entropy s s' stage' := by
  obtain ⟨w, now, abreast, opened, overlay, blocks, learnt⟩ := h
  cases chosen : s.config.procedure with
  | error stop =>
    simp only [Stage.next, chosen] at step
    cases step
    refine .inl ⟨trivial, fun n result decides => ?_⟩
    obtain ⟨-, procedure, -, -, chosen', -⟩ := Plain.run_eq_ok.mp decides
    cases chosen.symm.trans chosen'
  | ok procedure =>
    obtain ⟨s'', c, started, setup, config, follows⟩ := Checking.Follows.begin abreast hm settled opened
      (Room.lt_of_claim single.room) single.room procedure
    have both : s.config.procedure >>= Checking.start s = .ok (s'', c) :=
      bind_eq_ok.mpr ⟨procedure, chosen, started⟩
    simp only [Stage.next, both, Option.some.injEq, Prod.mk.injEq] at step
    obtain ⟨rfl, rfl⟩ := step
    refine .inr ⟨⟨w, now, now, procedure, ?_, ?_, ?_, ?_⟩, setup, config⟩
    · rwa [config, ← overlay]
    · rw [config, chosen]
    · rw [config, blocks]
    · rw [config, Session.learnt, setup, config]
      exact learnt

theorem checking {c : Checking} (h : (Stage.checking report c).Follows entropy s) (hm : s.Manned)
    (hp : c.Paced a s) (step : (Stage.checking report c).next s = some (s', stage')) :
    (stage'.Failed ∧ s.Strained entropy) ∨ Kept entropy s s' stage' := by
  obtain ⟨w, now, final, procedure, follows, chosen, blocks, learnt⟩ := h
  have obeys := follows.step hp hm
  obtain ⟨c', goes, rfl⟩ | ⟨outcome, ends, rfl⟩ | ⟨stop, ends, rfl⟩ := Progress.stage_eq_some step
  · rw [goes] at obeys
    obtain ⟨w', now', follows'⟩ := obeys
    have turn := Checking.turn_of_step goes
    have config := turn.samePool.config
    refine .inr ⟨⟨w', now', final, procedure, ?_, ?_, ?_, ?_⟩, turn.keeps_setup, config⟩
    · rwa [config]
    · rw [config, chosen]
    · rw [config, blocks]
    · rw [config, Session.learnt, turn.keeps_setup, config]
      exact learnt
  · rw [ends] at obeys
    obtain ⟨n, w', now', decides, setup, config, abreast, opened⟩ := obeys
    refine .inr ⟨⟨⟨?_, n, ?_⟩, w', now', abreast, opened⟩, setup, config⟩
    · rw [config, blocks]
    · rw [setup, config, blocks]
      exact Plain.run_eq_ok.mpr ⟨final, procedure, some outcome, learnt, chosen, decides, rfl⟩
  · rw [ends] at obeys
    refine .inl ⟨trivial, fun n result decides => ?_⟩
    obtain ⟨final', procedure', decided, learnt', chosen', decides, found⟩ := Plain.run_eq_ok.mp decides
    cases learnt.symm.trans learnt'
    cases chosen.symm.trans chosen'
    cases decided with
    | none => cases found
    | some outcome => exact obeys n outcome decides

theorem stop (h : (Stage.checked report outcome).Follows entropy s)
    (step : (Stage.checked report outcome).next s = some (s', stage')) : Kept entropy s s' stage' := by
  obtain ⟨decides, w, now, abreast, opened⟩ := h
  cases step
  have close : s.close = { s with shared := { s.shared with queue := s.shared.queue.close } } := by
    simp [Session.close, abreast.workers]
  rw [close]
  exact ⟨⟨decides, w, now, abreast.of_scheduler _ _ abreast.context abreast.sound, rfl⟩, rfl, rfl⟩

theorem join (h : (Stage.stopping report outcome).Follows entropy s)
    (step : (Stage.stopping report outcome).next s = some (s', stage')) : Kept entropy s s' stage' := by
  obtain ⟨decides, -⟩ := h
  simp only [Stage.next, Session.join] at step
  split at step
  · cases step
    exact ⟨⟨decides, rfl⟩, rfl, rfl⟩
  · cases step

theorem next (h : stage.Follows entropy s) (single : s.config.Single)
    (run : Run a ⟨s, stage.activity⟩) (step : stage.next s = some (s', stage')) :
    (stage'.Failed ∧ s.Strained entropy) ∨ Kept entropy s s' stage' := by
  obtain ⟨hm, ho⟩ := run.orderly
  cases stage with
  | starting => exact .inr (h.start single step)
  | started => exact .inr (h.learn single hm ho step)
  | learning => exact h.learning hm ho.2 step
  | learned => exact .inr (h.determinise hm ho step)
  | deciding => exact h.decide single hm ho step
  | checking => exact h.checking hm run.paced step
  | checked => exact .inr (h.stop step)
  | stopping => exact .inr (h.join step)
  | finished => cases step
  | failed => exact h.elim

-- ---------------------------------------------------------------------------
-- Nobody waits for nothing
-- ---------------------------------------------------------------------------

end Stage.Follows

theorem Session.Abreast.goes_on (h : s.Abreast .learning w now) (going : w.phase ≠ .stopped)
    (answers : w.phase = .requesting → s.shared.queue.answers = true) :
    ∃ s', s.stepWorker 0 = some s' := by
  have ready : w.ready s.shared = true := by
    unfold Worker.ready
    cases h.place with
    | on simulates =>
      cases hp : w.phase with
      | simulating | entering | sampling => rfl
      | _ => simp [hp, Phase.simulates?] at simulates
    | past rests =>
      cases hp : w.phase with
      | requesting => exact answers hp
      | delivering holding => simp [h.carried holding (by rw [hp]; rfl), Batch.learning]
      | stopped => exact absurd hp going
      | _ => simp [hp, Phase.Rests] at rests
  simp [stepWorker, h.workers, Worker.step, ready]

namespace Stage.Follows

/-- Until a whole run has finished, the coordinator or the worker can go on. -/
theorem goes_on (h : stage.Follows entropy s) (run : Run a ⟨s, stage.activity⟩)
    (unfinished : ∀ report outcome, stage ≠ .finished report outcome) :
    ∃ q, Point.Step ⟨s, stage⟩ q := by
  cases next : stage.next s with
  | some after => exact ⟨⟨after.1, after.2⟩, .coordinate next⟩
  | none =>
    obtain ⟨hm, ho⟩ := run.orderly
    suffices ∃ place s', s.stepWorker place = some s' by
      obtain ⟨place, s', step⟩ := this
      exact ⟨_, .work place step⟩
    cases stage with
    | learning l =>
      obtain ⟨w, now, follows⟩ := h
      obtain ⟨waiting, busy⟩ := Learning.waits_of_blocked (Progress.stage_eq_none next)
      have present : w ∈ s.workers := by simp [follows.abreast.workers]
      refine ⟨0, follows.abreast.goes_on (fun stopped => ?_) fun asks => ?_⟩
      · have closed := hm.done w present (by rw [stopped]; trivial)
        rw [follows.opened] at closed
        contradiction
      · have active := hm.active
        rw [follows.abreast.workers] at active
        simp [asks, Phase.grants] at active
        have remaining : s.shared.queue.remaining ≠ 0 := by
          intro none
          simp [JobQueue.idle, none, active] at busy
        simp [JobQueue.answers, remaining]
    | checking report c =>
      have blocked := Progress.stage_eq_none next
      obtain ⟨place, some⟩ := Checking.Paced.goes_on run.paced hm ho blocked
      exact ⟨place, Option.isSome_iff_exists.mp some⟩
    | stopping report outcome =>
      obtain ⟨-, w, now, abreast, closed⟩ := h
      refine ⟨0, abreast.goes_on (fun stopped => ?_) fun _ => by simp [JobQueue.answers, closed]⟩
      simp [Stage.next, Session.join, abreast.workers, Worker.hasStopped, stopped,
        Progress.stage?] at next
    | finished report outcome => exact absurd rfl (unfinished report outcome)
    | failed => exact h.elim
    | learned | checked => cases next
    | starting | started | deciding =>
      simp only [Stage.next] at next
      split at next <;> cases next

end Stage.Follows

end SchedulerLearning

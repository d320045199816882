import SchedulerLearning.Proofs.AgreementRuns
import SchedulerLearning.Proofs.WorkerInSequence
import Mathlib.Data.Prod.Lex

/-!
# A session with one worker

The only worker of a session does the jobs of the sequential program in their order. Every step of
it is one of a few strides, none of which fails if no simulation does.
-/

namespace SchedulerLearning

def Phase.Rests : Phase → Prop
  | .requesting | .delivering _ _ _ _ | .stopped => True
  | _ => False

@[simp] theorem Phase.simulates_delivering (holding : Holding) (credits : List Credit) (missed : Bool)
    (verdict : Verdict) : (delivering holding credits missed verdict).simulates? = none := rfl

/-- How many steps a worker has left at most until it is done with a trace, or with the credits of
one. -/
def Phase.steps : Phase → Nat
  | .requesting => 1
  | .simulating _ left _ => 3 * left
  | .entering _ left _ _ _ => 3 * left + 2
  | .sampling _ left _ _ _ => 3 * left + 1
  | .delivering _ credits missed _ => 2 * credits.length + if missed then 0 else 1
  | .failing _ _ | .reporting _ | .stopped => 0

/-- Where a worker is in the sequence of jobs: at the one that the program does next, or past all
that the program has done. -/
inductive Worker.At (setup : Setup) (overlay : Option Overlay) (shared : Shared) (w : Worker) :
    Plain → Prop
  | on {now next holding r} (simulates : w.phase.simulates? = some holding)
      (job : now.job setup.task overlay = .ok (r, next))
      (finishes : (w.plain shared).Finishes setup.task w.phase r.trace next) :
      At setup overlay shared w now
  | past (rests : w.phase.Rests) : At setup overlay shared w (w.plain shared)

inductive Stride (setup : Setup) (b : Batch) (shared : Shared) (w : Worker) (now : Plain) :
    Shared → Worker → Plain → Prop
  | claim {count w'} (asks : w.phase = .requesting) (least : 1 ≤ count)
      (most : count ≤ shared.queue.remaining) (begins : w'.phase = Worker.beginJob setup ⟨count, b⟩) :
      Stride setup b shared w now { shared with queue := { shared.queue with
        remaining := shared.queue.remaining - count, active := shared.queue.active + 1 } } w' now
  | leave {w'} (asks : w.phase = .requesting) (closed : shared.queue.shutdown = true)
      (leaves : w'.phase = .stopped) : Stride setup b shared w now shared w' now
  | pursue {holding scheduler w'} (before : w.phase.simulates? = some holding)
      (after : w'.phase.simulates? = some holding) (nearer : w'.phase.steps < w.phase.steps) :
      Stride setup b shared w now { shared with scheduler } w' now
  | judge {holding scheduler w' r next} (before : w.phase.simulates? = some holding)
      (job : now.job setup.task b.overlay = .ok (r, next))
      (after : w'.phase = .delivering holding (setup.creditsOf b.sink r.trace r.verdict) false r.verdict) :
      Stride setup b shared w now { shared with scheduler } w' next
  | miss {holding credits verdict w'}
      (delivers : w.phase = .delivering holding credits false verdict)
      (after : w'.phase = .delivering holding credits true verdict) :
      Stride setup b shared w now shared w' now
  | credit {holding c rest missed verdict rewards w'}
      (delivers : w.phase = .delivering holding (c :: rest) missed verdict)
      (credited : shared.rewards.credit c = (rewards, .ok ()))
      (after : w'.phase = .delivering holding rest false verdict) :
      Stride setup b shared w now { shared with rewards } w' now
  | next {holding credits missed verdict shared' w'}
      (delivers : w.phase = .delivering holding credits missed verdict) (more : 1 < holding.jobs)
      (delivered : shared.deliver b.sink credits verdict = (shared', .ok ()))
      (begins : w'.phase = Worker.beginJob setup ⟨holding.jobs - 1, b⟩) :
      Stride setup b shared w now shared' w' now
  | last {holding credits missed verdict shared' w'}
      (delivers : w.phase = .delivering holding credits missed verdict) (last : holding.jobs ≤ 1)
      (delivered : shared.deliver b.sink credits verdict = (shared', .ok ()))
      (asks : w'.phase = .requesting) :
      Stride setup b shared w now
        { shared' with queue := { shared.queue with active := shared.queue.active - 1 } } w' now

variable {setup : Setup} {b : Batch} {shared shared' : Shared} {w w' : Worker} {now next : Plain}
  {s s' : Session} {overlay : Option Overlay}

-- ---------------------------------------------------------------------------
-- Deliveries
-- ---------------------------------------------------------------------------

namespace Shared

variable {credits : List Credit} {verdict : Verdict} {sink : Sink}

theorem deliver_verdicts :
    shared.deliver .verdicts credits verdict = (shared.send (.ok verdict), .ok ()) := rfl

theorem deliver_rewards {rewards : Rewards}
    (credited : shared.rewards.creditAll credits = (rewards, .ok ())) :
    shared.deliver .rewards credits verdict =
      (({ shared with rewards } : Shared).count verdict, .ok ()) := by
  simp [deliver, Shared.creditAll, credited]

theorem Fits.deliver (h : shared.Fits setup)
    (hcs : ∀ c ∈ credits, c.Fits setup.process shared.scheduler) (sink : Sink) (verdict : Verdict) :
    ∃ shared', shared.deliver sink credits verdict = (shared', .ok ()) ∧
      shared'.scheduler = shared.scheduler ∧ shared'.queue = shared.queue := by
  cases sink with
  | verdicts => exact ⟨_, deliver_verdicts, rfl, rfl⟩
  | rewards =>
    obtain ⟨rewards, credited, -⟩ := h.rewards.creditAll hcs
    exact ⟨_, deliver_rewards credited, scheduler_count verdict, queue_count _ verdict⟩

end Shared

-- ---------------------------------------------------------------------------
-- One step of the worker
-- ---------------------------------------------------------------------------

namespace Worker

theorem beginJob_eq (reliable : setup.task.Reliable) (holding : Holding) :
    beginJob setup holding = .simulating holding setup.traceLength (.start setup.initial) := by
  unfold beginJob
  rw [show Trace.withRoom setup.initial setup.traceLength = _ from reliable.room]
  rfl

theorem At.begin {count : Nat} (reliable : setup.task.Reliable)
    (fits : shared.scheduler.Fits setup.process) (hb : b.Fits setup.process)
    (begins : w.phase = beginJob setup ⟨count, b⟩) :
    w.At setup b.overlay shared (w.plain shared) := by
  rw [beginJob_eq reliable] at begins
  have now : (w.plain shared).scheduler.Fits setup.task.process := fits
  obtain ⟨r, next, job, -⟩ := reliable.job hb.overlay now
  have simulates : w.phase.simulates? = some ⟨count, b⟩ := by
    rw [begins]
    rfl
  refine .on simulates job ?_
  obtain ⟨simulated, -⟩ := Plain.job_eq_ok.mp job
  rw [Plain.simulate_eq, reliable.room] at simulated
  rw [begins]
  exact .simulating simulated

section

variable {holding : Holding} {left : Nat} {t : Trace} {offers : List (Distribution Float)}

theorem steps_of_simulating {p : Phase}
    (h : (∃ t, p = .simulating holding left t) ∨ ∃ error, p = .failing holding error) :
    p.steps ≤ 3 * left := by
  rcases h with ⟨_, rfl⟩ | ⟨_, rfl⟩
  · exact le_rfl
  · exact Nat.zero_le _

theorem explore_steps (going : (w.explore setup shared holding left t).phase.simulates?.isSome) :
    (w.explore setup shared holding left t).phase.steps < 3 * left := by
  have judging : (w.checkTrace setup holding t).phase.simulates? = none := by
    unfold checkTrace
    split <;> rfl
  unfold explore at going ⊢
  cases left with
  | zero => simp [judging] at going
  | succ left =>
    simp only at going ⊢
    split at going
    · cases going
    · simp [judging] at going
    · exact Nat.lt_of_le_of_lt (steps_of_simulating (advance_cases ..)) (by omega)
    · split at going
      · exact Nat.lt_of_le_of_lt (steps_of_simulating (take_cases ..)) (by omega)
      · split <;> simp only [Phase.steps] <;> omega

theorem act_steps {holding' : Holding} (before : w.phase.simulates? = some holding)
    (after : (w.act setup shared).2.phase.simulates? = some holding') :
    (w.act setup shared).2.phase.steps < w.phase.steps := by
  unfold act at after ⊢
  cases hp : w.phase with
  | simulating =>
    simp only [hp] at after ⊢
    exact explore_steps (by simp [after])
  | entering => exact Nat.lt_succ_self _
  | sampling => exact Nat.lt_succ_of_le (steps_of_simulating (take_cases ..))
  | _ =>
    rw [hp] at before
    cases before

end

def Strides (setup : Setup) (b : Batch) (shared : Shared) (w : Worker) (now : Plain)
    (after : Shared × Worker) : Prop :=
  ∃ now', Stride setup b shared w now after.1 after.2 now' ∧
    after.2.At setup b.overlay after.1 now' ∧
    ∀ holding, after.2.phase.holding? = some holding → holding.batch = b

theorem simulating_strides {holding : Holding} {r : Result} (same : holding.batch = b)
    (simulates : w.phase.simulates? = some holding)
    (job : now.job setup.task b.overlay = .ok (r, next))
    (finishes : (w.plain shared).Finishes setup.task w.phase r.trace next) :
    Strides setup b shared w now (w.act setup shared) := by
  obtain ⟨scheduler, stores, pursues⟩ :=
    act_pursues simulates finishes (Plain.job_eq_ok.mp job).2
  unfold Strides
  rw [stores] at pursues ⊢
  cases pursues with
  | on simulates' finishes' =>
    refine ⟨now, .pursue simulates simulates' (act_steps simulates simulates'),
      .on simulates' job finishes', fun held h => ?_⟩
    rw [Phase.holding_of_simulates simulates'] at h
    cases h
    exact same
  | judged delivers past =>
    rw [same] at delivers
    refine ⟨next, .judge simulates job delivers, ?_, fun held h => ?_⟩
    · rw [← past]
      exact .past (by rw [delivers]; trivial)
    · rw [delivers] at h
      cases h
      exact same

theorem requesting_strides (reliable : setup.task.Reliable) (fits : shared.Fits setup)
    (context : shared.queue.context = b) (asks : w.phase = .requesting)
    (ready : w.ready shared = true) :
    Strides setup b shared w (w.plain shared) (w.act setup shared) := by
  unfold act
  rw [asks]
  simp only
  cases asked : shared.queue.request setup.jobsPerRequest with
  | mk answer queue =>
    cases answer with
    | granted grant =>
      obtain ⟨count, carries⟩ := grant
      obtain ⟨-, least, -, most, same, rfl⟩ := JobQueue.request_granted asked
      obtain rfl : carries = b := same.trans context
      refine ⟨_, .claim asks least most rfl, .begin reliable fits.scheduler ?_ rfl, ?_⟩
      · rw [← context]
        exact fits.context
      · simp
    | closed =>
      obtain ⟨closed, -⟩ := JobQueue.request_closed asked
      exact ⟨_, .leave asks closed rfl, .past trivial, by simp⟩
    | wait =>
      obtain ⟨opened, none, -⟩ := JobQueue.request_wait asked
      simp [Worker.ready, asks, JobQueue.answers, opened, none] at ready

theorem delivering_strides {jobs : Nat} {credits : List Credit} {missed : Bool} {verdict : Verdict}
    (reliable : setup.task.Reliable) (fits : shared.Fits setup) (hb : b.Fits setup.process)
    (hcs : ∀ c ∈ credits, c.Fits setup.process shared.scheduler) (active : 0 < shared.queue.active)
    (delivers : w.phase = .delivering ⟨jobs, b⟩ credits missed verdict) :
    Strides setup b shared w (w.plain shared) (w.act setup shared) := by
  obtain ⟨shared', delivered, scheduler, queue⟩ := fits.deliver hcs b.sink verdict
  unfold act
  rw [delivers]
  simp only
  split
  · next last =>
    unfold deliverLast
    simp only [delivered, queue, JobQueue.finish, active, if_true]
    refine ⟨_, .last delivers last delivered rfl, ?_, by simp⟩
    simp only [plain, ← scheduler]
    exact .past trivial
  · next more =>
    have more : 1 < jobs := by omega
    have begins : ∀ {w' : Worker}, w'.branching = w.branching → w'.choosing = w.choosing →
        w'.phase = beginJob setup ⟨jobs - 1, b⟩ →
        Strides setup b shared w (w.plain shared) (shared', w') := by
      intro w' branching choosing begins
      refine ⟨_, .next delivers more delivered begins, ?_, by simp [begins]⟩
      have here : w'.plain shared' = w.plain shared := by
        simp only [plain, branching, choosing, scheduler]
      rw [← here]
      refine .begin reliable ?_ hb begins
      rw [scheduler]
      exact fits.scheduler
    unfold deliver
    cases sink : b.sink with
    | verdicts =>
      rw [sink, Shared.deliver_verdicts] at delivered
      cases delivered
      exact begins rfl rfl rfl
    | rewards =>
      rw [sink] at delivered
      cases credits with
      | nil =>
        cases delivered
        exact begins rfl rfl rfl
      | cons c rest =>
        simp only
        split
        · obtain ⟨rewards, credited, -⟩ := fits.rewards.credit (hcs c (by simp))
          simp only [Shared.credit, credited]
          exact ⟨_, .credit delivers credited rfl, .past trivial, by simp⟩
        · next unknown =>
          obtain rfl : missed = false := by simp_all
          exact ⟨_, .miss delivers rfl, .past trivial, by simp⟩

theorem act_strides (reliable : setup.task.Reliable) (fits : shared.Fits setup)
    (hw : w.phase.Fits setup shared.scheduler) (context : shared.queue.context = b)
    (carried : ∀ holding, w.phase.holding? = some holding → holding.batch = b)
    (active : w.phase.holding?.isSome → 0 < shared.queue.active) (ready : w.ready shared = true)
    (place : w.At setup b.overlay shared now) :
    Strides setup b shared w now (w.act setup shared) := by
  cases place with
  | on simulates job finishes =>
    exact simulating_strides (carried _ (Phase.holding_of_simulates simulates)) simulates job finishes
  | past rests =>
    cases hp : w.phase with
    | requesting => exact requesting_strides reliable fits context hp ready
    | delivering holding credits missed verdict =>
      rw [hp] at hw carried active
      obtain ⟨jobs, batch⟩ := holding
      obtain rfl : batch = b := carried _ rfl
      exact delivering_strides reliable fits hw.1 hw.2 (active rfl) hp
    | stopped => simp [Worker.ready, hp] at ready
    | _ =>
      rw [hp] at rests
      cases rests

end Worker

-- ---------------------------------------------------------------------------
-- One step of the session
-- ---------------------------------------------------------------------------

theorem Shared.queue_of_deliver {sink : Sink} {credits : List Credit} {verdict : Verdict}
    (h : shared.deliver sink credits verdict = (shared', .ok ())) : shared'.queue = shared.queue := by
  cases sink with
  | verdicts =>
    cases h
    rfl
  | rewards =>
    cases credited : shared.rewards.creditAll credits with
    | mk rewards result =>
      cases result with
      | ok =>
        rw [deliver_rewards credited] at h
        cases h
        exact queue_count _ verdict
      | error fault => simp [deliver, Shared.creditAll, credited] at h

theorem Stride.queue {now' : Plain} (h : Stride setup b shared w now shared' w' now') :
    shared'.queue.context = shared.queue.context ∧
      shared'.queue.failure = shared.queue.failure ∧
      shared'.queue.shutdown = shared.queue.shutdown := by
  cases h with
  | next _ _ delivered =>
    rw [Shared.queue_of_deliver delivered]
    exact ⟨rfl, rfl, rfl⟩
  | _ => exact ⟨rfl, rfl, rfl⟩

/-- How much is left to do for a worker: the jobs that it may claim come first, then those that it
has, then what is left of one. -/
def Phase.ahead (p : Phase) (q : JobQueue Batch) : ℕ ×ₗ ℕ ×ₗ ℕ ×ₗ ℕ :=
  toLex (q.remaining, toLex (p.jobs, toLex (p.simulates?.elim 0 fun _ => 1, p.steps)))

theorem Stride.ahead {now' : Plain} (h : Stride setup b shared w now shared' w' now')
    (positive : ∀ holding, w.phase.holding? = some holding → 0 < holding.jobs) :
    w'.phase.ahead shared'.queue < w.phase.ahead shared.queue := by
  simp only [Phase.ahead, Prod.Lex.toLex_lt_toLex]
  cases h with
  | claim asks least most begins =>
    simp only
    omega
  | leave asks closed leaves =>
    rw [asks, leaves]
    simp [Phase.jobs, Phase.simulates?, Phase.steps]
  | pursue before after nearer =>
    have jobs := Phase.jobs_of_holding (Phase.holding_of_simulates before)
    have jobs' := Phase.jobs_of_holding (Phase.holding_of_simulates after)
    simp [jobs, jobs', before, after, nearer]
  | judge before job after =>
    have jobs := Phase.jobs_of_holding (Phase.holding_of_simulates before)
    simp [jobs, before, after]
  | miss delivers after =>
    rw [delivers, after]
    simp [Phase.steps]
  | credit delivers credited after =>
    rw [delivers, after]
    simp [Phase.steps]
    omega
  | next delivers more delivered begins =>
    rw [delivers, begins, Shared.queue_of_deliver delivered]
    simp
    omega
  | last delivers last delivered asks =>
    have held := positive _ (by rw [delivers]; rfl)
    rw [delivers, asks]
    simp [held]

structure Session.Abreast (s : Session) (b : Batch) (w : Worker) (now : Plain) : Prop where
  workers : s.workers = [w]
  context : s.shared.queue.context = b
  sound : s.shared.queue.failure = none
  carried : ∀ holding, w.phase.holding? = some holding → holding.batch = b
  place : w.At s.setup b.overlay s.shared now

namespace Session.Abreast

theorem step {place : Nat} (h : s.Abreast b w now) (reliable : s.setup.task.Reliable)
    (agrees : s.Agrees) (hm : s.Manned) (step : s.stepWorker place = some s') :
    ∃ shared' w' now', s' = { s with shared := shared', workers := [w'] } ∧
      Stride s.setup b s.shared w now shared' w' now' ∧ s'.Abreast b w' now' := by
  obtain ⟨v, there, ready, rfl⟩ := act_of_stepWorker step
  obtain ⟨rfl, rfl⟩ : place = 0 ∧ w = v := by
    rw [h.workers] at there
    cases place with
    | zero => exact ⟨rfl, by simpa using there⟩
    | succ place => simp at there
  have present : w ∈ s.workers := List.mem_of_getElem? there
  have active : w.phase.holding?.isSome → 0 < s.shared.queue.active := by
    intro held
    have := Phase.grants_pos.mpr held
    have := hm.active
    have := le_sum_map (fun w : Worker => w.phase.grants) present
    omega
  obtain ⟨now', stride, at', carried⟩ := Worker.act_strides reliable agrees.stores
    (agrees.workers w present) h.context h.carried active ready h.place
  obtain ⟨context, failure, -⟩ := stride.queue
  have alone (w' : Worker) : s.workers.set 0 w' = [w'] := by rw [h.workers]; rfl
  exact ⟨_, _, now', by rw [alone], stride, alone _, context.trans h.context,
    failure.trans h.sound, carried, at'⟩

theorem asks (h : s.Abreast b w now) (hm : s.Manned) (opened : s.shared.queue.shutdown = false)
    (active : s.shared.queue.active = 0) : w.phase = .requesting ∧ now = w.plain s.shared := by
  have asks := hm.requesting opened active w (by simp [h.workers])
  refine ⟨asks, ?_⟩
  cases h.place with
  | on simulates =>
    rw [asks] at simulates
    cases simulates
  | past => rfl

/-- The place of the worker hangs on the scheduler alone. -/
theorem of_scheduler (h : s.Abreast b w now) (queue : JobQueue Batch) (channel : Option (Channel Report))
    (context : queue.context = b) (sound : queue.failure = none) :
    Abreast { s with shared := { s.shared with queue, channel } } b w now := by
  refine ⟨h.workers, context, sound, h.carried, ?_⟩
  cases h.place with
  | on simulates job finishes => exact .on simulates job finishes
  | past rests => exact .past rests

/-- A worker that waits for jobs is at the place in the sequence where the next grant puts it. -/
theorem of_requesting (workers : s.workers = [w]) (asks : w.phase = .requesting)
    (context : s.shared.queue.context = b) (sound : s.shared.queue.failure = none) :
    s.Abreast b w (w.plain s.shared) := by
  refine ⟨workers, context, sound, fun holding held => ?_, .past ?_⟩
  · rw [asks] at held
    cases held
  · rw [asks]
    trivial

theorem running (h : s.Abreast b w now) (opened : s.shared.queue.shutdown = false) :
    s.ensureRunning = .ok () := by
  simp [ensureRunning, h.sound, opened, h.workers]

end Session.Abreast

end SchedulerLearning

import SchedulerLearning.Proofs.Runs

/-!
# The pool is accounted for

In every run, the grants that the queue counts as active are those the workers hold, each
with a job left, and a worker that takes no grant any more has seen the queue closed. So a
session between two calls, or between two batches, has no job out and no worker that can go
on, unless its queue is closed.
-/

namespace SchedulerLearning

variable {setup : Setup} {shared shared' : Shared} {p q : Phase} {s s' : Session}

-- ---------------------------------------------------------------------------
-- One move
-- ---------------------------------------------------------------------------

namespace Move

theorem active (h : Move setup shared p shared' q) (held : p.grants ≤ shared.queue.active) :
    shared'.queue.active + p.grants = shared.queue.active + q.grants := by
  cases h with
  | claim granted =>
    obtain ⟨-, -, -, -, -, rfl⟩ := JobQueue.request_granted granted
    simp [Phase.grants]
  | explore before after =>
    rw [Phase.grants_of_holding (Phase.holding_of_simulates before),
      Phase.grants_of_holding (Phase.holding_of_simulates after)]
  | abandon before =>
    rw [Phase.grants_of_holding (Phase.holding_of_simulates before)]
    rfl
  | countLast | sendLast | fail =>
    simp only [Phase.grants, Phase.holding_delivering, Phase.holding_failing, Option.elim] at held
    simp [Phase.grants]
    omega
  | _ => simp [Phase.grants]

theorem jobs_pos (h : Move setup shared p shared' q)
    (hp : ∀ holding, p.holding? = some holding → 0 < holding.jobs) :
    ∀ holding, q.holding? = some holding → 0 < holding.jobs := by
  cases h with
  | claim granted =>
    obtain ⟨-, least, -⟩ := JobQueue.request_granted granted
    simpa [Nat.lt_iff_add_one_le] using least
  | explore before after =>
    have same := hp _ (Phase.holding_of_simulates before)
    simpa [Phase.holding_of_simulates after] using same
  | abandon before =>
    have same := hp _ (Phase.holding_of_simulates before)
    simpa using same
  | count sink more | send sink more =>
    simp only [Worker.beginJob_holding, Option.some.injEq, forall_eq']
    omega
  | judge | miss | credit | crash => simpa using hp
  | leave | countLast | sendLast | fail | report => simp

theorem shutdown (h : Move setup shared p shared' q) (hs : shared.queue.shutdown = true) :
    shared'.queue.shutdown = true := by
  cases h with
  | claim granted =>
    obtain ⟨opened, -⟩ := JobQueue.request_granted granted
    rw [hs] at opened
    contradiction
  | fail => rfl
  | _ => simpa using hs

theorem failure (h : Move setup shared p shared' q) (hf : shared'.queue.failure = none) :
    shared.queue.failure = none ∧ ¬p.Failing ∧ shared'.queue.shutdown = shared.queue.shutdown := by
  cases h with
  | claim granted =>
    obtain ⟨-, -, -, -, -, rfl⟩ := JobQueue.request_granted granted
    exact ⟨hf, id, rfl⟩
  | explore before | abandon before =>
    exact ⟨hf, Phase.not_failing_of_simulates before, rfl⟩
  | fail => simp [JobQueue.fail] at hf
  | _ => exact ⟨by simpa using hf, id, by simp⟩

theorem closed (h : Move setup shared p shared' q)
    (hs : shared.queue.failure.isSome → shared.queue.shutdown = true)
    (hf : shared'.queue.failure.isSome) : shared'.queue.shutdown = true := by
  cases h with
  | claim granted =>
    obtain ⟨-, -, -, -, -, rfl⟩ := JobQueue.request_granted granted
    exact hs hf
  | fail => rfl
  | _ => simpa using hs (by simpa using hf)

/-- A worker takes no grant any more only once the queue is closed. -/
theorem done (h : Move setup shared p shared' q)
    (hp : p.Done → shared.queue.shutdown = true) (hq : q.Done) : shared'.queue.shutdown = true := by
  cases h with
  | claim | count | send =>
    rcases Worker.beginJob_cases setup _ with ⟨_, _, hb⟩ | ⟨_, hb⟩ <;> rw [hb] at hq <;> cases hq
  | explore before after => exact absurd hq (Phase.not_done_of_simulates after)
  | leave closed => exact closed
  | fail => rfl
  | report => exact hp trivial
  | _ => cases hq

end Move

theorem sum_phases {M : Type} [AddCommMonoid M] (f : Phase → M) {ws : List Worker} {p : Phase}
    (nothing : f p = 0) (same : ∀ w ∈ ws, w.phase = p) : (ws.map fun w => f w.phase).sum = 0 :=
  sum_map_eq_zero fun w hw => by rw [same w hw, nothing]

-- ---------------------------------------------------------------------------
-- One step of a worker
-- ---------------------------------------------------------------------------

namespace Session

structure Manned (s : Session) : Prop where
  active : s.shared.queue.active = (s.workers.map (·.phase.grants)).sum
  positive : ∀ w ∈ s.workers, ∀ holding, w.phase.holding? = some holding → 0 < holding.jobs
  done : ∀ w ∈ s.workers, w.phase.Done → s.shared.queue.shutdown = true
  failure : s.shared.queue.failure.isSome → s.shared.queue.shutdown = true

inductive Works (s : Session) (place : Nat) : Session → Prop
  | mk {w w' shared'} (there : s.workers[place]? = some w)
      (move : Move s.setup s.shared w.phase shared' w'.phase) :
      Works s place { s with shared := shared', workers := s.workers.set place w' }

theorem stepWorker_eq_some {place : Nat} (h : s.stepWorker place = some s') :
    ∃ w shared' w', s.workers[place]? = some w ∧ w.step s.setup s.shared = some (shared', w') ∧
      s' = { s with shared := shared', workers := s.workers.set place w' } := by
  unfold stepWorker at h
  simp only [Option.bind_eq_bind, Option.bind_eq_some_iff] at h
  obtain ⟨w, there, ⟨shared', w'⟩, step, h⟩ := h
  exact ⟨w, shared', w', there, step, (Option.some.inj h).symm⟩

theorem act_of_stepWorker {place : Nat} (h : s.stepWorker place = some s') :
    ∃ w, s.workers[place]? = some w ∧ w.ready s.shared = true ∧
      s' = { s with
        shared := (w.act s.setup s.shared).1
        workers := s.workers.set place (w.act s.setup s.shared).2 } := by
  obtain ⟨w, shared', w', there, acts, rfl⟩ := stepWorker_eq_some h
  unfold Worker.step at acts
  split at acts
  · next ready =>
    have same := Option.some.inj acts
    exact ⟨w, there, ready, by rw [same]⟩
  · cases acts

theorem Manned.works {place : Nat} (hm : s.Manned) (h : s.stepWorker place = some s') :
    Works s place s' := by
  obtain ⟨w, shared', w', there, step, rfl⟩ := stepWorker_eq_some h
  -- A worker with a grant is counted as active, so the queue lets it end the grant.
  have active : w.phase.grants ≤ s.shared.queue.active := by
    rw [hm.active]
    exact le_sum_map (fun w : Worker => w.phase.grants) (List.mem_of_getElem? there)
  exact .mk there (Worker.move_of_step step fun held => by
    have := Phase.grants_pos.mpr held
    omega)

theorem Manned.work {place : Nat} (hm : s.Manned) (h : Works s place s') : s'.Manned := by
  cases h with
  | @mk w w' shared' there move =>
    have present := List.mem_of_getElem? there
    have held : w.phase.grants ≤ s.shared.queue.active := by
      rw [hm.active]
      exact le_sum_map (fun w : Worker => w.phase.grants) present
    refine ⟨?_, ?_, ?_, move.closed hm.failure⟩
    · have moved := move.active held
      have total := sum_map_set (fun w : Worker => w.phase.grants) there w'
      have := hm.active
      simp only at moved ⊢
      omega
    · exact forall_mem_set hm.positive (move.jobs_pos (hm.positive w present))
    · refine forall_mem_set (fun v hv done => ?_) (move.done (hm.done w present))
      exact move.shutdown (hm.done v hv done)

-- ---------------------------------------------------------------------------
-- Sessions with no job out
-- ---------------------------------------------------------------------------

def Settled (s : Session) : Prop :=
  s.shared.queue.shutdown = false → s.shared.queue.remaining = 0 ∧ s.shared.queue.active = 0

theorem Manned.settled_of_idle (hm : s.Manned) (idle : s.shared.queue.idle = true) : s.Settled := by
  rcases JobQueue.idle_iff.mp idle with out | failed
  · exact fun _ => out
  · intro opened
    rw [hm.failure failed] at opened
    contradiction

theorem Manned.requesting (hm : s.Manned) (opened : s.shared.queue.shutdown = false)
    (active : s.shared.queue.active = 0) : ∀ w ∈ s.workers, w.phase = .requesting := by
  intro w hw
  have none : w.phase.grants = 0 := by
    have := le_sum_map (fun w : Worker => w.phase.grants) hw
    have := hm.active
    omega
  have done := hm.done w hw
  rw [opened] at done
  cases hp : w.phase with
  | requesting => rfl
  | reporting | stopped =>
    rw [hp] at done
    exact absurd (done trivial) Bool.false_ne_true
  | _ => simp [hp, Phase.grants, Phase.holding?] at none

theorem Manned.still (hm : s.Manned) (opened : s.shared.queue.shutdown = false)
    (remaining : s.shared.queue.remaining = 0) (active : s.shared.queue.active = 0) (place : Nat) :
    s.stepWorker place = none := by
  cases h : s.stepWorker place with
  | none => rfl
  | some s' =>
    obtain ⟨w, shared', w', there, step, -⟩ := stepWorker_eq_some h
    have hp := hm.requesting opened active w (List.mem_of_getElem? there)
    have wait := JobQueue.answers_eq_false.mpr ⟨opened, remaining⟩
    simp [Worker.step, Worker.ready, hp, wait] at step

theorem Settled.step {place : Nat} (hs : s.Settled) (hm : s.Manned)
    (h : s.stepWorker place = some s') : s'.Settled := by
  intro opened'
  -- The queue was open already, so there was no job out and no worker to step.
  have opened : s.shared.queue.shutdown = false := by
    cases hm.works h with
    | mk there move =>
      by_contra closed
      rw [move.shutdown (by simpa using closed)] at opened'
      contradiction
  obtain ⟨remaining, active⟩ := hs opened
  rw [hm.still opened remaining active place] at h
  contradiction

-- ---------------------------------------------------------------------------
-- One step of the coordinator
-- ---------------------------------------------------------------------------

theorem Manned.samePool (hm : s.Manned) (h : s.SamePool s') : s'.Manned where
  active := by rw [h.active, h.workers, hm.active]
  positive := by rw [h.workers]; exact hm.positive
  done := by rw [h.workers, h.shutdown]; exact hm.done
  failure := by rw [h.failure, h.shutdown]; exact hm.failure

theorem prepare_eq_ok {process : DecisionProcess Float} {property : Property} {config : Config}
    {machine : Machine} (h : prepare process property config machine = .ok s) :
    config.validate = .ok () ∧ s.config = config ∧ s.workers = [] ∧
      s.shared.queue = .ofContext .learning ∧ s.shared.channel = none := by
  unfold prepare at h
  obtain ⟨⟨⟩, valid, h⟩ := bind_eq_ok.mp h
  obtain ⟨length, -, h⟩ := bind_eq_ok.mp h
  obtain ⟨initial, -, h⟩ := bind_eq_ok.mp h
  obtain ⟨scheduler, -, h⟩ := bind_eq_ok.mp h
  obtain ⟨rewards, -, h⟩ := bind_eq_ok.mp h
  cases h
  exact ⟨mapError_eq_ok.mp valid, rfl, rfl, rfl, rfl⟩

theorem requesting_of_mem_spawn {count : Nat} {seeds : Random.Generator} :
    ∀ w ∈ (spawn count seeds).1, w.phase = .requesting := by
  induction count generalizing seeds with
  | zero => simp [spawn]
  | succ count ih =>
    intro w hw
    rcases List.mem_cons.mp hw with rfl | hw
    · rfl
    · exact ih w hw

theorem start_eq_ok (h : s.start = (s', .ok ())) :
    s.workers = [] ∧ ∃ workers seeds, s' = { s with workers, seeds } ∧
      ∀ w ∈ workers, w.phase = .requesting := by
  unfold start at h
  split at h
  · simp at h
  · next empty =>
    split at h
    · simp at h
    · cases h
      exact ⟨by simpa using empty, _, _, rfl, requesting_of_mem_spawn⟩

theorem join_eq_returns {result : Except (Stop LearnError) (List Nat)} (h : s.join = .returns s' result) :
    (∀ w ∈ s.workers, w.phase = .stopped) ∧ s' = { s with workers := [] } := by
  unfold join at h
  split at h
  · next all =>
    cases h
    refine ⟨fun w hw => ?_, rfl⟩
    have stopped := List.all_eq_true.mp all w hw
    unfold Worker.hasStopped at stopped
    split at stopped
    · assumption
    · contradiction
  · cases h

theorem Manned.start (hm : s.Manned) (h : s.start = (s', .ok ())) : s'.Manned := by
  obtain ⟨empty, workers, seeds, rfl, requesting⟩ := start_eq_ok h
  refine ⟨?_, ?_, ?_, hm.failure⟩
  · have idle := hm.active
    rw [sum_phases Phase.grants rfl requesting]
    simpa [empty] using idle
  · intro w hw holding held
    rw [requesting w hw] at held
    cases held
  · intro w hw done
    rw [requesting w hw] at done
    cases done

theorem Manned.close (hm : s.Manned) : s.close.Manned := by
  unfold Session.close
  split
  · exact hm
  · exact ⟨hm.active, hm.positive, fun _ _ _ => rfl, fun _ => rfl⟩

theorem Settled.close (hs : s.Settled) : s.close.Settled := by
  unfold Session.close
  split
  · exact hs
  · exact fun opened => absurd opened Bool.true_eq_false.mp

theorem Manned.join {result : Except (Stop LearnError) (List Nat)} (hm : s.Manned)
    (h : s.join = .returns s' result) : s'.Manned := by
  obtain ⟨stopped, rfl⟩ := join_eq_returns h
  refine ⟨?_, by simp, by simp, hm.failure⟩
  have active := hm.active
  rwa [sum_phases Phase.grants rfl stopped] at active

end Session

-- ---------------------------------------------------------------------------
-- Runs
-- ---------------------------------------------------------------------------

/-- What a session has to be like for what its coordinator is in the middle of. -/
def Activity.Orderly (s : Session) : Activity → Prop
  | .resting | .stopping => s.Settled
  | .learning l => s.workers ≠ [] ∧ (l.waiting = false → s.Settled)
  | .checking _ | .broken => s.workers ≠ []

namespace Activity

theorem of_afterCall {P : Activity → Prop} (resting : P .resting) (broken : P .broken) {β : Type}
    {result : Except (Stop LearnError) β} : P (afterCall result) := by
  cases result with
  | ok => exact resting
  | error stop =>
    cases stop with
    | refused => exact resting
    | faulted => exact broken

theorem afterCall_refused {β : Type} {outcome : Except LearnError β} :
    afterCall (outcome.mapError Stop.refused) = .resting := by
  cases outcome <;> rfl

theorem Orderly.work {activity : Activity} {place : Nat} (ho : activity.Orderly s) (hm : s.Manned)
    (h : s.stepWorker place = some s') : activity.Orderly s' := by
  have manned : s.workers ≠ [] → s'.workers ≠ [] := by
    obtain ⟨w, shared', w', -, -, rfl⟩ := Session.stepWorker_eq_some h
    simp
  cases activity with
  | resting | stopping => exact ho.step hm h
  | learning l => exact ⟨manned ho.1, fun rested => (ho.2 rested).step hm h⟩
  | checking | broken => exact manned ho

end Activity

namespace Coordinates

variable {before after : System}

theorem manned (h : Coordinates before after) (hm : before.session.Manned) :
    after.session.Manned := by
  cases h with
  | start step => exact hm.start step
  | learn _ step =>
    obtain ⟨-, rfl, -⟩ := Learning.start_eq_ok step
    exact hm.samePool ⟨rfl, rfl, rfl, rfl, rfl⟩
  | learning step => exact hm.samePool (Learning.turn_of_step step).samePool
  | learned step => exact hm.samePool (Learning.end_of_step step).samePool
  | check step =>
    obtain ⟨-, rfl, -⟩ := Checking.start_eq_ok step
    exact hm.samePool ⟨rfl, rfl, rfl, rfl, rfl⟩
  | checking step => exact hm.samePool (Checking.turn_of_step step).samePool
  | checked step => exact hm.samePool (Checking.end_of_step step).samePool
  | determinise | setDeterministic => exact hm.samePool ⟨rfl, rfl, rfl, rfl, rfl⟩
  | close => exact hm.close
  | join step => exact hm.join step

theorem orderly (h : Coordinates before after) (hm : before.session.Manned)
    (ho : before.activity.Orderly before.session) : after.activity.Orderly after.session := by
  cases h with
  | start step =>
    obtain ⟨-, _, _, rfl, -⟩ := Session.start_eq_ok step
    exact ho
  | learn _ step =>
    obtain ⟨running, rfl, -⟩ := Learning.start_eq_ok step
    exact ⟨(Session.ensureRunning_eq_ok running).2.2, fun _ => ho⟩
  | learning step =>
    cases Learning.turn_of_step step with
    | collect _ idle => exact ⟨ho.1, fun _ => hm.settled_of_idle idle⟩
    | issue => exact ⟨ho.1, by simp⟩
    | update rested => exact ⟨ho.1, fun _ => ho.2 rested⟩
  | learned step =>
    cases Learning.end_of_step step with
    | failed failure => exact hm.settled_of_idle (by simp [JobQueue.idle_iff, failure])
    | refused idle | early idle => exact hm.settled_of_idle idle
    | finished rested => exact ho.2 rested
    | faulted same =>
      show _ ≠ _
      rw [same.workers]
      exact ho.1
  | check step =>
    obtain ⟨running, rfl, -⟩ := Checking.start_eq_ok step
    exact (Session.ensureRunning_eq_ok running).2.2
  | checking step =>
    show _ ≠ _
    rw [(Checking.turn_of_step step).samePool.workers]
    exact ho
  | checked step =>
    cases Checking.end_of_step step with
    | drained _ idle =>
      rw [Activity.afterCall_refused]
      exact hm.settled_of_idle idle
    | faulted same =>
      show _ ≠ _
      rw [same.workers]
      exact ho
  | determinise | setDeterministic => exact ho
  | close free =>
    rcases free with rfl | rfl
    · exact Session.Settled.close ho
    · intro opened
      simp [Session.close, List.isEmpty_iff.not.mpr ho, JobQueue.close] at opened
  | join step =>
    obtain ⟨-, rfl⟩ := Session.join_eq_returns step
    exact ho

end Coordinates

theorem Run.orderly {a : Account} {system : System} (run : Run a system) :
    system.session.Manned ∧ system.activity.Orderly system.session := by
  induction run with
  | prepared step =>
    obtain ⟨-, -, workers, queue, -⟩ := Session.prepare_eq_ok step
    exact ⟨⟨by simp [workers, queue, JobQueue.ofContext], by simp [workers], by simp [workers],
      by simp [queue, JobQueue.ofContext]⟩, fun _ => by simp [queue, JobQueue.ofContext]⟩
  | work place run step ih => exact ⟨ih.1.work (ih.1.works step), ih.2.work ih.1 step⟩
  | coordinate run step ih => exact ⟨step.manned ih.1, step.orderly ih.1 ih.2⟩

end SchedulerLearning

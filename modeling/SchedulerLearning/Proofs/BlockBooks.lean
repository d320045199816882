import SchedulerLearning.Proofs.Manning
import SchedulerLearning.Proofs.RewardGrowth
import Mathlib.Algebra.Order.Group.Multiset

/-!
# The books of a learning block

As long as no worker breaks, the account of a block balances: each job issued is waiting, held
by a worker, or delivered, and each verdict and each credit that a simulated trace calls for is
made or still owed by the worker that simulated it. What the counters and the rewards hold is
what the account says was delivered and credited.
-/

namespace SchedulerLearning

variable {setup : Setup} {shared shared' : Shared} {p q : Phase} {s s' : Session} {a : Account}

def Setup.owed (setup : Setup) (r : Result) : List Credit :=
  setup.creditsOf .rewards r.trace r.verdict

-- ---------------------------------------------------------------------------
-- Rewards
-- ---------------------------------------------------------------------------

namespace Rewards

variable {r r' : Rewards}

theorem creditAll_append {xs ys : List Credit} (h : r.creditAll xs = (r', .ok ())) :
    r.creditAll (xs ++ ys) = r'.creditAll ys :=
  addAll_append h

theorem creditAll_singleton {c : Credit} (h : r.credit c = (r', .ok ())) :
    r.creditAll [c] = (r', .ok ()) := by
  simp [creditAll, addAll, h]

end Rewards

-- ---------------------------------------------------------------------------
-- One move
-- ---------------------------------------------------------------------------

namespace Shared

variable (verdict : Verdict)

theorem satisfied_count :
    (shared.count verdict).satisfied =
      shared.satisfied + .ofNat ([verdict].countP Verdict.satisfied) := by
  unfold count
  split <;> simp_all

theorem failed_count :
    (shared.count verdict).failed = shared.failed + .ofNat ([verdict].countP (!·.satisfied)) := by
  unfold count
  split <;> simp_all

end Shared

/-- What a move does to the books, and what the account says of it. -/
structure Recorded (setup : Setup) (shared : Shared) (p : Phase) (shared' : Shared) (q : Phase)
    (o : Account) : Prop where
  issued : o.issued = 0
  jobs : shared.queue.remaining + p.jobs = shared'.queue.remaining + q.jobs + o.delivered.length
  verdicts : o.delivered ++ q.verdicts = p.verdicts ++ o.simulated.map Result.verdict
  credits : o.credited ++ q.credits = p.credits ++ o.simulated.flatMap setup.owed
  rewards : shared.rewards.creditAll o.credited = (shared'.rewards, .ok ())
  satisfied : shared'.satisfied = shared.satisfied + .ofNat (o.delivered.countP Verdict.satisfied)
  failed : shared'.failed = shared.failed + .ofNat (o.delivered.countP (!·.satisfied))
  judged : ∀ r ∈ o.simulated, setup.property.evaluate r.trace = .ok r.verdict

theorem Account.observed_of_not_failing (sound : ¬q.Failing) :
    observed p q = {
      simulated := simulatedBy p q
      credited := p.credits.take (p.credits.length - q.credits.length)
      delivered := if q.verdicts = [] then p.verdicts else [] } := by
  cases q with
  | failing => exact absurd trivial sound
  | _ => rfl

theorem Account.simulatedBy_eq_nil (h : q.verdicts = []) : simulatedBy p q = [] := by
  cases q with
  | delivering => simp [Phase.verdicts] at h
  | _ => cases p <;> rfl

theorem Recorded.of_quiet (jobs : shared.queue.remaining + p.jobs = shared'.queue.remaining + q.jobs)
    (rewards : shared'.rewards = shared.rewards) (satisfied : shared'.satisfied = shared.satisfied)
    (failed : shared'.failed = shared.failed) (pv : p.verdicts = []) (pc : p.credits = [])
    (qv : q.verdicts = []) (qc : q.credits = []) (sound : ¬q.Failing) :
    Recorded setup shared p shared' q (.observed p q) := by
  rw [Account.observed_of_not_failing sound, Account.simulatedBy_eq_nil qv, pv, pc]
  refine ⟨rfl, ?_, ?_, ?_, ?_, ?_, ?_, by simp⟩ <;>
    simp_all [Rewards.creditAll, Rewards.addAll]

theorem Move.recorded (h : Move setup shared p shared' q)
    (sink : ∀ holding, p.holding? = some holding → holding.batch.sink = .rewards)
    (positive : ∀ holding, p.holding? = some holding → 0 < holding.jobs)
    (failure : shared'.queue.failure = none) (sound : ¬q.Failing) :
    Recorded setup shared p shared' q (.observed p q) := by
  cases h with
  | claim granted =>
    obtain ⟨-, -, -, most, -, rfl⟩ := JobQueue.request_granted granted
    refine .of_quiet ?_ rfl rfl rfl rfl rfl (by simp) (by simp) sound
    simp
    omega
  | leave => exact .of_quiet rfl rfl rfl rfl rfl rfl rfl rfl sound
  | explore before after =>
    refine .of_quiet ?_ rfl rfl rfl (Phase.verdicts_of_simulates before)
      (Phase.credits_of_simulates before) (Phase.verdicts_of_simulates after)
      (Phase.credits_of_simulates after) sound
    rw [Phase.jobs_of_holding (Phase.holding_of_simulates before),
      Phase.jobs_of_holding (Phase.holding_of_simulates after)]
  | judge judged =>
    have rewarding := sink _ rfl
    rw [Account.observed_of_not_failing sound]
    refine ⟨rfl, ?_, ?_, ?_, ?_, ?_, ?_, ?_⟩
    · simp
    · simp [Account.simulatedBy]
    · simp [Account.simulatedBy, Setup.owed, rewarding]
    · simp [Rewards.creditAll, Rewards.addAll]
    · simp
    · simp
    · simpa [Account.simulatedBy] using judged
  | abandon | crash => exact absurd trivial sound
  | miss =>
    rw [Account.observed_of_not_failing sound]
    refine ⟨rfl, ?_, ?_, ?_, ?_, ?_, ?_, ?_⟩ <;>
      simp [Account.simulatedBy, Rewards.creditAll, Rewards.addAll]
  | credit _ _ credited =>
    rw [Account.observed_of_not_failing sound]
    refine ⟨rfl, ?_, ?_, ?_, ?_, ?_, ?_, ?_⟩ <;>
      simp [Account.simulatedBy, Rewards.creditAll_singleton credited]
  | count _ more =>
    rw [Account.observed_of_not_failing sound,
      Account.simulatedBy_eq_nil Worker.beginJob_verdicts]
    refine ⟨rfl, ?_, ?_, ?_, ?_, ?_, ?_, by simp⟩
    · simp
      omega
    · simp
    · simp
    · simp [Rewards.creditAll, Rewards.addAll]
    · simp [Shared.satisfied_count]
    · simp [Shared.failed_count]
  | send sending | sendLast sending =>
    have rewarding := sink _ rfl
    rw [sending] at rewarding
    contradiction
  -- The last delivery of a grant makes all its credits at once.
  | countLast _ last credited =>
    have least := positive _ rfl
    rw [Account.observed_of_not_failing sound, Account.simulatedBy_eq_nil rfl]
    refine ⟨rfl, ?_, ?_, ?_, ?_, ?_, ?_, by simp⟩
    · simp
      omega
    · simp
    · simp
    · simp [credited]
    · simp [Shared.satisfied_count]
    · simp [Shared.failed_count]
  | fail => simp [JobQueue.fail] at failure
  | report => exact .of_quiet rfl rfl rfl rfl rfl rfl rfl rfl sound

-- ---------------------------------------------------------------------------
-- The books of a session
-- ---------------------------------------------------------------------------

namespace Account

variable (a b : Account)

@[simp] theorem issued_append : (a ++ b).issued = a.issued + b.issued := rfl
@[simp] theorem simulated_append : (a ++ b).simulated = a.simulated ++ b.simulated := rfl
@[simp] theorem credited_append : (a ++ b).credited = a.credited ++ b.credited := rfl
@[simp] theorem delivered_append : (a ++ b).delivered = a.delivered ++ b.delivered := rfl

theorem afterWork_eq {place : Nat} {w w' : Worker} (there : s.workers[place]? = some w) :
    a.afterWork place s { s with shared := shared', workers := s.workers.set place w' } =
      a ++ observed w.phase w'.phase := by
  have present : place < s.workers.length := (List.getElem?_eq_some_iff.mp there).1
  simp only [afterWork, there, List.getElem?_set_self present]

end Account

/-- Whether no worker has failed, or is about to. -/
def Session.Healthy (s : Session) : Prop :=
  s.shared.queue.failure = none ∧ ∀ w ∈ s.workers, ¬w.phase.Failing

theorem Session.Works.healthy {place : Nat} (h : s.Works place s') (hs : s'.Healthy) : s.Healthy := by
  cases h with
  | mk there move =>
    obtain ⟨failure, sound, -⟩ := move.failure hs.1
    exact ⟨failure, forall_mem_of_set there hs.2 sound⟩

/-- What the account of a block has to do with the session, as long as it is healthy. -/
structure Books (a : Account) (s : Session) : Prop where
  jobs : a.issued =
    a.delivered.length + (s.workers.map (·.phase.jobs)).sum + s.shared.queue.remaining
  verdicts : (a.delivered : Multiset Verdict) +
    (s.workers.map fun w => (w.phase.verdicts : Multiset Verdict)).sum =
      (a.simulated.map Result.verdict : List Verdict)
  credits : (a.credited : Multiset Credit) +
    (s.workers.map fun w => (w.phase.credits : Multiset Credit)).sum =
      (a.simulated.flatMap s.setup.owed : List Credit)
  rewards : Rewards.empty.creditAll a.credited = (s.shared.rewards, .ok ())
  satisfied : s.shared.satisfied = .ofNat (a.delivered.countP Verdict.satisfied)
  failed : s.shared.failed = .ofNat (a.delivered.countP (!·.satisfied))
  judged : ∀ r ∈ a.simulated, s.setup.property.evaluate r.trace = .ok r.verdict

namespace Books

theorem work {place : Nat} (hb : Books a s) (hm : s.Manned)
    (sinks : ∀ w ∈ s.workers, ∀ holding, w.phase.holding? = some holding →
      holding.batch.sink = .rewards)
    (h : s.Works place s') (hs : s'.Healthy) : Books (a.afterWork place s s') s' := by
  -- Every total changes by what the move does to the share of its worker.
  cases h with
  | @mk w w' shared' there move =>
    have present := List.mem_of_getElem? there
    have now : w' ∈ s.workers.set place w' :=
      List.mem_set (List.getElem?_eq_some_iff.mp there).1 _
    have recorded := move.recorded (sinks w present) (hm.positive w present) hs.1 (hs.2 w' now)
    rw [Account.afterWork_eq a there]
    refine ⟨?_, ?_, ?_, ?_, ?_, ?_, ?_⟩
    · have total := sum_map_set (fun w : Worker => w.phase.jobs) there w'
      have before := hb.jobs
      have moved := recorded.jobs
      simp only [Account.issued_append, Account.delivered_append, recorded.issued,
        List.length_append]
      omega
    · have entry := congrArg (Multiset.ofList ·) recorded.verdicts
      simp only [← Multiset.coe_add] at entry
      simpa [← Multiset.coe_add] using settle_set there hb.verdicts entry
    · have entry := congrArg (Multiset.ofList ·) recorded.credits
      simp only [← Multiset.coe_add] at entry
      simpa [← Multiset.coe_add] using settle_set there hb.credits entry
    · rw [Account.credited_append, Rewards.creditAll_append hb.rewards]
      exact recorded.rewards
    · simp [recorded.satisfied, hb.satisfied]
    · simp [recorded.failed, hb.failed]
    · intro r hr
      rcases List.mem_append.mp hr with hr | hr
      · exact hb.judged r hr
      · exact recorded.judged r hr

theorem begin (requesting : ∀ w ∈ s.workers, w.phase = .requesting)
    (remaining : s.shared.queue.remaining = 0) (rewards : s.shared.rewards = .empty)
    (satisfied : s.shared.satisfied = 0) (failed : s.shared.failed = 0) : Books {} s where
  jobs := by
    rw [remaining, sum_phases Phase.jobs rfl requesting]
    rfl
  verdicts := by
    rw [sum_phases (fun p => (p.verdicts : Multiset Verdict)) rfl requesting]
    rfl
  credits := by
    rw [sum_phases (fun p => (p.credits : Multiset Credit)) rfl requesting]
    rfl
  rewards := by rw [rewards]; rfl
  satisfied := satisfied
  failed := failed
  judged := by simp

theorem settled (hb : Books a s) (requesting : ∀ w ∈ s.workers, w.phase = .requesting)
    (remaining : s.shared.queue.remaining = 0) :
    a.delivered.length = a.issued ∧ a.delivered.Perm (a.simulated.map Result.verdict) ∧
      a.credited.Perm (a.simulated.flatMap s.setup.owed) := by
  have jobs := hb.jobs
  rw [remaining, sum_phases Phase.jobs rfl requesting] at jobs
  have verdicts := hb.verdicts
  rw [sum_phases (fun p => (p.verdicts : Multiset Verdict)) rfl requesting, add_zero] at verdicts
  have credits := hb.credits
  rw [sum_phases (fun p => (p.credits : Multiset Credit)) rfl requesting, add_zero] at credits
  exact ⟨by omega, Multiset.coe_eq_coe.mp verdicts, Multiset.coe_eq_coe.mp credits⟩

/-- No credit is made that no trace of the block calls for. -/
theorem credited_subperm (hb : Books a s) :
    a.credited.Subperm (a.simulated.flatMap s.setup.owed) := by
  rw [← Multiset.coe_le, ← hb.credits]
  exact Multiset.le_add_right _ _

end Books

end SchedulerLearning

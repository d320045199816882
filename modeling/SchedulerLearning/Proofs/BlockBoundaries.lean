import SchedulerLearning.Proofs.BlockDelivery
import SchedulerLearning.Proofs.Calls
import SchedulerLearning.Proofs.SchedulerGrowth
import SchedulerLearning.Proofs.UpdateOutcomes

/-!
# The boundaries of learning blocks are clean

However a call to learn goes on, its batches keep to their bounds and are issued with nothing left
of the one before, its blocks are whole, and what it returns with is a session as it was between two
blocks: no rewards, no counts, no job out, and mixtures that are those of the blocks that ended.
-/

namespace SchedulerLearning

variable {s₀ s s' : Session} {a : Account} {tracesPerBlock blocks : Nat} {c : Chronicle}
  {l l' : Learning}

-- ---------------------------------------------------------------------------
-- Counters
-- ---------------------------------------------------------------------------

namespace Learning

structure Counted (s₀ : Session) (tracesPerBlock blocks : Nat) (c : Chronicle) (s : Session)
    (l : Learning) : Prop where
  setup : s.setup = s₀.setup
  config : s.config = s₀.config
  size : l.tracesPerBlock = tracesPerBlock
  goal : l.blocks = blocks
  miniBatch : l.miniBatch = s₀.batchLimit
  done : l.done = c.ended.length
  most : l.done ≤ blocks
  more : l.waiting = true ∨ 0 < l.issued → l.done < blocks
  issued : l.issued = c.batches.sum
  batches : ∀ n ∈ c.batches, 1 ≤ n ∧ n ≤ s₀.batchLimit

theorem Calls.counted (call : Calls s₀ tracesPerBlock blocks c s l) :
    Counted s₀ tracesPerBlock blocks c s l := by
  induction call with
  | start step =>
    obtain ⟨-, rfl, hn, hb, limit, hd, hi, hw⟩ := start_eq_ok step
    exact ⟨rfl, rfl, hn, hb, limit, hd, by omega, by simp [hw, hi], hi, by simp⟩
  | work place _ step ih =>
    obtain ⟨w, shared', w', -, -, rfl⟩ := Session.stepWorker_eq_some step
    exact ⟨ih.setup, ih.config, ih.size, ih.goal, ih.miniBatch, ih.done, ih.most,
      ih.more, ih.issued, ih.batches⟩
  | @turn c s s' l l' _ step ih =>
    have records := records_of_step (c := c) step
    generalize c.afterTurn s l s' l' = c' at records ⊢
    cases records with
    | collect waiting =>
      exact ⟨ih.setup, ih.config, ih.size, ih.goal, ih.miniBatch, ih.done, ih.most,
        fun _ => ih.more (.inl waiting), ih.issued, ih.batches⟩
    | issue rested more short =>
      have positive : 0 < l.miniBatch := by
        rw [ih.miniBatch]
        exact Nat.lt_of_lt_of_le Nat.zero_lt_one (Nat.le_max_left _ _)
      have least : 1 ≤ l.batch := Nat.le_min.mpr ⟨positive, by omega⟩
      have limit : l.batch ≤ s₀.batchLimit := ih.miniBatch ▸ Nat.min_le_left _ _
      refine ⟨ih.setup, ih.config, ih.size, ih.goal, ih.miniBatch, ih.done, ih.most,
        fun _ => ih.goal ▸ more, ?_, fun n there => ?_⟩
      · simp [ih.issued]
      · rcases List.mem_append.mp there with before | last
        · exact ih.batches n before
        · cases List.mem_singleton.mp last
          exact ⟨least, limit⟩
    | update rested more =>
      refine ⟨ih.setup, ih.config, ih.size, ih.goal, ih.miniBatch, ?_, ?_, ?_, rfl, ?_⟩
      · simp [ih.done]
      · exact ih.goal ▸ more
      · simp [rested]
      · simp

theorem Calls.at_rest (call : Calls s₀ tracesPerBlock blocks c s l) (run : Run a ⟨s₀, .resting⟩)
    (word : tracesPerBlock < Word.size) (rested : l.waiting = false) :
    s.shared.queue.failure = none ∧ s.shared.queue.remaining = 0 ∧ s.shared.queue.active = 0 ∧
      c.account.Complete s := by
  have run := call.run run word
  obtain ⟨hm, -, settled⟩ := run.orderly
  have kept : l.Kept c.account s := run.kept
  have sound : s.shared.queue.failure = none := run.rested rested
  obtain ⟨remaining, active⟩ := settled rested (kept.serves.open_of_sound sound)
  exact ⟨sound, remaining, active, kept.complete hm sound remaining active⟩

end Learning

-- ---------------------------------------------------------------------------
-- Blocks that ended
-- ---------------------------------------------------------------------------

/-- What holds of each block that ended: its batches add up to it, each of its traces was simulated,
and it was updated by the rewards of just those. -/
structure Block.Whole (setup : Setup) (tracesPerBlock limit : Nat) (b : Block) : Prop where
  batches : ∀ n ∈ b.batches, 1 ≤ n ∧ n ≤ limit
  sum : b.batches.sum = tracesPerBlock
  simulated : b.account.simulated.length = tracesPerBlock
  credited : b.account.credited.Perm (b.account.simulated.flatMap setup.owed)
  rewards : Rewards.empty.creditAll b.account.credited = (b.rewards, .ok ())

theorem Learning.Calls.whole (call : Calls s₀ tracesPerBlock blocks c s l)
    (run : Run a ⟨s₀, .resting⟩) (word : tracesPerBlock < Word.size) :
    ∀ b ∈ c.ended, b.Whole s₀.setup tracesPerBlock s₀.batchLimit := by
  induction call with
  | start => simp
  | work _ _ _ ih => exact ih
  | @turn c s s' l l' call step ih =>
    have records := records_of_step (c := c) step
    generalize c.afterTurn s l s' l' = c' at records ⊢
    cases records with
    | collect | issue => exact ih
    | update rested _ full =>
      have counted := call.counted
      -- All that was issued is delivered when a block ends, and it was issued exactly once.
      obtain ⟨-, -, -, complete⟩ := call.at_rest run word rested
      have kept : l.Kept c.account s := (call.run run word).kept
      have size : l.issued = tracesPerBlock := by
        rw [← counted.size]
        exact le_antisymm kept.most full
      intro b there
      rcases List.mem_append.mp there with before | last
      · exact ih b before
      · cases List.mem_singleton.mp last
        exact ⟨counted.batches, counted.issued.symm.trans size,
          by rw [complete.simulated, kept.issued, size], counted.setup ▸ complete.credited,
          complete.rewards⟩

-- ---------------------------------------------------------------------------
-- Mixtures
-- ---------------------------------------------------------------------------

def Block.renew (config : Config) (t : State) (mixture : Mixture Float) (b : Block) : Mixture Float :=
  match b.rewards.states[t]? with
  | none => mixture
  | some tallies => (Scheduler.renewed config.rule config.weights (some mixture) tallies).1

/-- The mixture of a state with `count` choices after the updates of some blocks. A state that is
not known before begins with the uniform one. -/
def Session.mixtureAfter (s : Session) (ended : List Block) (t : State) (count : Nat) : Mixture Float :=
  ended.foldl (Block.renew s.config t) ((s.shared.scheduler.get? t).getD (.uniform count))

theorem Session.mixtureAfter_append {ended : List Block} {b : Block} {t : State} {n : Nat} :
    s.mixtureAfter (ended ++ [b]) t n = b.renew s.config t (s.mixtureAfter ended t n) := by
  simp [mixtureAfter]

theorem Session.mixtureAfter_of_unrewarded {ended : List Block} {t : State} {n : Nat}
    (unknown : s.shared.scheduler.get? t = none)
    (unrewarded : ∀ b ∈ ended, b.rewards.states[t]? = none) :
    s.mixtureAfter ended t n = .uniform n := by
  have begun : s.mixtureAfter [] t n = .uniform n := by simp [mixtureAfter, unknown]
  induction ended using List.reverseRecOn with
  | nil => exact begun
  | append_singleton ended b ih =>
    rw [mixtureAfter_append, ih fun b' there => unrewarded b' (by simp [there]), Block.renew,
      unrewarded b (by simp)]

/-- Whether a state of a call to learn has the mixture that its chronicle says, if any. -/
def Learning.Mixes (s₀ : Session) (ended : List Block) (p : Scheduler Float) (t : State) : Prop :=
  (p.get? t = none ∧ s₀.shared.scheduler.get? t = none ∧
    ∀ b ∈ ended, b.rewards.states[t]? = none) ∨
  ∃ n, s₀.setup.process.Offers t n ∧ p.get? t = some (s₀.mixtureAfter ended t n)

theorem Learning.Calls.mixes (call : Calls s₀ tracesPerBlock blocks c s l)
    (run : Run a ⟨s₀, .resting⟩) (word : tracesPerBlock < Word.size) (t : State) :
    Mixes s₀ c.ended s.shared.scheduler t := by
  induction call with
  | start step =>
    obtain ⟨-, rfl, -⟩ := start_eq_ok step
    show Mixes s₀ [] s₀.shared.scheduler t
    cases known : s₀.shared.scheduler.get? t with
    | none => exact .inl ⟨known, known, by simp⟩
    | some mixture =>
      refine .inr ⟨_, run.drawn.agrees.stores.scheduler t mixture known, ?_⟩
      simp [Session.mixtureAfter, known]
  | @work c s s' l place call step ih =>
    have agrees : s.Agrees := (call.run run word).drawn.agrees
    rcases agrees.widens step t with same | ⟨unknown, n, offered, uniform⟩
    · unfold Mixes
      rw [same]
      exact ih
    · rw [call.counted.setup] at offered
      rcases ih with ⟨-, before, unrewarded⟩ | ⟨_, _, known⟩
      · refine .inr ⟨n, offered, ?_⟩
        rw [uniform, Session.mixtureAfter_of_unrewarded before unrewarded]
      · rw [unknown] at known
        cases known
  | @turn c s s' l l' call step ih =>
    have records := records_of_step (c := c) step
    generalize c.afterTurn s l s' l' = c' at records ⊢
    cases records with
    | collect | issue => exact ih
    | update rested _ full =>
      have agrees : s.Agrees := (call.run run word).drawn.agrees
      unfold Mixes
      simp only [Session.updated, Scheduler.get?_update, call.counted.config,
        Session.mixtureAfter_append, Block.renew]
      rcases ih with ⟨unknown, before, unrewarded⟩ | ⟨n, offered, known⟩
      -- The states with rewards are known.
      · have spared : s.shared.rewards.states[t]? = none := by
          by_contra rewarded
          obtain ⟨tallies, rewarded⟩ := Option.ne_none_iff_exists'.mp rewarded
          have known := (agrees.stores.rewards t tallies rewarded).2
          rw [Scheduler.contains_eq, unknown] at known
          cases known
        refine .inl ⟨by rw [spared]; exact unknown, before, fun b there => ?_⟩
        rcases List.mem_append.mp there with earlier | last
        · exact unrewarded b earlier
        · cases List.mem_singleton.mp last
          exact spared
      · refine .inr ⟨n, offered, ?_⟩
        rw [known]
        cases s.shared.rewards.states[t]? <;> rfl

-- ---------------------------------------------------------------------------
-- The end of a call
-- ---------------------------------------------------------------------------

theorem Learning.step_eq_returns_ok {report : LearnReport} (h : step s l = .returns s' (.ok report)) :
    (l.waiting = true ∧ s.shared.queue.idle = true ∧ s.shared.queue.failure = none ∧
      s' = s.resetCounts.resetRewards ∧ report = ⟨l.done, true⟩) ∨
    (l.waiting = false ∧ l.blocks ≤ l.done ∧ s' = s ∧ report = ⟨l.done, false⟩) := by
  unfold step at h
  split at h
  · next waiting =>
    unfold collect at h
    split at h
    · cases h
    · next idle =>
      split at h
      · cases h
      · cases h
      · next sound _ =>
        split at h
        · cases h
        · cases h
          exact .inl ⟨waiting, by simpa using idle, sound, rfl, rfl⟩
        · cases h
  · next rested =>
    split at h
    · next finished =>
      cases h
      exact .inr ⟨by simpa using rested, finished, rfl, rfl⟩
    · split at h
      · simp only at h
        split at h <;> cases h
      · unfold endBlock at h
        simp only at h
        split at h <;> cases h

structure Session.Clean (s : Session) : Prop where
  rewards : s.shared.rewards = .empty
  satisfied : s.shared.satisfied = 0
  failed : s.shared.failed = 0
  remaining : s.shared.queue.remaining = 0
  active : s.shared.queue.active = 0

theorem Account.Complete.of_nothing_issued (h : a.Complete s) (nothing : a.issued = 0) :
    a.simulated = [] ∧ s.shared.rewards = .empty ∧ s.shared.satisfied = 0 ∧ s.shared.failed = 0 := by
  have simulated : a.simulated = [] := List.length_eq_zero_iff.mp (h.simulated.trans nothing)
  have credited : a.credited = [] := by
    have perm := h.credited
    rw [simulated] at perm
    exact perm.eq_nil
  have rewards := h.rewards
  rw [credited] at rewards
  have counts := h.counts
  rw [nothing] at counts
  exact ⟨simulated, (congrArg Prod.fst rewards).symm, UInt64.toNat_inj.mp (by simp; omega),
    UInt64.toNat_inj.mp (by simp; omega)⟩

theorem Learning.Calls.nothing_issued (call : Calls s₀ tracesPerBlock blocks c s l)
    (run : Run a ⟨s₀, .resting⟩) (word : tracesPerBlock < Word.size)
    (finished : l.blocks ≤ l.done) : c.account.issued = 0 := by
  have kept : l.Kept c.account s := (call.run run word).kept
  have counted := call.counted
  have unissued : ¬0 < l.issued := by
    intro issued
    have more := counted.more (.inr issued)
    have goal := counted.goal
    omega
  rw [kept.issued]
  omega

theorem Learning.Calls.clean {report : LearnReport} (call : Calls s₀ tracesPerBlock blocks c s l)
    (run : Run a ⟨s₀, .resting⟩) (word : tracesPerBlock < Word.size)
    (returns : step s l = .returns s' (.ok report)) : s'.Clean := by
  rcases step_eq_returns_ok returns with ⟨-, idle, sound, rfl, -⟩ | ⟨rested, finished, rfl, -⟩
  · have out : s.shared.queue.remaining = 0 ∧ s.shared.queue.active = 0 := by
      simpa [sound] using JobQueue.idle_iff.mp idle
    exact ⟨rfl, rfl, rfl, out.1, out.2⟩
  · obtain ⟨-, remaining, active, complete⟩ := call.at_rest run word rested
    obtain ⟨-, rewards, satisfied, failed⟩ :=
      complete.of_nothing_issued (call.nothing_issued run word finished)
    exact ⟨rewards, satisfied, failed, remaining, active⟩

/-- Of a call to learn on a pool that runs without failure, at any point, in any order of the
workers' steps: each batch issued is within its limit, and before one is issued no job is left or
out. A block that ended was of just as many traces as called for, and updated by their rewards. The
call returns with no rewards, counts or jobs, and reports how many blocks were updated: all of
them, or fewer if it ended early; and each mixture is what those updates have made of the one
before the call, or of the uniform one. -/
theorem Run.block_boundaries (run : Run a ⟨s₀, .resting⟩) (word : tracesPerBlock < Word.size)
    (call : Learning.Calls s₀ tracesPerBlock blocks c s l) :
    (∀ n ∈ c.batches, 1 ≤ n ∧ n ≤ s₀.batchLimit) ∧
    (l.waiting = false → s.shared.queue.remaining = 0 ∧ s.shared.queue.active = 0 ∧
      ∀ count, s.issue count = (s.withJobs count, .ok ())) ∧
    (∀ b ∈ c.ended, b.Whole s₀.setup tracesPerBlock s₀.batchLimit) ∧
    ∀ s' report, Learning.step s l = .returns s' (.ok report) →
      s'.Clean ∧ report.blocks = c.ended.length ∧
      (report.stoppedEarly = false → report.blocks = blocks ∧ c.account.simulated = [] ∧
        (c.ended.map (·.account.simulated.length)).sum = blocks * tracesPerBlock) ∧
      (report.stoppedEarly = true → report.blocks < blocks) ∧
      ∀ t mixture, s'.shared.scheduler.get? t = some mixture →
        ∃ n, s₀.setup.process.Offers t n ∧ mixture = s₀.mixtureAfter c.ended t n := by
  have counted := call.counted
  have whole := call.whole run word
  refine ⟨counted.batches, fun rested => ?_, whole, fun s' report returns => ?_⟩
  · obtain ⟨-, remaining, active, -⟩ := call.at_rest run word rested
    exact ⟨remaining, active, fun count => Session.issue_eq_ok.mpr ⟨remaining, rfl⟩⟩
  have clean := call.clean run word returns
  have mixes {t mixture} (known : s.shared.scheduler.get? t = some mixture) :
      ∃ n, s₀.setup.process.Offers t n ∧ mixture = s₀.mixtureAfter c.ended t n := by
    rcases call.mixes run word t with ⟨unknown, -⟩ | ⟨n, offered, found⟩
    · rw [known] at unknown
      cases unknown
    · rw [known] at found
      exact ⟨n, offered, Option.some.inj found⟩
  rcases Learning.step_eq_returns_ok returns with ⟨waiting, -, -, rfl, rfl⟩ | ⟨rested, finished, rfl, rfl⟩
  · exact ⟨clean, counted.done, by simp, fun _ => counted.more (.inl waiting), fun t _ => mixes⟩
  · obtain ⟨-, -, -, complete⟩ := call.at_rest run word rested
    obtain ⟨simulated, -⟩ := complete.of_nothing_issued (call.nothing_issued run word finished)
    have all : l.done = blocks := le_antisymm counted.most (counted.goal ▸ finished)
    refine ⟨clean, counted.done, fun _ => ⟨all, simulated, ?_⟩, by simp, fun t _ => mixes⟩
    have each : c.ended.map (·.account.simulated.length) =
        List.replicate c.ended.length tracesPerBlock :=
      List.eq_replicate_iff.mpr ⟨List.length_map _, by simpa using fun b there => (whole b there).simulated⟩
    rw [each, List.sum_replicate_nat, ← counted.done, all]

-- The block of two workers, and its update: five credits are too few for it to overflow.
namespace Pair

theorem updates {shared : Shared} {w₀ w₁ : Worker} {rs : List Result}
    (agrees : (session shared [w₀, w₁]).Agrees) (length : rs.length = 5)
    (yields : ∀ r ∈ rs, begun.setup.task.Yields r)
    (credited : Rewards.empty.creditAll (rs.flatMap begun.setup.owed) = (shared.rewards, .ok ())) :
    (shared.scheduler.update config.rule config.weights shared.rewards).fault = none := by
  refine Scheduler.fault_update.mpr fun s ts rewarded => ?_
  have offered := (agrees.stores.rewards s ts rewarded).1
  have two : ts.length = 2 := offered.unique ⟨le_rfl, Fork.offers, rfl, rfl⟩
  have few := (holds yields credited).total_le rewarded
  rw [amounts yields, length, two] at few
  exact UpdateRule.next?_of_within (by decide) (agrees.stores.scheduler.size_getD offered)
    (few.trans_lt (by decide))

theorem learns : ∃ (c : Chronicle) (s : Session),
    Learning.Calls begun 5 1 c s ⟨5, 1, 4, none, 1, 0, false⟩ ∧ s.workers.length = 2 ∧
    (∃ mixture, s.shared.scheduler.get? Fork.state = some mixture) ∧
    ∃ b, c.ended = [b] ∧ b.batches = [4, 1] ∧ b.rewards.contains Fork.state = true := by
  obtain ⟨account, shared, w₀, w₁, rs, call, length, yields, credited⟩ := learnt
  have agrees := (call.run started (by decide)).drawn.agrees
  have sound := updates agrees length yields credited
  have updated : Learning.step (session { shared with queue := .ofContext .learning } [w₀, w₁])
      ⟨5, 1, 4, none, 0, 5, false⟩ = .continues
        ((session { shared with queue := .ofContext .learning } [w₀, w₁]).updated
          (shared.scheduler.update config.rule config.weights shared.rewards).scheduler)
        ⟨5, 1, 4, none, 1, 0, false⟩ := by
    show Learning.endBlock _ _ = _
    simp only [Learning.endBlock, session, Session.resetCounts, sound]
    rfl
  have known : shared.rewards.contains Fork.state = true := contains yields (by omega) credited
  obtain ⟨ts, rewarded⟩ := Rewards.contains_eq_true.mp known
  refine ⟨_, _, call.turn updated, rfl, ?_, _, rfl, rfl, known⟩
  show ∃ mixture, (shared.scheduler.update config.rule config.weights shared.rewards).scheduler.get?
    Fork.state = some mixture
  rw [Scheduler.get?_update, rewarded]
  exact ⟨_, rfl⟩

end Pair

theorem Run.block_boundaries_of_two_workers :
    ∃ c s l s', Learning.Calls Pair.begun 5 1 c s l ∧
      Learning.step s l = .returns s' (.ok ⟨1, false⟩) ∧ s'.workers.length = 2 ∧ s'.Clean ∧
      (∀ b ∈ c.ended, b.Whole Pair.begun.setup 5 4) ∧
      (∃ b, c.ended = [b] ∧ b.batches = [4, 1] ∧ b.rewards.contains Fork.state = true) ∧
      (c.ended.map (·.account.simulated.length)).sum = 5 ∧
      s'.shared.scheduler.get? Fork.state = some (Pair.begun.mixtureAfter c.ended Fork.state 2) := by
  obtain ⟨c, s, call, workers, ⟨mixture, known⟩, ended⟩ := Pair.learns
  have returns : Learning.step s ⟨5, 1, 4, none, 1, 0, false⟩ = .returns s (.ok ⟨1, false⟩) := rfl
  obtain ⟨-, -, whole, returned⟩ := Run.block_boundaries Pair.started (by decide) call
  obtain ⟨clean, -, all, -, mixtures⟩ := returned _ _ returns
  obtain ⟨-, -, traces⟩ := all rfl
  obtain ⟨n, offered, rfl⟩ := mixtures _ _ known
  obtain rfl : n = 2 := offered.unique ⟨le_rfl, Fork.offers, rfl, rfl⟩
  exact ⟨c, s, _, s, call, returns, workers, clean, whole, ended, traces, known⟩

end SchedulerLearning

import SchedulerLearning.Proofs.SingleWorker

/-!
# Learning with one worker

At each point of learning, what the only worker and the coordinator have still to do is what the
sequential program has: the blocks that are left, of which the first is short by the jobs done, and
has the rewards made and owed for them.
-/

namespace SchedulerLearning

-- ---------------------------------------------------------------------------
-- What is left of learning
-- ---------------------------------------------------------------------------

namespace Plain

variable {task : Task} {rule : UpdateRule} {weights : UpdateWeights Float} {tracesPerBlock blocks : Nat}
  {now next : Plain} {rewards rewards' : Rewards}

/-- Learns from the blocks that are left, of which the first has so many traces left, and some
rewards already. -/
def learnOn (task : Task) (rule : UpdateRule) (w : UpdateWeights Float) (tracesPerBlock : Nat) :
    (blocks left : Nat) → Plain → Rewards → Except (Stop (ModelError Float)) Plain
  | 0, _, now, _ => .ok now
  | blocks + 1, left, now, rewards => do
    let (now, rewards) ← gather task left now rewards
    let now ← now.update rule w rewards
    learn task rule w tracesPerBlock blocks now

theorem learn_eq_learnOn :
    learn task rule weights tracesPerBlock blocks now =
      learnOn task rule weights tracesPerBlock blocks tracesPerBlock now .empty := by
  cases blocks <;> rfl

theorem gather_succ {left : Nat} {r : Result} (job : now.job task none = .ok (r, next))
    (credited : rewards.creditAll (task.attribution.credits r.trace.steps.toList r.verdict) =
      (rewards', .ok ())) :
    gather task (left + 1) now rewards = gather task left next rewards' := by
  simp only [gather, job, bind, Except.bind, credited]

theorem learnOn_zero :
    learnOn task rule weights tracesPerBlock (blocks + 1) 0 now rewards =
      now.update rule weights rewards >>= learn task rule weights tracesPerBlock blocks := rfl

end Plain

def Phase.unsimulated (p : Phase) : Nat := p.jobs - p.verdicts.length

theorem Phase.unsimulated_requesting {p : Phase} (asks : p = .requesting) : p.unsimulated = 0 := by
  rw [asks]
  rfl

-- ---------------------------------------------------------------------------
-- One stride
-- ---------------------------------------------------------------------------

variable {setup : Setup} {shared shared' : Shared} {w w' : Worker} {now now' first : Plain}
  {s s' : Session} {l : Learning} {owed : Rewards}

theorem Shared.rewards_of_deliver {credits : List Credit} {verdict : Verdict}
    (credited : shared.rewards.creditAll credits = (owed, .ok ()))
    (delivered : shared.deliver .rewards credits verdict = (shared', .ok ())) :
    shared'.rewards = owed := by
  rw [deliver_rewards credited] at delivered
  cases delivered
  exact rewards_count _ verdict

theorem Stride.gathers (h : Stride setup .learning shared w now shared' w' now')
    (positive : ∀ holding, w.phase.holding? = some holding → 0 < holding.jobs)
    (fits : shared'.Fits setup) (hw : w'.phase.Fits setup shared'.scheduler)
    (credited : shared.rewards.creditAll w.phase.credits = (owed, .ok ())) :
    ∃ owed', shared'.rewards.creditAll w'.phase.credits = (owed', .ok ()) ∧
      ∀ left, Plain.gather setup.task
          (left + (shared.queue.remaining + w.phase.unsimulated)) now owed =
        Plain.gather setup.task
          (left + (shared'.queue.remaining + w'.phase.unsimulated)) now' owed' := by
  obtain ⟨owed', made, -⟩ := fits.rewards.creditAll hw.credits
  refine ⟨owed', made, fun left => ?_⟩
  cases h with
  | claim asks least most begins =>
    rw [asks] at credited ⊢
    rw [begins, Worker.beginJob_credits] at made
    cases credited.symm.trans made
    have jobs : shared.queue.remaining = shared.queue.remaining - _ + _ :=
      (Nat.sub_add_cancel most).symm
    simp [Phase.unsimulated, begins, ← jobs]
  | leave asks closed leaves =>
    rw [asks] at credited ⊢
    rw [leaves] at made ⊢
    cases credited.symm.trans made
    rfl
  | pursue before after nearer =>
    rw [Phase.credits_of_simulates before] at credited
    rw [Phase.credits_of_simulates after] at made
    cases credited.symm.trans made
    simp [Phase.unsimulated, Phase.jobs_of_holding (Phase.holding_of_simulates before),
      Phase.jobs_of_holding (Phase.holding_of_simulates after), Phase.verdicts_of_simulates before,
      Phase.verdicts_of_simulates after]
  | @judge holding scheduler _ r next before job after =>
    -- The trace is one less to simulate, and its credits are owed from here on.
    have held := Phase.holding_of_simulates before
    have jobs : left + (shared.queue.remaining + w.phase.unsimulated) =
        left + (shared.queue.remaining + w'.phase.unsimulated) + 1 := by
      have := positive _ held
      simp [Phase.unsimulated, after, Phase.jobs_of_holding held, Phase.verdicts_of_simulates before]
      omega
    rw [Phase.credits_of_simulates before] at credited
    cases credited
    rw [after] at made
    rw [jobs]
    exact Plain.gather_succ job made
  | miss delivers after =>
    rw [delivers] at credited ⊢
    rw [after] at made ⊢
    cases credited.symm.trans made
    rfl
  | @credit holding c rest missed verdict rewards _ delivers paid after =>
    rw [delivers] at credited ⊢
    rw [after] at made ⊢
    have paying : shared.rewards.creditAll (c :: rest) = rewards.creditAll rest := by
      simp [Rewards.creditAll, Rewards.addAll, paid]
    cases (paying.symm.trans credited).symm.trans made
    rfl
  | @next holding credits missed verdict _ _ delivers more delivered begins =>
    rw [delivers] at credited ⊢
    rw [begins, Worker.beginJob_credits, Shared.rewards_of_deliver credited delivered] at made
    cases made
    simp [Phase.unsimulated, begins, Shared.queue_of_deliver delivered]
  | @last holding credits missed verdict delivery _ delivers last delivered asks =>
    rw [delivers] at credited ⊢
    rw [asks] at made ⊢
    simp only [Phase.credits_requesting, Shared.rewards_of_deliver credited delivered] at made
    cases made
    simp [Phase.unsimulated, Nat.sub_eq_zero_of_le last]

-- ---------------------------------------------------------------------------
-- One step of the session
-- ---------------------------------------------------------------------------

def Session.learnt (s : Session) (first : Plain) : Except (Stop (ModelError Float)) Plain :=
  Plain.learn s.setup.task s.config.rule s.config.weights s.config.tracesPerBlock s.config.blocks first

structure Learning.Follows (first : Plain) (s : Session) (l : Learning) (w : Worker) (now : Plain) :
    Prop where
  abreast : s.Abreast .learning w now
  opened : s.shared.queue.shutdown = false
  unfixed : s.deterministic = false
  untested : l.prior = none
  blocks : l.blocks = s.config.blocks
  traces : l.tracesPerBlock = s.config.tracesPerBlock
  done : l.done ≤ l.blocks
  batch : 0 < l.miniBatch
  busy : l.waiting = true → l.done < l.blocks
  left : ∃ owed, s.shared.rewards.creditAll w.phase.credits = (owed, .ok ()) ∧
    s.learnt first = Plain.learnOn s.setup.task s.config.rule s.config.weights l.tracesPerBlock
      (l.blocks - l.done)
      (l.tracesPerBlock - l.issued + (s.shared.queue.remaining + w.phase.unsimulated)) now owed

namespace Learning.Follows

theorem work {place : Nat} (h : l.Follows first s w now) (reliable : s.setup.task.Reliable)
    (hm : s.Manned) (agrees : s.Agrees) (settled : l.waiting = false → s.Settled)
    (step : s.stepWorker place = some s') : ∃ w' now', l.Follows first s' w' now' := by
  have agrees' := agrees.work step
  -- A worker can step only while a batch is out, so a block is under way.
  have waiting : l.waiting = true := by
    by_contra rested
    obtain ⟨remaining, active⟩ := settled (by simpa using rested) h.opened
    rw [hm.still h.opened remaining active place] at step
    cases step
  obtain ⟨shared', w', now', rfl, stride, abreast⟩ := h.abreast.step reliable agrees hm step
  have present : w ∈ s.workers := by simp [h.abreast.workers]
  obtain ⟨owed, credited, left⟩ := h.left
  obtain ⟨owed', credited', gathers⟩ := stride.gathers (hm.positive w present) agrees'.stores
    (agrees'.workers w' (List.mem_singleton_self _)) credited
  have goes : ∀ {blocks}, 0 < blocks → ∀ left, Plain.learnOn s.setup.task s.config.rule
      s.config.weights l.tracesPerBlock blocks
        (left + (s.shared.queue.remaining + w.phase.unsimulated)) now owed =
      Plain.learnOn s.setup.task s.config.rule s.config.weights l.tracesPerBlock blocks
        (left + (shared'.queue.remaining + w'.phase.unsimulated)) now' owed' := by
    intro blocks some left
    obtain ⟨blocks, rfl⟩ := Nat.exists_eq_add_one_of_ne_zero some.ne'
    simp only [Plain.learnOn, gathers]
  refine ⟨w', now', { h with abreast, opened := ?_, left := ⟨owed', credited', ?_⟩ }⟩
  · exact stride.queue.2.2.trans h.opened
  · exact left.trans (goes (Nat.sub_pos_of_lt (h.busy waiting)) _)

def Ends (first : Plain) (s : Session) (now : Plain) (s' : Session) :
    Except (Stop LearnError) LearnReport → Prop
  | .ok report => s' = s ∧ report.blocks = s.config.blocks ∧ s.learnt first = .ok now
  | .error _ => ∃ e, s.learnt first = .error e

/-- Between batches the worker asks for jobs, and what is left is what was not issued. -/
theorem rests (h : l.Follows first s w now) (hm : s.Manned) (settled : s.Settled) :
    w.phase = .requesting ∧ now = w.plain s.shared ∧ s.shared.queue.remaining = 0 ∧
      s.learnt first = Plain.learnOn s.setup.task s.config.rule s.config.weights l.tracesPerBlock
        (l.blocks - l.done) (l.tracesPerBlock - l.issued) (w.plain s.shared) s.shared.rewards := by
  obtain ⟨owed, credited, left⟩ := h.left
  obtain ⟨remaining, active⟩ := settled h.opened
  obtain ⟨asks, rfl⟩ := h.abreast.asks hm h.opened active
  rw [asks] at credited
  cases credited
  rw [remaining, Phase.unsimulated_requesting asks, Nat.add_zero] at left
  exact ⟨asks, rfl, remaining, left⟩

theorem collect (h : l.Follows first s w now) :
    (Learning.collect s l).Obeys (fun s' l' => ∃ w now, l'.Follows first s' w now)
      (Ends first s now) := by
  unfold Learning.collect
  split
  · trivial
  · simp only [h.abreast.sound, h.untested]
    exact ⟨w, now, { h with untested := rfl, busy := nofun }⟩

theorem issue (h : l.Follows first s w now) (hm : s.Manned) (settled : s.Settled)
    (more : l.done < l.blocks) (short : l.issued < l.tracesPerBlock) :
    ∃ w now, Learning.Follows first (s.withJobs l.batch)
      { l with issued := l.issued + l.batch, waiting := true } w now := by
  obtain ⟨asks, rfl, -, left⟩ := h.rests hm settled
  have issued : l.tracesPerBlock - l.issued =
      l.tracesPerBlock - (l.issued + l.batch) + (l.batch + w.phase.unsimulated) := by
    simp only [Phase.unsimulated_requesting asks, Learning.batch]
    omega
  rw [issued] at left
  exact ⟨w, w.plain s.shared, { h with
    abreast := .of_requesting h.abreast.workers asks h.abreast.context h.abreast.sound
    busy := fun _ => more
    left := ⟨s.shared.rewards, by rw [asks]; rfl, left⟩ }⟩

theorem endBlock (h : l.Follows first s w now) (hm : s.Manned) (settled : s.Settled)
    (rested : ¬ l.waiting = true) (more : l.done < l.blocks) (full : l.tracesPerBlock ≤ l.issued) :
    (Learning.endBlock s l).Obeys (fun s' l' => ∃ w now, l'.Follows first s' w now)
      (Ends first s now) := by
  obtain ⟨asks, rfl, remaining, left⟩ := h.rests hm settled
  obtain ⟨blocks, next⟩ := Nat.exists_eq_add_one_of_ne_zero (Nat.sub_ne_zero_of_lt more)
  rw [next, Nat.sub_eq_zero_of_le full, Plain.learnOn_zero] at left
  unfold Learning.endBlock
  simp only [Plain.update, Worker.plain, Session.resetCounts] at left ⊢
  split
  · next failed =>
    rw [failed] at left
    exact ⟨_, left⟩
  · next sound =>
    rw [sound] at left
    have rest : l.blocks - (l.done + 1) = blocks := by omega
    refine ⟨w, _, { h with
      abreast := .of_requesting h.abreast.workers asks h.abreast.context h.abreast.sound
      done := more
      busy := fun waiting => absurd waiting rested
      left := ⟨.empty, by rw [asks]; rfl, ?_⟩ }⟩
    simp only [Session.resetRewards, rest, remaining, Phase.unsimulated_requesting asks,
      Nat.sub_zero, Nat.add_zero]
    rw [← Plain.learn_eq_learnOn]
    exact left

theorem step (h : l.Follows first s w now) (hm : s.Manned) (settled : l.waiting = false → s.Settled) :
    (Learning.step s l).Obeys (fun s' l' => ∃ w now, l'.Follows first s' w now)
      (Ends first s now) := by
  unfold Learning.step
  split
  · exact h.collect
  · next rested =>
    have settled := settled (by simpa using rested)
    obtain ⟨-, rfl, remaining, left⟩ := h.rests hm settled
    split
    · next all =>
      rw [Nat.sub_eq_zero_of_le all] at left
      exact ⟨rfl, (Nat.le_antisymm h.done all).trans h.blocks, left⟩
    · next more =>
      split
      · next short =>
        simp only [Session.issue_eq_ok.mpr ⟨remaining, rfl⟩]
        exact h.issue hm settled (Nat.lt_of_not_le more) short
      · next full =>
        exact h.endBlock hm settled rested (Nat.lt_of_not_le more) (Nat.le_of_not_lt full)

theorem begin (abreast : s.Abreast .learning w now) (hm : s.Manned) (settled : s.Settled)
    (opened : s.shared.queue.shutdown = false) (unfixed : s.deterministic = false)
    (untested : s.config.bayesLearning = false) (words : s.config.jobsPerRequest < Word.size) :
    ∃ s' l, Learning.start s s.config.tracesPerBlock s.config.blocks = .ok (s', l) ∧
      l.Follows now s' w now := by
  obtain ⟨remaining, active⟩ := settled opened
  obtain ⟨asks, rfl⟩ := abreast.asks hm opened active
  have jobs : Word.mul 1 s.config.jobsPerRequest = .ok s.config.jobsPerRequest := by
    simp [Word.mul, words]
  refine ⟨(s.withContext .learning).resetRewards.resetCounts, ⟨s.config.tracesPerBlock,
    s.config.blocks, max 1 s.config.jobsPerRequest, none, 0, 0, false⟩, ?_, ?_⟩
  · have alone : s.workers.length = 1 := by rw [abreast.workers, List.length_singleton]
    unfold start
    rw [alone]
    simp only [untested]
    exact bind_eq_ok.mpr ⟨(), mapError_eq_ok.mpr (abreast.running opened),
      bind_eq_ok.mpr ⟨none, rfl, bind_eq_ok.mpr ⟨_, mapError_eq_ok.mpr jobs, rfl⟩⟩⟩
  · refine ⟨.of_requesting abreast.workers asks rfl abreast.sound, opened, unfixed, rfl, rfl, rfl,
      Nat.zero_le _, Nat.lt_of_lt_of_le Nat.zero_lt_one (Nat.le_max_left _ _), nofun,
      .empty, by rw [asks]; rfl, ?_⟩
    simp only [Session.resetCounts, Session.resetRewards, Session.withContext,
      Phase.unsimulated_requesting asks, remaining, Nat.add_zero, Nat.sub_zero]
    exact Plain.learn_eq_learnOn

end Learning.Follows

theorem Learning.waits_of_blocked (h : Learning.step s l = .blocked) :
    l.waiting = true ∧ s.shared.queue.idle = false := by
  unfold step at h
  split at h
  · next waiting =>
    unfold collect at h
    split at h
    · next busy => exact ⟨waiting, by simpa using busy⟩
    · repeat' split at h
      all_goals cases h
  · unfold endBlock at h
    simp only at h
    repeat' split at h
    all_goals cases h

theorem Learning.Turn.keeps_setup {l' : Learning} (h : Learning.Turn s l s' l') :
    s'.setup = s.setup := by
  cases h <;> rfl

end SchedulerLearning

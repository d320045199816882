import SchedulerLearning.Proofs.Runs

/-!
# Calls from their beginning

A call to learn or to check, from the session it begins in to any point of it, whatever the
workers do meanwhile. Beside a call to learn a chronicle of its blocks is kept, which no step reads.
-/

namespace SchedulerLearning

-- ---------------------------------------------------------------------------
-- Learning
-- ---------------------------------------------------------------------------

structure Block where
  /-- How many jobs each batch had. -/
  batches : List Nat
  account : Account
  /-- The rewards that the update was made of. -/
  rewards : Rewards

structure Chronicle where
  ended : List Block := []
  /-- The batches of the block under way. -/
  batches : List Nat := []
  /-- The account of the block under way. -/
  account : Account := {}

def Learning.atEnd (l : Learning) : Bool :=
  !l.waiting && l.done < l.blocks && l.tracesPerBlock ≤ l.issued

def Chronicle.afterTurn (c : Chronicle) (s : Session) (l : Learning) (s' : Session) (l' : Learning) :
    Chronicle where
  ended := if l.atEnd then c.ended ++ [⟨c.batches, c.account, s.shared.rewards⟩] else c.ended
  batches :=
    if l.atEnd then []
    else if l'.waiting && !l.waiting then
      c.batches ++ [s'.shared.queue.remaining - s.shared.queue.remaining]
    else c.batches
  account := c.account.afterCall ⟨s, .learning l⟩ ⟨s', .learning l'⟩

namespace Learning

inductive Calls (s₀ : Session) (tracesPerBlock blocks : Nat) : Chronicle → Session → Learning → Prop
  | start {s l} (step : Learning.start s₀ tracesPerBlock blocks = .ok (s, l)) :
      Calls s₀ tracesPerBlock blocks {} s l
  | work {c s s' l} (place : Nat) (call : Calls s₀ tracesPerBlock blocks c s l)
      (step : s.stepWorker place = some s') :
      Calls s₀ tracesPerBlock blocks { c with account := c.account.afterWork place s s' } s' l
  | turn {c s s' l l'} (call : Calls s₀ tracesPerBlock blocks c s l)
      (step : Learning.step s l = .continues s' l') :
      Calls s₀ tracesPerBlock blocks (c.afterTurn s l s' l') s' l'

variable {s₀ s s' : Session} {a₀ : Account} {tracesPerBlock blocks : Nat} {c : Chronicle}
  {l l' : Learning}

theorem Calls.run (call : Calls s₀ tracesPerBlock blocks c s l) (run : Run a₀ ⟨s₀, .resting⟩)
    (word : tracesPerBlock < Word.size) : Run c.account ⟨s, .learning l⟩ := by
  induction call with
  | start step => exact run.coordinate (.learn word step)
  | work place _ step ih => exact ih.work place step
  | turn _ step ih => exact ih.coordinate (.learning step)

/-- A step that learning goes on after, and what it adds to the chronicle. -/
inductive Records (c : Chronicle) (s : Session) (l : Learning) : Chronicle → Session → Learning → Prop
  | collect (waiting : l.waiting = true) (sound : s.shared.queue.failure = none) :
      Records c s l c s { l with waiting := false }
  | issue (rested : l.waiting = false) (more : l.done < l.blocks) (short : l.issued < l.tracesPerBlock)
      (claimed : s.shared.queue.remaining = 0) :
      Records c s l
        { c with
          batches := c.batches ++ [l.batch]
          account := { c.account with issued := c.account.issued + l.batch } }
        (s.withJobs l.batch) { l with issued := l.issued + l.batch, waiting := true }
  | update (rested : l.waiting = false) (more : l.done < l.blocks) (full : l.tracesPerBlock ≤ l.issued) :
      Records c s l ⟨c.ended ++ [⟨c.batches, c.account, s.shared.rewards⟩], [], {}⟩
        (s.updated (s.shared.scheduler.update s.config.rule s.config.weights s.shared.rewards).scheduler)
        { l with done := l.done + 1, issued := 0 }

theorem step_of_atEnd (h : l.atEnd = true) : step s l = endBlock s l := by
  simp only [atEnd, Bool.and_eq_true, Bool.not_eq_true', decide_eq_true_eq] at h
  obtain ⟨⟨rested, more⟩, full⟩ := h
  simp [step, rested, Nat.not_le.mpr more, Nat.not_lt.mpr full]

theorem records_of_step (h : step s l = .continues s' l') :
    Records c s l (c.afterTurn s l s' l') s' l' := by
  cases turn_of_step h with
  | collect waiting _ sound =>
    have same : c.afterTurn s l s { l with waiting := false } = c := by
      simp [Chronicle.afterTurn, atEnd, waiting, Account.afterCall, Account.begins]
    rw [same]
    exact .collect waiting sound
  | issue rested more short claimed =>
    have issued : c.afterTurn s l (s.withJobs l.batch)
        { l with issued := l.issued + l.batch, waiting := true } =
        { c with
          batches := c.batches ++ [l.batch]
          account := { c.account with issued := c.account.issued + l.batch } } := by
      simp [Chronicle.afterTurn, atEnd, rested, Nat.not_le.mpr short, Account.afterCall,
        Account.begins, Session.withJobs, claimed]
    rw [issued]
    exact .issue rested more short claimed
  | @update scheduler rested more full =>
    have ends : l.atEnd = true := by simp [atEnd, rested, more, full]
    rw [step_of_atEnd ends] at h
    unfold endBlock at h
    simp only at h
    split at h
    · cases h
    · injection h with same
      have ended : c.afterTurn s l (s.updated scheduler) { l with done := l.done + 1, issued := 0 } =
          ⟨c.ended ++ [⟨c.batches, c.account, s.shared.rewards⟩], [], {}⟩ := by
        simp [Chronicle.afterTurn, ends, Account.afterCall, Account.begins]
      rw [ended, ← same]
      exact .update rested more full

end Learning

-- ---------------------------------------------------------------------------
-- Checking
-- ---------------------------------------------------------------------------

namespace Checking

inductive Calls (s₀ : Session) (procedure : Procedure) : Session → Checking → Prop
  | start {s c} (step : Checking.start s₀ procedure = .ok (s, c)) : Calls s₀ procedure s c
  | work {s s' c} (place : Nat) (call : Calls s₀ procedure s c)
      (step : s.stepWorker place = some s') : Calls s₀ procedure s' c
  | turn {s s' c c'} (call : Calls s₀ procedure s c)
      (step : Checking.step s c = .continues s' c') : Calls s₀ procedure s' c'

variable {s₀ s : Session} {a₀ : Account} {procedure : Procedure} {c : Checking}

theorem Calls.run (call : Calls s₀ procedure s c) (run : Run a₀ ⟨s₀, .resting⟩) :
    ∃ a, Run a ⟨s, .checking c⟩ := by
  induction call with
  | start step => exact ⟨_, run.coordinate (.check step)⟩
  | work place _ step ih =>
    obtain ⟨a, run⟩ := ih
    exact ⟨_, run.work place step⟩
  | turn _ step ih =>
    obtain ⟨a, run⟩ := ih
    exact ⟨_, run.coordinate (.checking step)⟩

end Checking

end SchedulerLearning

import SchedulerLearning.Proofs.Calls
import SchedulerLearning.Proofs.SchedulerGrowth
import SchedulerLearning.Proofs.Service

/-!
# What a check leaves alone

Every grant of a check carries the batch that the check began with, so its results go to the
channel, and nothing else of the session changes but that states become known.
-/

namespace SchedulerLearning

variable {setup : Setup} {shared shared' : Shared} {p q : Phase} {w : Worker} {holding : Holding}
  {left : Nat} {t : Trace} {b : Batch} {s₀ s s' s'' : Session} {a : Account} {procedure : Procedure}
  {c : Checking}

-- ---------------------------------------------------------------------------
-- Workers
-- ---------------------------------------------------------------------------

/-- What a worker with verdicts to deliver does not change. -/
structure Shared.Spares (shared shared' : Shared) : Prop where
  rewards : shared'.rewards = shared.rewards
  satisfied : shared'.satisfied = shared.satisfied
  failed : shared'.failed = shared.failed

theorem Move.spares (h : Move setup shared p shared' q)
    (sink : ∀ holding, p.holding? = some holding → holding.batch.sink = .verdicts) :
    shared.Spares shared' := by
  cases h with
  | credit rewarding | count rewarding | countLast rewarding | crash rewarding =>
    have verdicts := sink _ rfl
    rw [rewarding] at verdicts
    cases verdicts
  | _ => exact ⟨rfl, rfl, rfl⟩

/-- Whether a grant in hand carries a batch, and no choice that the batch's overlay makes is left
to the scheduler. -/
def Phase.Carries (b : Batch) : Phase → Prop
  | .simulating holding _ _ | .delivering holding _ _ _ | .failing holding _ => holding.batch = b
  | .entering holding _ t _ _ | .sampling holding _ t _ _ =>
    holding.batch = b ∧ b.overlay.bind (·.choice? t.last) = none
  | .requesting | .reporting _ | .stopped => True

theorem Phase.Carries.batch (h : p.Carries b) (held : p.holding? = some holding) :
    holding.batch = b := by
  cases p with
  | requesting | reporting | stopped => cases held
  | simulating | delivering | failing =>
    cases held
    exact h
  | entering | sampling =>
    cases held
    exact h.1

namespace Worker

theorem beginJob_carries (hb : holding.batch = b) : (beginJob setup holding).Carries b := by
  rcases beginJob_cases setup holding with ⟨_, _, h⟩ | ⟨_, h⟩ <;> rw [h] <;> exact hb

theorem carries_of_cases (hb : holding.batch = b)
    (h : (∃ t', p = .simulating holding left t') ∨ ∃ error, p = .failing holding error) :
    p.Carries b := by
  rcases h with ⟨_, rfl⟩ | ⟨_, rfl⟩ <;> exact hb

theorem checkTrace_carries (hb : holding.batch = b) :
    (w.checkTrace setup holding t).phase.Carries b := by
  unfold checkTrace
  split <;> exact hb

theorem explore_carries (hb : holding.batch = b) :
    (w.explore setup shared holding left t).phase.Carries b := by
  unfold explore
  split
  · exact checkTrace_carries hb
  · split
    · exact hb
    · exact checkTrace_carries hb
    · exact carries_of_cases hb (advance_cases ..)
    · simp only
      split
      · exact carries_of_cases hb (take_cases ..)
      · next uncovered =>
        rw [hb] at uncovered
        split <;> exact ⟨hb, uncovered⟩

theorem act_carries (context : shared.queue.context = b) (hw : w.phase.Carries b) :
    (w.act setup shared).2.phase.Carries b := by
  unfold act
  cases hq : w.phase with
  | requesting =>
    simp only
    split
    -- Only here does a batch come from the queue. All other phases keep the grant in hand.
    · next granted =>
      obtain ⟨-, -, -, -, same, -⟩ := JobQueue.request_granted granted
      exact beginJob_carries (same.trans context)
    · trivial
    · simp only [hq]
      trivial
  | simulating =>
    rw [hq] at hw
    exact explore_carries hw
  | entering =>
    rw [hq] at hw
    exact hw
  | sampling =>
    rw [hq] at hw
    exact carries_of_cases hw.1 (take_cases ..)
  | delivering holding credits missed verdict =>
    rw [hq] at hw
    simp only
    split
    · unfold deliverLast
      simp only
      split
      · trivial
      · exact hw
      · exact hw
    · unfold deliver
      split
      · exact beginJob_carries hw
      · exact beginJob_carries hw
      · split
        · split <;> exact hw
        · exact hw
  | failing holding error =>
    simp only
    split <;> trivial
  | reporting => trivial
  | stopped =>
    simp only [hq]
    trivial

end Worker

-- ---------------------------------------------------------------------------
-- Sessions
-- ---------------------------------------------------------------------------

/-- Whether one session is as another was, but for its workers, its queue, its channel, and states
that became known. -/
structure Session.Untouched (s s' : Session) : Prop where
  setup : s'.setup = s.setup
  config : s'.config = s.config
  overlay : s'.overlay = s.overlay
  deterministic : s'.deterministic = s.deterministic
  spares : s.shared.Spares s'.shared
  scheduler : s.shared.scheduler.WidensTo s.setup.process s'.shared.scheduler

namespace Session.Untouched

theorem trans (h : s.Untouched s') (h' : s'.Untouched s'') : s.Untouched s'' where
  setup := h'.setup.trans h.setup
  config := h'.config.trans h.config
  overlay := h'.overlay.trans h.overlay
  deterministic := h'.deterministic.trans h.deterministic
  spares := ⟨h'.spares.rewards.trans h.spares.rewards, h'.spares.satisfied.trans h.spares.satisfied,
    h'.spares.failed.trans h.spares.failed⟩
  scheduler := h.scheduler.trans (h.setup ▸ h'.scheduler)

theorem work {place : Nat} (hm : s.Manned) (agrees : s.Agrees)
    (sinks : ∀ w ∈ s.workers, ∀ holding, w.phase.holding? = some holding →
      holding.batch.sink = .verdicts)
    (step : s.stepWorker place = some s') : s.Untouched s' := by
  have widens := agrees.widens step
  cases hm.works step with
  | mk there move =>
    have spares := move.spares (sinks _ (List.mem_of_getElem? there))
    exact ⟨rfl, rfl, rfl, rfl, spares, widens⟩

end Session.Untouched

namespace Checking

theorem Writes.untouched (h : Writes s s') : s.Untouched s' := by
  cases h <;> exact ⟨rfl, rfl, rfl, rfl, ⟨rfl, rfl, rfl⟩, .refl _⟩

theorem Writes.grants (h : Writes s s') :
    s'.workers = s.workers ∧ s'.shared.queue.context = s.shared.queue.context := by
  cases h <;> exact ⟨rfl, rfl⟩

theorem untouched_of_returns {result : Except (Stop LearnError) Outcome}
    (h : step s c = .returns s' result) : s.Untouched s' := by
  rcases (step_writes s c).of_returns h with writes | rfl
  · exact writes.untouched
  · exact ⟨rfl, rfl, rfl, rfl, ⟨rfl, rfl, rfl⟩, .refl _⟩

structure Observes (s₀ s : Session) : Prop where
  untouched : s₀.Untouched s
  context : s.shared.queue.context = s₀.observing
  workers : ∀ w ∈ s.workers, w.phase.Carries s₀.observing

theorem Calls.observes (call : Calls s₀ procedure s c) (run : Run a ⟨s₀, .resting⟩) :
    Observes s₀ s := by
  induction call with
  | start step =>
    obtain ⟨hm, settled⟩ := run.orderly
    obtain ⟨running, rfl, -⟩ := start_eq_ok step
    obtain ⟨-, -, -, -, requesting⟩ := Session.running hm settled running
    refine ⟨⟨rfl, rfl, rfl, rfl, ⟨rfl, rfl, rfl⟩, .refl _⟩, rfl, fun w hw => ?_⟩
    rw [requesting w hw]
    trivial
  | @work s s' c place call step ih =>
    obtain ⟨a, run⟩ := call.run run
    have hm : s.Manned := run.orderly.1
    have sinks : ∀ w ∈ s.workers, ∀ holding, w.phase.holding? = some holding →
        holding.batch.sink = .verdicts := by
      intro w hw holding held
      rw [(ih.workers w hw).batch held]
      rfl
    have untouched : s.Untouched s' := .work hm run.drawn.agrees sinks step
    have context : s'.shared.queue.context = s.shared.queue.context := by
      cases hm.works step with
      | mk there move => exact move.context
    refine ⟨ih.untouched.trans untouched, context.trans ih.context, ?_⟩
    obtain ⟨w, there, -, rfl⟩ := Session.act_of_stepWorker step
    have carries : (w.act s.setup s.shared).2.phase.Carries s₀.observing :=
      Worker.act_carries ih.context (ih.workers w (List.mem_of_getElem? there))
    exact forall_mem_set ih.workers carries
  | @turn s s' c c' call step ih =>
    have writes : Writes s s' := (step_writes s c).of_continues step
    obtain ⟨workers, context⟩ := writes.grants
    exact ⟨ih.untouched.trans writes.untouched, context.trans ih.context, workers ▸ ih.workers⟩

end Checking

end SchedulerLearning

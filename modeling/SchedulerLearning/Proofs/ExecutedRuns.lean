import SchedulerLearning.Engine.Schedule
import SchedulerLearning.Proofs.Stages

/-!
# What is executed is a schedule

The order in which sessions are executed, workers first, is one of the orders that a whole run may
step in.
-/

namespace SchedulerLearning

open Relation (ReflTransGen)

variable {s s' : Session} {stage : Stage} {shared' : Shared} {w w' : Worker}
  {front rest ws ws' : List Worker} {moved moved' : Bool}

-- ---------------------------------------------------------------------------
-- Settling the workers
-- ---------------------------------------------------------------------------

namespace Worker

theorem leadsTo_settle {fuel : Nat} (there : s.workers = front ++ w :: rest)
    (settled : w.settle s.setup fuel s.shared moved = (shared', w', moved')) :
    Point.LeadsTo ⟨s, stage⟩ ⟨{ s with shared := shared', workers := front ++ w' :: rest }, stage⟩ := by
  induction fuel generalizing s w moved with
  | zero =>
    cases settled
    rw [← there]
  | succ fuel ih =>
    unfold settle at settled
    split at settled
    · next ready =>
      have step : s.stepWorker front.length = some { s with
          shared := (w.act s.setup s.shared).1
          workers := front ++ (w.act s.setup s.shared).2 :: rest } := by
        simp [Session.stepWorker, there, Worker.step, ready]
      exact .head (.work front.length step) (ih rfl settled)
    · cases settled
      rw [← there]

end Worker

namespace Session

theorem leadsTo_settleEach (there : s.workers = front ++ ws)
    (settled : settleEach s.setup s.shared ws = (shared', ws', moved)) :
    Point.LeadsTo ⟨s, stage⟩ ⟨{ s with shared := shared', workers := front ++ ws' }, stage⟩ := by
  induction ws generalizing s front ws' moved with
  | nil =>
    cases settled
    rw [← there]
  | cons w rest ih =>
    unfold settleEach at settled
    cases first : w.settle s.setup patience s.shared false with
    | mk shared first' =>
      obtain ⟨w', moved'⟩ := first'
      cases others : settleEach s.setup shared rest with
      | mk shared'' others' =>
        obtain ⟨rest', moved''⟩ := others'
        simp only [first, others] at settled
        cases settled
        have head : Point.LeadsTo ⟨s, stage⟩ _ := Worker.leadsTo_settle there first
        have tail : Point.LeadsTo ⟨{ s with shared, workers := front ++ w' :: rest }, stage⟩
            ⟨{ s with shared := shared', workers := front ++ [w'] ++ rest' }, stage⟩ :=
          ih (by simp) others
        simp only [List.append_assoc, List.singleton_append] at tail
        exact head.trans tail

theorem leadsTo_settle : Point.LeadsTo ⟨s, stage⟩ ⟨s.settle.1, stage⟩ :=
  leadsTo_settleEach (List.nil_append _).symm rfl

-- ---------------------------------------------------------------------------
-- Running a call
-- ---------------------------------------------------------------------------

theorem leadsTo_complete {σ β : Type} {step : Session → σ → Progress σ β} {during : σ → Stage}
    {after : β → Stage} (steps : ∀ s activity, (during activity).next s =
      (step s activity).stage? during after) {fuel : Nat} {activity : σ} {result : β}
    (completed : complete step fuel s activity = (s', .ok result)) :
    Point.LeadsTo ⟨s, during activity⟩ ⟨s', after result⟩ := by
  induction fuel generalizing s activity with
  | zero => cases completed
  | succ fuel ih =>
    have settled : Point.LeadsTo ⟨s, during activity⟩ ⟨s.settle.1, during activity⟩ := leadsTo_settle
    refine settled.trans ?_
    unfold complete at completed
    simp only at completed
    have next := steps s.settle.1 activity
    cases progress : step s.settle.1 activity with
    | blocked =>
      simp only [progress] at completed
      split at completed
      · exact ih completed
      · cases completed
    | continues s₁ activity₁ =>
      rw [progress] at next completed
      exact .head (.coordinate next) (ih completed)
    | returns s₁ result₁ =>
      rw [progress] at next completed
      cases completed
      exact .single (.coordinate next)

/-- A call that is executed ends in an error if a step of it does, or if nothing is left to wait
for. -/
theorem failed_of_complete {σ β : Type} {step : Session → σ → Progress σ β} {during : σ → Stage}
    {after : β → Stage} (steps : ∀ s activity, (during activity).next s =
      (step s activity).stage? during after) {fuel : Nat} {activity : σ} {stop : Stop LearnError}
    (completed : complete step fuel s activity = (s', .error stop)) :
    Point.LeadsTo ⟨s, during activity⟩ ⟨s', .failed stop⟩ ∨ ∃ fault, stop = .faulted fault := by
  induction fuel generalizing s activity with
  | zero =>
    cases completed
    exact .inr ⟨_, rfl⟩
  | succ fuel ih =>
    have settled : Point.LeadsTo ⟨s, during activity⟩ ⟨s.settle.1, during activity⟩ := leadsTo_settle
    unfold complete at completed
    simp only at completed
    have next := steps s.settle.1 activity
    cases progress : step s.settle.1 activity with
    | blocked =>
      simp only [progress] at completed
      split at completed
      · exact (ih completed).imp_left settled.trans
      · cases completed
        exact .inr ⟨_, rfl⟩
    | continues s₁ activity₁ =>
      rw [progress] at next completed
      exact (ih completed).imp_left fun failed => settled.trans (.head (.coordinate next) failed)
    | returns s₁ result₁ =>
      rw [progress] at next completed
      cases completed
      exact .inl (settled.tail (.coordinate next))

-- ---------------------------------------------------------------------------
-- A whole run
-- ---------------------------------------------------------------------------

theorem decide_eq :
    s.decide = match s.config.procedure with
      | .error stop => (s, .error stop)
      | .ok procedure => s.check procedure := by
  unfold decide Config.procedure
  simp only
  cases s.config.method with
  | testing =>
    simp only [test]
    cases HypothesisTest.start Beta.floatCdf s.config.theta s.config.threshold s.config.alpha
      s.config.beta s.config.minTraces s.config.maxTraces <;> rfl
  | estimation =>
    simp only [estimate]
    cases IntervalEstimator.start s.config.alpha s.config.beta s.config.delta s.config.coefficient <;> rfl

theorem leadsTo_learn {report : LearnReport}
    (learnt : s.learn s.config.tracesPerBlock s.config.blocks = (s', .ok report)) :
    Point.LeadsTo ⟨s, .started⟩ ⟨s', .learned report⟩ := by
  unfold learn at learnt
  split at learnt
  · cases learnt
  · next s₁ l started =>
    have next : Stage.started.next s = some (s₁, .learning l) := by
      simp only [Stage.next, started]
    exact .head (.coordinate next) (leadsTo_complete (fun _ _ => rfl) learnt)

theorem leadsTo_decide {report : LearnReport} {outcome : Outcome}
    (decided : s.decide = (s', .ok outcome)) :
    Point.LeadsTo ⟨s, .deciding report⟩ ⟨s', .checked report outcome⟩ := by
  rw [decide_eq] at decided
  split at decided
  · cases decided
  · next procedure chosen =>
    unfold check at decided
    split at decided
    · cases decided
    · next s₁ c started =>
      have both : s.config.procedure >>= Checking.start s = .ok (s₁, c) :=
        bind_eq_ok.mpr ⟨procedure, chosen, started⟩
      have next : (Stage.deciding report).next s = some (s₁, .checking report c) := by
        simp only [Stage.next, both]
      exact .head (.coordinate next) (leadsTo_complete (fun _ _ => rfl) decided)

theorem leadsTo_run {summary : Summary} (ran : s.run = (s', .ok summary)) :
    ∃ s', Point.LeadsTo ⟨s, .starting⟩ ⟨s', .checked summary.learning summary.outcome⟩ := by
  unfold run runTimed at ran
  simp only [Id.run, pure, bind] at ran
  split at ran
  · cases ran
  · next s₁ starts =>
    split at ran
    · cases ran
    · next s₂ learning learnt =>
      split at ran
      · cases ran
      · next s₃ outcome decided =>
        cases ran
        have next : Stage.starting.next s = some (s₁, .started) := by
          simp only [Stage.next, starts]
        exact ⟨s₃, .head (.coordinate next) ((leadsTo_learn learnt).trans
          (.head (.coordinate rfl) (leadsTo_decide decided)))⟩

theorem failed_of_learn {stop : Stop LearnError}
    (learnt : s.learn s.config.tracesPerBlock s.config.blocks = (s', .error stop)) :
    Point.LeadsTo ⟨s, .started⟩ ⟨s', .failed stop⟩ ∨ ∃ fault, stop = .faulted fault := by
  unfold learn at learnt
  split at learnt
  · next refused =>
    cases learnt
    exact .inl (.single (.coordinate (by simp only [Stage.next, refused])))
  · next s₁ l started =>
    have next : Stage.started.next s = some (s₁, .learning l) := by
      simp only [Stage.next, started]
    exact (failed_of_complete (fun _ _ => rfl) learnt).imp_left fun failed =>
      .head (.coordinate next) failed

theorem failed_of_decide {report : LearnReport} {stop : Stop LearnError}
    (decided : s.decide = (s', .error stop)) :
    Point.LeadsTo ⟨s, .deciding report⟩ ⟨s', .failed stop⟩ ∨ ∃ fault, stop = .faulted fault := by
  rw [decide_eq] at decided
  split at decided
  · next refused =>
    cases decided
    exact .inl (.single (.coordinate (by simp only [Stage.next, refused]; rfl)))
  · next procedure chosen =>
    unfold check at decided
    split at decided
    · next refused =>
      cases decided
      have both : s.config.procedure >>= Checking.start s = .error stop := by rw [chosen]; exact refused
      exact .inl (.single (.coordinate (by simp only [Stage.next, both])))
    · next s₁ c started =>
      have both : s.config.procedure >>= Checking.start s = .ok (s₁, c) :=
        bind_eq_ok.mpr ⟨procedure, chosen, started⟩
      have next : (Stage.deciding report).next s = some (s₁, .checking report c) := by
        simp only [Stage.next, both]
      exact (failed_of_complete (fun _ _ => rfl) decided).imp_left fun failed =>
        .head (.coordinate next) failed

theorem failed_of_run {stop : Stop LearnError} (ran : s.run = (s', .error stop)) :
    (∃ s', Point.LeadsTo ⟨s, .starting⟩ ⟨s', .failed stop⟩) ∨ ∃ fault, stop = .faulted fault := by
  unfold run runTimed at ran
  simp only [Id.run, pure, bind] at ran
  split at ran
  · next s₁ refused starts =>
    cases ran
    have next : Stage.starting.next s = some (s', .failed (.refused refused)) := by
      simp only [Stage.next, starts]
    exact .inl ⟨s', .single (.coordinate next)⟩
  · next s₁ starts =>
    have started : Point.LeadsTo ⟨s, .starting⟩ ⟨s₁, .started⟩ :=
      .single (.coordinate (by simp only [Stage.next, starts]))
    split at ran
    · next learnt =>
      cases ran
      exact (failed_of_learn learnt).imp_left fun failed => ⟨_, started.trans failed⟩
    · next s₂ learning learnt =>
      split at ran
      · next decided =>
        cases ran
        have deciding : Point.LeadsTo ⟨s, .starting⟩ _ :=
          started.trans ((leadsTo_learn learnt).tail (.coordinate rfl))
        exact (failed_of_decide decided).imp_left fun failed => ⟨_, deciding.trans failed⟩
      · cases ran

end Session

end SchedulerLearning

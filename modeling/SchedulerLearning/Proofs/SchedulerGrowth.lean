import SchedulerLearning.Proofs.AgreementRuns

/-!
# How workers change the scheduler

In one way only: a state that is not known gets the uniform mixture of its choices.
-/

namespace SchedulerLearning

variable {m : DecisionProcess Float} {setup : Setup} {shared : Shared} {w : Worker} {s s' : Session}

namespace Scheduler

variable {p p' p'' : Scheduler Float} {t : State} {n : Nat}

/-- Whether what is known stays as it is, and each state that is new has the uniform mixture of
its choices. -/
def WidensTo (m : DecisionProcess Float) (p p' : Scheduler Float) : Prop :=
  ∀ t, p'.get? t = p.get? t ∨
    p.get? t = none ∧ ∃ n, m.Offers t n ∧ p'.get? t = some (.uniform n)

theorem WidensTo.refl (p : Scheduler Float) : p.WidensTo m p := fun _ => .inl rfl

theorem WidensTo.trans (h : p.WidensTo m p') (h' : p'.WidensTo m p'') : p.WidensTo m p'' := by
  intro t
  rcases h' t with same | ⟨unknown, n, offered, uniform⟩
  · rw [same]
    exact h t
  · rcases h t with same | ⟨_, _, _, known⟩
    · exact .inr ⟨same ▸ unknown, n, offered, uniform⟩
    · rw [known] at unknown
      cases unknown

theorem widensTo_enter (offered : m.Offers t n) : p.WidensTo m (p.enter t n).1 := by
  intro u
  rw [get?_enter]
  by_cases same : t = u
  · subst same
    cases known : p.get? t with
    | none => exact .inr ⟨rfl, n, offered, by simp⟩
    | some mixture => exact .inl (by simp)
  · exact .inl (by simp [same])

end Scheduler

theorem Shared.scheduler_deliver {sink : Sink} {credits : List Credit} {verdict : Verdict} :
    (shared.deliver sink credits verdict).1.scheduler = shared.scheduler := by
  unfold deliver
  split
  · rfl
  · split
    · next credited =>
      rw [Shared.scheduler_count]
      simpa [creditAll] using congrArg (·.1.scheduler) credited.symm
    · next credited => simpa [creditAll] using congrArg (·.1.scheduler) credited.symm

namespace Worker

variable {holding : Holding} {credits : List Credit} {missed : Bool} {verdict : Verdict}

theorem scheduler_deliver :
    (w.deliver setup shared holding credits missed verdict).1.scheduler = shared.scheduler := by
  unfold deliver
  split
  · rfl
  · exact Shared.scheduler_count verdict
  · split
    · split <;> next credited => simpa [Shared.credit] using congrArg (·.1.scheduler) credited.symm
    · rfl

theorem scheduler_deliverLast :
    (w.deliverLast shared holding credits verdict).1.scheduler = shared.scheduler := by
  unfold deliverLast
  have kept : (shared.deliver holding.batch.sink credits verdict).1.scheduler = shared.scheduler :=
    Shared.scheduler_deliver
  simp only
  split <;> exact kept

theorem act_widens (hw : w.phase.Fits setup shared.scheduler) :
    shared.scheduler.WidensTo setup.process (w.act setup shared).1.scheduler := by
  unfold act
  cases hq : w.phase with
  | requesting =>
    simp only
    split <;> exact .refl _
  | entering holding left t offers x =>
    rw [hq] at hw
    exact Scheduler.widensTo_enter (DecisionProcess.offers_of_turn hw.2.2)
  | delivering holding credits missed verdict =>
    simp only
    split
    · rw [scheduler_deliverLast]
      exact .refl _
    · rw [scheduler_deliver]
      exact .refl _
  | failing holding error =>
    simp only
    split <;> exact .refl _
  | simulating | sampling | reporting | stopped => exact .refl _

end Worker

theorem Session.Agrees.widens {place : Nat} (h : s.Agrees) (step : s.stepWorker place = some s') :
    s.shared.scheduler.WidensTo s.setup.process s'.shared.scheduler := by
  obtain ⟨w, there, -, rfl⟩ := act_of_stepWorker step
  exact Worker.act_widens (h.workers w (List.mem_of_getElem? there))

end SchedulerLearning

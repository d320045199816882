import SchedulerLearning.Proofs.SequentialProgram

/-!
# A worker in the sequence of jobs

A worker cuts the simulation of a trace into steps, and the sequential program simulates it at
once. At each point of a job, what is left of it is what is left of the job of the program.
-/

namespace SchedulerLearning

/-- What the sequential program would have at the point where a worker is. -/
def Worker.plain (shared : Shared) (w : Worker) : Plain := ⟨w.branching, w.choosing, shared.scheduler⟩

/-- The trace that the program makes of the one that a worker is on, and the program after it. -/
inductive Plain.Finishes (task : Task) (now : Plain) : Phase → Trace → Plain → Prop
  | simulating {holding left t t' next}
      (rest : now.continueFrom task holding.batch.overlay left t = .ok (t', next)) :
      Finishes task now (.simulating holding left t) t' next
  | entering {holding left t offers x t' next scheduler}
      (entered : (now.scheduler.enter t.last offers.length).1 = scheduler)
      (rest : { now with scheduler }.take task holding.batch.overlay left t offers
        (scheduler.sample t.last x) = .ok (t', next)) :
      Finishes task now (.entering holding left t offers x) t' next
  | sampling {holding left t offers x t' next}
      (rest : now.take task holding.batch.overlay left t offers (now.scheduler.sample t.last x) =
        .ok (t', next)) :
      Finishes task now (.sampling holding left t offers x) t' next

/-- What a worker comes to that has a trace to finish: it is still on it, or has judged it. -/
inductive Worker.Pursues (setup : Setup) (shared : Shared) (holding : Holding) (t : Trace)
    (next : Plain) (verdict : Verdict) (w : Worker) : Prop
  | on (simulates : w.phase.simulates? = some holding)
      (rest : (w.plain shared).Finishes setup.task w.phase t next)
  | judged (delivers : w.phase =
        .delivering holding (setup.creditsOf holding.batch.sink t verdict) false verdict)
      (past : w.plain shared = next)

namespace Worker

variable {setup : Setup} {shared : Shared} {w : Worker} {holding : Holding} {left : Nat}
  {t t' : Trace} {next : Plain} {verdict : Verdict}

theorem advance_pursues {branches : Distribution Float} {choice offered : Nat}
    (h : (w.plain shared).follow setup.task holding.batch.overlay left t branches choice offered =
      .ok (t', next)) :
    (w.advance holding left t branches choice offered).Pursues setup shared holding t' next verdict := by
  unfold Plain.follow at h
  unfold advance
  have draws : (w.plain shared).branching = w.branching := rfl
  rw [draws] at h
  cases followed : DecisionProcess.follow Random.Generator.source branches choice offered t
      w.branching with
  | mk answer branching =>
    rw [followed] at h
    cases answer with
    | error e => cases h
    | ok t => exact .on rfl (.simulating h)

theorem take_pursues {offers : List (Distribution Float)} {choice : Nat}
    (h : (w.plain shared).take setup.task holding.batch.overlay left t offers choice =
      .ok (t', next)) :
    (w.take holding left t offers choice).Pursues setup shared holding t' next verdict := by
  unfold Plain.take at h
  unfold take
  cases chosen : DecisionProcess.chosen offers choice with
  | error e =>
    rw [chosen] at h
    cases h
  | ok branches =>
    rw [chosen] at h
    exact advance_pursues h

theorem checkTrace_pursues (judged : setup.property.evaluate t = .ok verdict) :
    (w.checkTrace setup holding t).Pursues setup shared holding t (w.plain shared) verdict := by
  unfold checkTrace
  rw [judged]
  exact .judged rfl rfl

theorem explore_pursues
    (h : (w.plain shared).continueFrom setup.task holding.batch.overlay left t = .ok (t', next))
    (judged : setup.property.evaluate t' = .ok verdict) :
    (w.explore setup shared holding left t).Pursues setup shared holding t' next verdict := by
  cases left with
  | zero =>
    cases h
    exact checkTrace_pursues judged
  | succ left =>
    rw [Plain.continueFrom_succ] at h
    unfold explore
    simp only
    cases turn : setup.process.turn t with
    | error e =>
      rw [show setup.task.process.turn t = _ from turn] at h
      cases h
    | ok found =>
      rw [show setup.task.process.turn t = _ from turn] at h
      cases found with
      | deadlock =>
        cases h
        exact checkTrace_pursues judged
      | only branches => exact advance_pursues h
      | among offers =>
        simp only [Plain.choose, Scheduler.resolve] at h ⊢
        cases chosen : holding.batch.overlay.bind (·.choice? t.last) with
        | some choice =>
          rw [chosen] at h
          exact take_pursues h
        | none =>
          rw [chosen] at h
          simp only at h ⊢
          split
          · next known =>
            refine .on rfl (.sampling ?_)
            have same : (shared.scheduler.enter t.last offers.length).1 = shared.scheduler := by
              simp [Scheduler.enter, known]
            simpa [plain, same] using h
          · exact .on rfl (.entering rfl h)

/-- A step of a worker on a trace leaves the rest of the job as it is, and reaches its end with
what the program makes of it. -/
theorem act_pursues (simulates : w.phase.simulates? = some holding)
    (h : (w.plain shared).Finishes setup.task w.phase t' next)
    (judged : setup.property.evaluate t' = .ok verdict) :
    ∃ scheduler, (w.act setup shared).1 = { shared with scheduler } ∧
      (w.act setup shared).2.Pursues setup (w.act setup shared).1 holding t' next verdict := by
  unfold act
  cases hp : w.phase with
  | simulating holding' left t =>
    rw [hp] at h simulates
    cases simulates
    cases h with
    | simulating rest => exact ⟨_, rfl, explore_pursues rest judged⟩
  | entering holding' left t offers x =>
    rw [hp] at h simulates
    cases simulates
    cases h with
    | entering entered rest =>
      subst entered
      exact ⟨_, rfl, .on rfl (.sampling rest)⟩
  | sampling holding' left t offers x =>
    rw [hp] at h simulates
    cases simulates
    cases h with
    | sampling rest => exact ⟨_, rfl, take_pursues rest⟩
  | _ =>
    rw [hp] at simulates
    cases simulates

end Worker

end SchedulerLearning

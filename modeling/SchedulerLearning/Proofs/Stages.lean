import SchedulerLearning.Proofs.SequentialProgram
import Mathlib.Logic.Relation

/-!
# The stages of a whole run

A whole run starts the workers, learns, fixes the choices if that is asked for, decides, and stops
the workers. Its coordinator makes these calls one after the other, each in its own steps, and the
workers step in between in any order.
-/

namespace SchedulerLearning

/-- Where the coordinator of a whole run is: between two calls, or in the middle of one. -/
inductive Stage
  | starting
  | started
  | learning (l : Learning)
  | learned (report : LearnReport)
  | deciding (report : LearnReport)
  | checking (report : LearnReport) (c : Checking)
  | checked (report : LearnReport) (outcome : Outcome)
  | stopping (report : LearnReport) (outcome : Outcome)
  | finished (report : LearnReport) (outcome : Outcome)
  | failed (stop : Stop LearnError)

def Progress.stage? {σ β : Type} (during : σ → Stage) (after : β → Stage) :
    Progress σ β → Option (Session × Stage)
  | .blocked => none
  | .continues s activity => some (s, during activity)
  | .returns s (.ok result) => some (s, after result)
  | .returns s (.error stop) => some (s, .failed stop)

namespace Stage

def next (s : Session) : Stage → Option (Session × Stage)
  | starting =>
    match s.start with
    | (s, .ok ()) => some (s, started)
    | (s, .error e) => some (s, failed (.refused e))
  | started =>
    match Learning.start s s.config.tracesPerBlock s.config.blocks with
    | .ok (s, l) => some (s, learning l)
    | .error stop => some (s, failed stop)
  | learning l => (Learning.step s l).stage? learning learned
  | learned report =>
    some (if s.config.determinise then s.determinise.1.setDeterministic true else s, deciding report)
  | deciding report =>
    match s.config.procedure >>= Checking.start s with
    | .ok (s, c) => some (s, checking report c)
    | .error stop => some (s, failed stop)
  | checking report c => (Checking.step s c).stage? (checking report) (checked report)
  | checked report outcome => some (s.close, stopping report outcome)
  | stopping report outcome =>
    s.join.stage? (fun _ => stopping report outcome) fun _ => finished report outcome
  | finished _ _ | failed _ => none

def activity : Stage → Activity
  | learning l => .learning l
  | checking _ c => .checking c
  | stopping _ _ => .stopping
  | failed _ => .broken
  | _ => .resting

def result? : Stage → Option (LearnReport × Outcome)
  | checked report outcome | stopping report outcome | finished report outcome => some (report, outcome)
  | _ => none

def Failed : Stage → Prop
  | failed _ => True
  | _ => False

end Stage

structure Point where
  session : Session
  stage : Stage

namespace Point

inductive Step : Point → Point → Prop
  | work {s s' stage} (place : Nat) (step : s.stepWorker place = some s') : Step ⟨s, stage⟩ ⟨s', stage⟩
  | coordinate {s s' stage stage'} (step : stage.next s = some (s', stage')) :
      Step ⟨s, stage⟩ ⟨s', stage'⟩

abbrev LeadsTo : Point → Point → Prop := Relation.ReflTransGen Step

end Point

-- ---------------------------------------------------------------------------
-- A whole run is a run
-- ---------------------------------------------------------------------------

variable {s s' : Session} {stage stage' : Stage} {a : Account}

theorem Progress.stage_eq_some {σ β : Type} {during : σ → Stage} {after : β → Stage}
    {progress : Progress σ β} (h : progress.stage? during after = some (s', stage')) :
    (∃ activity, progress = .continues s' activity ∧ stage' = during activity) ∨
      (∃ result, progress = .returns s' (.ok result) ∧ stage' = after result) ∨
      ∃ stop, progress = .returns s' (.error stop) ∧ stage' = .failed stop := by
  cases progress with
  | blocked => cases h
  | continues session activity =>
    cases h
    exact .inl ⟨activity, rfl, rfl⟩
  | returns session result =>
    cases result with
    | ok result =>
      cases h
      exact .inr (.inl ⟨result, rfl, rfl⟩)
    | error stop =>
      cases h
      exact .inr (.inr ⟨stop, rfl, rfl⟩)

theorem Progress.stage_eq_none {σ β : Type} {during : σ → Stage} {after : β → Stage}
    {progress : Progress σ β} (h : progress.stage? during after = none) : progress = .blocked := by
  cases progress with
  | blocked => rfl
  | continues => cases h
  | returns session result => cases result <;> cases h

theorem Stage.next_runs (run : Run a ⟨s, stage.activity⟩)
    (word : s.config.tracesPerBlock < Word.size) (step : stage.next s = some (s', stage'))
    (sound : ¬stage'.Failed) : ∃ a', Run a' ⟨s', stage'.activity⟩ := by
  cases stage with
  | starting =>
    simp only [next] at step
    split at step
    · next started =>
      cases step
      exact ⟨_, run.coordinate (.start started)⟩
    · cases step
      exact absurd trivial sound
  | started =>
    simp only [next] at step
    split at step
    · next learns =>
      cases step
      exact ⟨_, run.coordinate (.learn word learns)⟩
    · cases step
      exact absurd trivial sound
  | learning l =>
    obtain ⟨l', goes, rfl⟩ | ⟨report, ends, rfl⟩ | ⟨stop, -, rfl⟩ := Progress.stage_eq_some step
    · exact ⟨_, run.coordinate (.learning goes)⟩
    · exact ⟨_, run.coordinate (.learned ends)⟩
    · exact absurd trivial sound
  | learned report =>
    cases step
    split
    · exact ⟨_, (run.coordinate .determinise).coordinate .setDeterministic⟩
    · exact ⟨a, run⟩
  | deciding report =>
    simp only [next] at step
    split at step
    · next checks =>
      cases step
      obtain ⟨procedure, -, checks⟩ := bind_eq_ok.mp checks
      exact ⟨_, run.coordinate (.check checks)⟩
    · cases step
      exact absurd trivial sound
  | checking report c =>
    obtain ⟨c', goes, rfl⟩ | ⟨outcome, ends, rfl⟩ | ⟨stop, -, rfl⟩ := Progress.stage_eq_some step
    · exact ⟨_, run.coordinate (.checking goes)⟩
    · exact ⟨_, run.coordinate (.checked ends)⟩
    · exact absurd trivial sound
  | checked report outcome =>
    cases step
    exact ⟨_, run.coordinate (.close (.inl rfl))⟩
  | stopping report outcome =>
    obtain ⟨⟨⟩, goes, -⟩ | ⟨traces, ends, rfl⟩ | ⟨stop, -, rfl⟩ := Progress.stage_eq_some step
    · unfold Session.join at goes
      split at goes <;> cases goes
    · exact ⟨_, run.coordinate (.join ends)⟩
    · exact absurd trivial sound
  | finished | failed => cases step

end SchedulerLearning

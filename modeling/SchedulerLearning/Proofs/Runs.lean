import SchedulerLearning.Proofs.SessionTurns
import SchedulerLearning.Proofs.Totals
import SchedulerLearning.Proofs.WorkerMoves
import Mathlib.Logic.Relation

/-!
# Runs of a session

A run begins with a session just prepared and goes on by steps of its workers and of its
coordinator, in any order. Beside it an account is kept of what happened since a learning
block or a check began, which no step reads.
-/

namespace SchedulerLearning

-- ---------------------------------------------------------------------------
-- Steps
-- ---------------------------------------------------------------------------

/-- What the coordinator of a session is in the middle of. A session whose call faulted is
broken: nothing is left but to stop it. -/
inductive Activity
  | resting
  | learning (l : Learning)
  | checking (c : Checking)
  | stopping
  | broken

def Activity.afterCall {β : Type} : Except (Stop LearnError) β → Activity
  | .error (.faulted _) => .broken
  | .error (.refused _) | .ok _ => .resting

structure System where
  session : Session
  activity : Activity

/-- A step of the coordinator: a call, a step of one, or the end of one. Calls that are refused
change nothing and are left out. Block sizes are words. -/
inductive Coordinates : System → System → Prop
  | start {s s'} (step : s.start = (s', .ok ())) : Coordinates ⟨s, .resting⟩ ⟨s', .resting⟩
  | learn {s s' l tracesPerBlock blocks} (word : tracesPerBlock < Word.size)
      (step : Learning.start s tracesPerBlock blocks = .ok (s', l)) :
      Coordinates ⟨s, .resting⟩ ⟨s', .learning l⟩
  | learning {s s' l l'} (step : Learning.step s l = .continues s' l') :
      Coordinates ⟨s, .learning l⟩ ⟨s', .learning l'⟩
  | learned {s s' l result} (step : Learning.step s l = .returns s' result) :
      Coordinates ⟨s, .learning l⟩ ⟨s', .afterCall result⟩
  | check {s s' c procedure} (step : Checking.start s procedure = .ok (s', c)) :
      Coordinates ⟨s, .resting⟩ ⟨s', .checking c⟩
  | checking {s s' c c'} (step : Checking.step s c = .continues s' c') :
      Coordinates ⟨s, .checking c⟩ ⟨s', .checking c'⟩
  | checked {s s' c result} (step : Checking.step s c = .returns s' result) :
      Coordinates ⟨s, .checking c⟩ ⟨s', .afterCall result⟩
  | determinise {s} : Coordinates ⟨s, .resting⟩ ⟨s.determinise.1, .resting⟩
  | setDeterministic {s deterministic} :
      Coordinates ⟨s, .resting⟩ ⟨s.setDeterministic deterministic, .resting⟩
  | close {s activity} (free : activity = .resting ∨ activity = .broken) :
      Coordinates ⟨s, activity⟩ ⟨s.close, .stopping⟩
  | join {s s' result} (step : s.join = .returns s' result) :
      Coordinates ⟨s, .stopping⟩ ⟨s', .resting⟩

-- ---------------------------------------------------------------------------
-- The account
-- ---------------------------------------------------------------------------

structure Result where
  trace : Trace
  verdict : Verdict

structure Account where
  /-- The jobs issued. -/
  issued : Nat := 0
  simulated : List Result := []
  /-- The credits made, in their order. -/
  credited : List Credit := []
  /-- The verdicts counted or sent, in their order. -/
  delivered : List Verdict := []

namespace Account

instance : Append Account where
  append a b := ⟨a.issued + b.issued, a.simulated ++ b.simulated, a.credited ++ b.credited,
    a.delivered ++ b.delivered⟩

def simulatedBy : Phase → Phase → List Result
  | .simulating _ _ t, .delivering _ _ _ verdict => [⟨t, verdict⟩]
  | _, _ => []

/-- What a worker has done from one phase to the next. A worker that breaks is not asked. -/
def observed (before : Phase) : Phase → Account
  | .failing _ _ => {}
  | after => {
    simulated := simulatedBy before after
    credited := before.credits.take (before.credits.length - after.credits.length)
    delivered := if after.verdicts = [] then before.verdicts else [] }

def afterWork (a : Account) (place : Nat) (s s' : Session) : Account :=
  match s.workers[place]?, s'.workers[place]? with
  | some w, some w' => a ++ observed w.phase w'.phase
  | _, _ => a

def begins : Activity → Activity → Bool
  | .resting, .learning _ | .resting, .checking _ => true
  | .learning l, .learning l' => l.done != l'.done
  | _, _ => false

def afterCall (a : Account) (before after : System) : Account :=
  if begins before.activity after.activity then {}
  else { a with issued := a.issued +
    (after.session.shared.queue.remaining - before.session.shared.queue.remaining) }

end Account

theorem Account.issued_observed (p q : Phase) : (observed p q).issued = 0 := by
  cases q <;> rfl

theorem Account.issued_afterWork (a : Account) (place : Nat) (s s' : Session) :
    (a.afterWork place s s').issued = a.issued := by
  unfold afterWork
  split
  · show a.issued + (observed _ _).issued = a.issued
    rw [issued_observed, Nat.add_zero]
  · rfl

theorem Account.afterCall_eq_self (a : Account) {before after : System}
    (goes : begins before.activity after.activity = false)
    (least : after.session.shared.queue.remaining ≤ before.session.shared.queue.remaining) :
    a.afterCall before after = a := by
  simp [afterCall, goes, Nat.sub_eq_zero_of_le least]

/-- The systems that a session can come to, each with the account of how. -/
inductive Run : Account → System → Prop
  | prepared {process property config machine s}
      (step : Session.prepare process property config machine = .ok s) : Run {} ⟨s, .resting⟩
  | work {a s s' activity} (place : Nat) (run : Run a ⟨s, activity⟩)
      (step : s.stepWorker place = some s') :
      Run (a.afterWork place s s') ⟨s', activity⟩
  | coordinate {a before after} (run : Run a before) (step : Coordinates before after) :
      Run (a.afterCall before after) after

-- ---------------------------------------------------------------------------
-- From one system of a run to a later one
-- ---------------------------------------------------------------------------

namespace System

inductive Step : System → System → Prop
  | work {s s' activity} (place : Nat) (step : s.stepWorker place = some s') :
      Step ⟨s, activity⟩ ⟨s', activity⟩
  | coordinate {before after} (step : Coordinates before after) : Step before after

abbrev LeadsTo : System → System → Prop := Relation.ReflTransGen Step

end System

theorem Run.step {a : Account} {before after : System} (run : Run a before) (step : before.Step after) :
    ∃ a', Run a' after := by
  cases step with
  | work place step => exact ⟨_, run.work place step⟩
  | coordinate step => exact ⟨_, run.coordinate step⟩

theorem Run.leadsTo {a : Account} {before after : System} (run : Run a before)
    (leads : before.LeadsTo after) : ∃ a', Run a' after := by
  induction leads with
  | refl => exact ⟨a, run⟩
  | tail _ step ih =>
    obtain ⟨a', run'⟩ := ih
    exact run'.step step

-- ---------------------------------------------------------------------------
-- The smallest session
-- ---------------------------------------------------------------------------

/-! A process that stops at once, a property that holds of every trace, and one worker. -/

namespace Smallest

open SchedulerLearning.Random (Generator)

def process : DecisionProcess Float := ⟨.ok (.ofVars []), fun _ => .ok []⟩

def property : Property := ⟨0, fun _ => .ok (.initially true)⟩

def config : Config := { tracesPerBlock := 1, blocks := 1, checkBatch := 1 }

def machine : Machine := ⟨0, 1, Nat.one_pos, 1000000⟩

def session (phase : Phase) (traces : Nat) (queue : JobQueue Batch) (satisfied : UInt64)
    (channel : Option (Channel Report)) : Session where
  machine := machine
  setup := ⟨process, property, .uniform, .ofVars [], 1, 50⟩
  config := config
  shared := ⟨queue, .empty, .empty, satisfied, 0, channel⟩
  workers := [{ Worker.ofSeed (Generator.ofSeed 0).word.1 with phase, traces }]
  overlay := none
  deterministic := false
  seeds := (Generator.ofSeed 0).word.2

theorem started : Run {} ⟨session .requesting 0 (.ofContext .learning) 0 none, .resting⟩ := by
  have prepared : Run {} ⟨{ session .requesting 0 (.ofContext .learning) 0 none with
      workers := [], seeds := .ofSeed 0 }, .resting⟩ :=
    .prepared (show Session.prepare process property config machine = _ from rfl)
  exact prepared.coordinate (.start rfl)

end Smallest

end SchedulerLearning

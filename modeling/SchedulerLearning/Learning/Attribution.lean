import SchedulerLearning.Learning.Rewards
import SchedulerLearning.Model.Trace
import SchedulerLearning.Model.Verdict

/-!
# Attribution of rewards

How the verdict on a trace is spread over the choices made along it. Only the steps that
led to the verdict are credited, and steps in states with a single choice are passed over.
-/

namespace SchedulerLearning

/-- The rewards of the last relevant step and of those on the path to it, by verdict. -/
structure LastAction where
  pathSatisfied : Nat := 1
  lastSatisfied : Nat := 1
  pathFailed : Nat := 1
  lastFailed : Nat := 5
  deriving Repr, DecidableEq

inductive Attribution
  /-- One unit for every step. -/
  | uniform
  | lastAction (rewards : LastAction)
  /-- `start` for the last relevant step, one less for each step further back, at least one. -/
  | decay (start : Nat)
  deriving Repr, DecidableEq

namespace Attribution

def name : Attribution → String
  | .uniform => "uniform"
  | .lastAction _ => "lastaction"
  | .decay _ => "decay"

def ofName? (text : String) : Option Attribution :=
  match text.toLower with
  | "uniform" => some .uniform
  | "lastaction" => some (.lastAction {})
  | "decay" => some (.decay 5)
  | _ => none

/-- The reward of a step `back` steps before the last relevant one. -/
def magnitude (a : Attribution) (back : Nat) (satisfied : Bool) : Nat :=
  match a with
  | .uniform => 1
  | .lastAction r =>
    match satisfied, back with
    | true, 0 => r.lastSatisfied
    | true, _ + 1 => r.pathSatisfied
    | false, 0 => r.lastFailed
    | false, _ + 1 => r.pathFailed
  | .decay start => max 1 (start - back)

/-- The credit of a step `back` steps before the last relevant one, if it had a choice. -/
def credit? (a : Attribution) (satisfied : Bool) (step : Step) (back : Nat) : Option Credit :=
  if step.offered < 2 then none
  else some ⟨step.state, step.offered, step.choice, satisfied, a.magnitude back satisfied⟩

def credits (a : Attribution) (steps : List Step) (verdict : Verdict) : List Credit :=
  let backwards := (steps.take verdict.relevant).reverse.zipIdx
  (backwards.filterMap fun (step, back) => a.credit? verdict.satisfied step back).reverse

end Attribution

end SchedulerLearning

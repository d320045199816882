import SchedulerLearning.Model.Error
import SchedulerLearning.Model.Trace
import SchedulerLearning.Model.Verdict

/-!
# Bounded properties

Reachability asks for a state within the bound that satisfies a predicate, safety asks that
all of them do. A predicate is a caller's code and may break.
-/

namespace SchedulerLearning

structure Property where
  /-- How many transitions a trace needs for its verdict to be final. -/
  required : Nat
  evaluate : Trace → Except (Stop (ModelError Float)) Verdict

abbrev StatePredicate := State → Except Fault Bool

/-- The position of the first state with which the predicate agrees, counted from `position`. -/
def firstWhere? (p : StatePredicate) (position : Nat) : List State → Except Fault (Option Nat)
  | [] => .ok none
  | s :: rest => do
    if ← p s then return some position
    firstWhere? p (position + 1) rest

inductive Mode
  | reachability
  | safety
  deriving Repr, DecidableEq

def Mode.name : Mode → String
  | .reachability => "BoundedReachability"
  | .safety => "BoundedSafety"

structure BoundedProperty where
  mode : Mode
  bound : Nat
  predicate : StatePredicate

namespace BoundedProperty

/-- The predicate of the states that decide at once: reaching a goal, or leaving the safe
states. -/
def decisive (p : BoundedProperty) : StatePredicate :=
  match p.mode with
  | .reachability => p.predicate
  | .safety => fun s => (p.predicate s).map not

def onDecisive (p : BoundedProperty) : Bool :=
  match p.mode with
  | .reachability => true
  | .safety => false

/-- Decided by the first decisive state within the bound, or by the last state within it. -/
def evaluate (p : BoundedProperty) (t : Trace) : Except Fault Verdict := do
  let horizon := min p.bound t.length
  match ← firstWhere? p.decisive 0 (t.states.take (horizon + 1)) with
  | some position => return .atPosition p.onDecisive position
  | none => return .atPosition (!p.onDecisive) horizon

def property (p : BoundedProperty) : Property where
  required := p.bound
  evaluate t := p.evaluate t

def summary (p : BoundedProperty) : String :=
  p.mode.name ++ " \x7b bound: " ++ toString p.bound ++ ", .. \x7d"

end BoundedProperty

end SchedulerLearning

import SchedulerLearning.Decimal.Layout
import SchedulerLearning.Model.State

/-!
# What can be wrong with a model

Causes of a refused simulation, and their texts.
-/

namespace SchedulerLearning

inductive Defect
  | choiceAtUnknownState (source : Nat)
  | initialOutOfRange (initial states : Nat)
  | unknownSuccessor (source target : Nat)
  | emptyWalk (vars : Nat) (max : Int)
  deriving Repr, DecidableEq

def Defect.message : Defect → String
  | .choiceAtUnknownState source => s!"choice added to unknown state {source}"
  | .initialOutOfRange initial states =>
    s!"initial state {initial} out of range for {states} states"
  | .unknownSuccessor source target => s!"transition from {source} to unknown state {target}"
  | .emptyWalk vars max =>
    s!"random walk needs at least one variable and max >= 1 (got {vars} vars, max {max})"

/-- Failures behind a model's back. -/
inductive Breakdown
  | noBranches (choice : Nat)
  /-- A worker of the pool met a fault. -/
  | workerFault (fault : Fault)
  | other (text : String)
  deriving Repr, DecidableEq

def Breakdown.message : Breakdown → String
  | .noBranches choice => s!"choice {choice} has no branches"
  | .workerFault fault => s!"worker panicked: {fault.message}"
  | .other text => text

inductive ModelError (α : Type)
  /-- A resolver's answer is no index of a choice. -/
  | invalidChoice (choice available : Nat)
  | invalidDistribution (state : State) (sum : α)
  | unknownState (state : State)
  | invalidModel (defect : Defect)
  | internal (cause : Breakdown)
  deriving Repr

def ModelError.message : ModelError Float → String
  | .invalidChoice choice available =>
    s!"choice {choice} out of range: state has {available} choices"
  | .invalidDistribution state sum =>
    s!"probabilities of a choice at {state.text} sum to {Decimal.plain sum}, expected 1"
  | .unknownState state => s!"state {state.text} is not part of the model"
  | .invalidModel defect => s!"invalid model: {defect.message}"
  | .internal cause => s!"internal error: {cause.message}"

end SchedulerLearning

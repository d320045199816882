import SchedulerLearning.Model.DecisionProcess
import SchedulerLearning.Room

/-!
# Models by enumeration

States are numbered from zero, and every choice of every state is listed. A draft collects
choices in any order; only a draft without defects becomes a model.
-/

namespace SchedulerLearning

/-- A model whose state `i` is encoded by one variable with the value `i`. -/
structure ExplicitModel (α : Type) where
  initial : Nat
  choices : Array (List (Distribution α))

namespace ExplicitModel

variable {α : Type} [Scalar α]

/-- A model in the making. The first defect met is kept. -/
structure Draft (α : Type) where
  initial : Nat
  choices : Array (List (List (α × Nat)))
  defect : Option Defect

namespace Draft

def ofStates (states : Nat) : Except Fault (Draft α) := do
  Room.claim 24 states
  return ⟨0, Array.replicate states [], none⟩

def startingAt (d : Draft α) (initial : Nat) : Draft α := { d with initial }

def offer (d : Draft α) (source : Nat) (branches : List (α × Nat)) : Draft α :=
  if source < d.choices.size then
    { d with choices := d.choices.modify source (· ++ [branches]) }
  else
    { d with defect := d.defect <|> some (.choiceAtUnknownState source) }

def branches (states source : Nat) : List (α × Nat) → Except (ModelError α) (Distribution α)
  | [] => .ok []
  | (p, target) :: rest => do
    if states ≤ target then throw (.invalidModel (.unknownSuccessor source target))
    let others ← branches states source rest
    return (p, .ofIndex target) :: others

def choice (states source : Nat) (bs : List (α × Nat)) : Except (ModelError α) (Distribution α) := do
  let d ← branches states source bs
  d.check (.ofIndex source)
  return d

def build (d : Draft α) : Except (ModelError α) (ExplicitModel α) := do
  if let some defect := d.defect then throw (.invalidModel defect)
  let states := d.choices.size
  if states ≤ d.initial then throw (.invalidModel (.initialOutOfRange d.initial states))
  let choices ← d.choices.mapIdxM fun source offered => offered.mapM (choice states source)
  return ⟨d.initial, choices⟩

end Draft

def states (m : ExplicitModel α) : Nat := m.choices.size

def index (m : ExplicitModel α) (s : State) : Except (ModelError α) Nat :=
  match s.vars with
  | [i] => if 0 ≤ i ∧ i.toNat < m.states then .ok i.toNat else .error (.unknownState s)
  | _ => .error (.unknownState s)

def process (m : ExplicitModel α) : DecisionProcess α where
  initial := .ok (.ofIndex m.initial)
  offers s := do
    let i ← (m.index s).mapError .refused
    return m.choices.getD i []

end ExplicitModel

end SchedulerLearning

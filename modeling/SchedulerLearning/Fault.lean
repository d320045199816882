/-!
# Faults

A fault is a broken internal assumption: an index outside its array, a counter beyond 64
bits. It ends the operation where it stands, which is something else than a refusal with a
reason of the domain.
-/

namespace SchedulerLearning

/-- The integer operations whose result may leave its 64 bits. -/
inductive Arithmetic
  | add
  | subtract
  | multiply
  deriving DecidableEq, Repr

def Arithmetic.name : Arithmetic → String
  | .add => "add"
  | .subtract => "subtract"
  | .multiply => "multiply"

inductive Fault
  | outOfBounds (size index : Nat)
  | overflow (operation : Arithmetic)
  /-- A container was asked for more room than can be addressed. -/
  | capacity
  | assertion (text : String)
  /-- Raised by a caller's own code, such as a state predicate. -/
  | raised (text : String)
  deriving DecidableEq, Repr

def Fault.message : Fault → String
  | .outOfBounds size index =>
    s!"index out of bounds: the len is {size} but the index is {index}"
  | .overflow operation => s!"attempt to {operation.name} with overflow"
  | .capacity => "capacity overflow"
  | .assertion text => text
  | .raised text => text

inductive Stop (ε : Type)
  | refused (reason : ε)
  | faulted (fault : Fault)
  deriving DecidableEq, Repr

def Stop.map {ε δ : Type} (f : ε → δ) : Stop ε → Stop δ
  | .refused reason => .refused (f reason)
  | .faulted fault => .faulted fault

instance {ε : Type} : MonadLift (Except Fault) (Except (Stop ε)) where
  monadLift x := x.mapError .faulted

end SchedulerLearning

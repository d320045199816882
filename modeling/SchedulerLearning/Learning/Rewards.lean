import SchedulerLearning.Model.State
import SchedulerLearning.Room
import SchedulerLearning.Scalar
import SchedulerLearning.Word
import Std.Data.HashMap

/-!
# Rewards of a learning block

For every state and choice, how much reward came from satisfying and from failing traces.
Workers add to the same counters, which wrap at 64 bits; what is computed from them is exact
or a fault. Workers credit steps whose choices were offered as a list, so there is room for
their counters; a mere number of choices is checked.
-/

namespace SchedulerLearning

structure Tally where
  satisfied : UInt64 := 0
  failed : UInt64 := 0
  deriving Repr, DecidableEq, Inhabited

structure Credit where
  state : State
  /-- How many choices the state offers. -/
  offered : Nat
  choice : Nat
  satisfied : Bool
  amount : Nat
  deriving Repr

namespace Tally

def add (t : Tally) (satisfied : Bool) (amount : Nat) : Tally :=
  if satisfied then { t with satisfied := t.satisfied + amount.toUInt64 }
  else { t with failed := t.failed + amount.toUInt64 }

def total (t : Tally) : Nat := t.satisfied.toNat + t.failed.toNat

def trials (t : Tally) : Except Fault Nat := Word.add t.satisfied.toNat t.failed.toNat

/-- The satisfying share, `none` if the choice was never credited. -/
def rate? {α : Type} [Scalar α] (t : Tally) : Option α :=
  if t.total = 0 then none else some ((t.satisfied.toNat : α) / (t.total : α))

/-- The difference of the counters read as signed words. -/
def score (t : Tally) : Except Fault Int :=
  Word.subSigned (Word.signed t.satisfied) (Word.signed t.failed)

end Tally

abbrev Tallies := List Tally

namespace Tallies

def ofCount (count : Nat) : Tallies := List.replicate count {}

def claim (count : Nat) : Except Fault Unit := Room.claim 16 count

def ofCountWithRoom (count : Nat) : Except Fault Tallies := do
  claim count
  return ofCount count

def add (ts : Tallies) (choice : Nat) (satisfied : Bool) (amount : Nat) : Except Fault Tallies :=
  if choice < ts.length then .ok (ts.modify choice (·.add satisfied amount))
  else .error (.outOfBounds ts.length choice)

def trials (ts : Tallies) : Except Fault Nat := do Word.sum (← ts.mapM Tally.trials)

end Tallies

structure Rewards where
  states : Std.HashMap State Tallies

namespace Rewards

def empty : Rewards := ⟨∅⟩

/-- No rewards, with room for those of `room` states out of the `most` that a map can be given. -/
def withRoom (most room : Nat) : Except Fault Rewards :=
  if most < room then .error .capacity else .ok empty

def size (r : Rewards) : Nat := r.states.size

def contains (r : Rewards) (s : State) : Bool := r.states.contains s

def enter (r : Rewards) (s : State) (count : Nat) : Rewards × Bool :=
  if r.contains s then (r, false) else (⟨r.states.insert s (.ofCount count)⟩, true)

def initialise (r : Rewards) (s : State) (count : Nat) : Rewards × Except Fault Bool :=
  if r.contains s then (r, .ok false)
  else
    match Tallies.claim count with
    | .error fault => (r, .error fault)
    | .ok () => (r.enter s count).map id .ok

/-- Adds to the counters of a state, which start at zero if it is unknown. A choice out of
range is a fault, but the state is known from then on. -/
def credit (r : Rewards) (c : Credit) : Rewards × Except Fault Unit :=
  let known := (r.states[c.state]?).getD (.ofCount c.offered)
  match known.add c.choice c.satisfied c.amount with
  | .ok tallies => (⟨r.states.insert c.state tallies⟩, .ok ())
  | .error fault => (⟨r.states.insert c.state known⟩, .error fault)

def creditWithRoom (r : Rewards) (c : Credit) : Rewards × Except Fault Unit :=
  if r.contains c.state then r.credit c
  else
    match Tallies.claim c.offered with
    | .error fault => (r, .error fault)
    | .ok () => r.credit c

/-- Makes additions one after the other, up to the first fault. -/
@[specialize] def addAll (add : Rewards → Credit → Rewards × Except Fault Unit) (r : Rewards) :
    List Credit → Rewards × Except Fault Unit
  | [] => (r, .ok ())
  | c :: rest =>
    match add r c with
    | (r, .ok ()) => addAll add r rest
    | (r, .error fault) => (r, .error fault)

def creditAll (r : Rewards) (cs : List Credit) : Rewards × Except Fault Unit := addAll credit r cs

def creditAllWithRoom (r : Rewards) (cs : List Credit) : Rewards × Except Fault Unit :=
  addAll creditWithRoom r cs

def counts? (r : Rewards) (s : State) (choice : Nat) : Option Tally :=
  r.states[s]?.bind (·[choice]?)

end Rewards

end SchedulerLearning

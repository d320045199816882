import SchedulerLearning.Learning.Mixture
import SchedulerLearning.Model.State
import Std.Data.HashMap

/-!
# Learned schedulers

A scheduler keeps a mixture for every state in which a choice was ever resolved. Workers
share it, so a state's first mixture comes about in two steps: a test whether the state is
known, and an entry that leaves a known state alone. What a state offers is a list that
exists, so there is room for its mixture; a mere number of choices is checked. An overlay
fixes the most likely choice of every state known when it was made.
-/

namespace SchedulerLearning

structure Scheduler (α : Type) where
  states : Std.HashMap State (Mixture α)

structure Overlay where
  choices : Std.HashMap State Nat

variable {α : Type} [Scalar α]

namespace Scheduler

def empty : Scheduler α := ⟨∅⟩

def withRoom (most room : Nat) : Except Fault (Scheduler α) :=
  if most < room then .error .capacity else .ok empty

def size (p : Scheduler α) : Nat := p.states.size

def contains (p : Scheduler α) (s : State) : Bool := p.states.contains s

def get? (p : Scheduler α) (s : State) : Option (Mixture α) := p.states[s]?

@[specialize] def enter (p : Scheduler α) (s : State) (count : Nat) : Scheduler α × Bool :=
  if p.contains s then (p, false) else (⟨p.states.insert s (.uniform count)⟩, true)

@[specialize] def initialise (p : Scheduler α) (s : State) (count : Nat) : Scheduler α × Except Fault Bool :=
  if p.contains s then (p, .ok false)
  else
    match Mixture.claim count with
    | .error fault => (p, .error fault)
    | .ok () => (p.enter s count).map id .ok

def probability? (p : Scheduler α) (s : State) (choice : Nat) : Option α :=
  (p.get? s).bind (·.probability? choice)

@[specialize] def sample? (p : Scheduler α) (s : State) (x : α) : Option Nat := (p.get? s).map (·.sample x)

/-- The choice that `x` selects; the first one in an unknown state. -/
@[specialize] def sample (p : Scheduler α) (s : State) (x : α) : Nat := (p.sample? s x).getD 0

@[specialize] def determinise (p : Scheduler α) : Overlay := ⟨p.states.map fun _ m => m.mostLikely⟩

end Scheduler

namespace Overlay

def size (o : Overlay) : Nat := o.choices.size

def choice? (o : Overlay) (s : State) : Option Nat := o.choices[s]?

end Overlay

namespace Scheduler

/-- The choice among `count` in `s` that `x` selects: the overlay's where it covers the state, else
by the scheduler, to which the state becomes known if there is room for its mixture. -/
def choose (p : Scheduler α) (overlay : Option Overlay) (s : State) (count : Nat) (x : α) :
    Scheduler α × Except Fault Nat :=
  match overlay.bind (·.choice? s) with
  | some choice => (p, .ok choice)
  | none =>
    match p.initialise s count with
    | (p, .ok _) => (p, .ok (p.sample s x))
    | (p, .error fault) => (p, .error fault)

/-- The choice that `x` selects among `count` that are offered as a list. -/
def resolve (p : Scheduler α) (overlay : Option Overlay) (s : State) (count : Nat) (x : α) :
    Nat × Scheduler α :=
  match overlay.bind (·.choice? s) with
  | some choice => (choice, p)
  | none =>
    let p := (p.enter s count).1
    (p.sample s x, p)

end Scheduler

end SchedulerLearning

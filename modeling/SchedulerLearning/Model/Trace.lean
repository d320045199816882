import SchedulerLearning.Model.State
import SchedulerLearning.Room

/-!
# Traces

A finite path through a model: the steps taken, each with the state it left, and the state
the path ended in. Positions count states, so position zero is the initial state.
-/

namespace SchedulerLearning

/-- A transition: the state it left, the choice taken there, and how many were offered. -/
structure Step where
  state : State
  choice : Nat
  offered : Nat
  deriving Repr, BEq

structure Trace where
  steps : Array Step
  last : State
  deriving Repr

namespace Trace

def start (initial : State) : Trace := ⟨#[], initial⟩

def withRoom (initial : State) (room : Nat) : Except Fault Trace := do
  Room.claim 32 room
  return start initial

def push (t : Trace) (choice offered : Nat) (next : State) : Trace :=
  ⟨t.steps.push ⟨t.last, choice, offered⟩, next⟩

def length (t : Trace) : Nat := t.steps.size

def states (t : Trace) : List State := t.steps.toList.map Step.state ++ [t.last]

def state? (t : Trace) (position : Nat) : Option State :=
  if h : position < t.steps.size then some (t.steps[position]).state
  else if position = t.steps.size then some t.last
  else none

@[simp] theorem length_start (s : State) : (start s).length = 0 := rfl

@[simp] theorem length_push (t : Trace) (choice offered : Nat) (next : State) :
    (t.push choice offered next).length = t.length + 1 := by
  simp [length, push]

@[simp] theorem states_start (s : State) : (start s).states = [s] := rfl

@[simp] theorem states_push (t : Trace) (choice offered : Nat) (next : State) :
    (t.push choice offered next).states = t.states ++ [next] := by
  simp [states, push]

theorem length_states (t : Trace) : t.states.length = t.length + 1 := by
  simp [states, length]

theorem getElem?_states (t : Trace) (i : Nat) : t.states[i]? = t.state? i := by
  unfold states state?
  split
  · next inside => simp [List.getElem?_append, inside]
  · next outside =>
    rw [List.getElem?_append_right (by simpa using outside), List.getElem?_singleton]
    simp only [List.length_map, Array.length_toList]
    congr 1
    simp only [eq_iff_iff]
    omega

theorem state?_push_of_le {t : Trace} {i : Nat} (choice offered : Nat) (next : State)
    (inside : i ≤ t.length) : (t.push choice offered next).state? i = t.state? i := by
  rw [← getElem?_states, ← getElem?_states, states_push,
    List.getElem?_append_left (by rw [length_states]; omega)]

@[simp] theorem state?_length (t : Trace) : t.state? t.length = some t.last := by
  simp [state?, length]

end Trace

end SchedulerLearning

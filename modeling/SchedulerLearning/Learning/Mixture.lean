import SchedulerLearning.Room
import SchedulerLearning.Scalar

/-!
# Mixtures of choices

A probability for every choice of one state. A choice is sampled by the inverse of the
cumulative probabilities, or the most likely one is taken.
-/

namespace SchedulerLearning

variable {α : Type} [Scalar α]

namespace Scalar

/-- The lowest index of a maximum, given the one among the values before `index`. -/
@[specialize] def argmaxFrom (best : Nat) (value : α) (index : Nat) : List α → Nat
  | [] => best
  | v :: rest =>
    if value < v then argmaxFrom index v (index + 1) rest
    else argmaxFrom best value (index + 1) rest

/-- The lowest index of a maximum; zero of an empty list. -/
@[specialize] def argmax : List α → Nat
  | [] => 0
  | v :: rest => argmaxFrom 0 v 1 rest

/-- What holds of a value and the list up to its place holds of a maximum of a longer list, if it is
handed on to a greater value and kept from any other. -/
theorem argmaxFrom_induction {P : List α → Nat → α → Prop}
    (overtaken : ∀ xs best value v, P xs best value → value < v → P (xs ++ [v]) xs.length v)
    (kept : ∀ xs best value v, P xs best value → ¬value < v → P (xs ++ [v]) best value)
    {xs : List α} {best : Nat} {value : α} (h : P xs best value) (rest : List α) :
    ∃ v, P (xs ++ rest) (argmaxFrom best value xs.length rest) v := by
  induction rest generalizing xs best value with
  | nil => exact ⟨value, by rwa [List.append_nil]⟩
  | cons v rest ih =>
    have one : xs ++ v :: rest = (xs ++ [v]) ++ rest := by simp
    have next : xs.length + 1 = (xs ++ [v]).length := by simp
    rw [one, argmaxFrom, next]
    split
    · next more => exact ih (overtaken _ _ _ _ h more)
    · next less => exact ih (kept _ _ _ _ h less)

end Scalar

structure Mixture (α : Type) where
  probabilities : List α
  deriving Repr

namespace Mixture

@[specialize] def uniform (count : Nat) : Mixture α := ⟨List.replicate count (1 / (count : α))⟩

def claim (count : Nat) : Except Fault Unit := Room.claim 8 count

@[specialize] def uniformWithRoom (count : Nat) : Except Fault (Mixture α) := do
  claim count
  return uniform count

def size (m : Mixture α) : Nat := m.probabilities.length

def probability? (m : Mixture α) (choice : Nat) : Option α := m.probabilities[choice]?

def replace (m : Mixture α) (probabilities : List α) : Except Fault (Mixture α) :=
  if probabilities.length = m.size then .ok ⟨probabilities⟩
  else .error (.assertion "policy update changed the number of choices")

/-- The first index at which the cumulative probability, `reached` before `index`, exceeds `x`. -/
@[specialize] def sampleFrom (x reached : α) (index : Nat) : List α → Option Nat
  | [] => none
  | p :: rest => if x < reached + p then some index else sampleFrom x (reached + p) (index + 1) rest

/-- The choice that `x` in `[0, 1)` selects: the last one if rounding leaves the total at or
below `x`. -/
@[specialize] def sample (m : Mixture α) (x : α) : Nat :=
  (sampleFrom x 0 0 m.probabilities).getD (m.size - 1)

/-- The most likely choice, the lowest index of equally likely ones. -/
@[specialize] def mostLikely (m : Mixture α) : Nat := Scalar.argmax m.probabilities

end Mixture

end SchedulerLearning

import SchedulerLearning.Model.Distribution
import SchedulerLearning.Model.Trace
import SchedulerLearning.Random.Generator

/-!
# Decision processes and their simulation

A decision process offers choices in each state, and each choice leads on by chance. A
simulation resolves the choices by a given strategy and draws the branches from a source of
random numbers, until a bound on the steps or a state without choices ends it.
-/

namespace SchedulerLearning

open SchedulerLearning.Random (Source)

structure DecisionProcess (α : Type) where
  /-- Where it starts. -/
  initial : Except Fault State
  /-- The choices in a state, in order. A state without any is a deadlock. -/
  offers : State → Except (Stop (ModelError α)) (List (Distribution α))

/-- A strategy with a state of its own: the index of the choice to take in a state, asked
only where there are at least two. -/
abbrev Resolver (κ : Type) := State → Nat → κ → Except Fault Nat × κ

namespace DecisionProcess

variable {α ρ κ : Type} [Scalar α]

inductive Turn (α : Type)
  | deadlock
  | only (branches : Distribution α)
  | among (offers : List (Distribution α))

@[specialize] def turn (m : DecisionProcess α) (t : Trace) : Except (Stop (ModelError α)) (Turn α) := do
  match ← m.offers t.last with
  | [] => return .deadlock
  | [branches] => return .only branches
  | offers => return .among offers

@[specialize] def follow (source : Source ρ α) (branches : Distribution α) (choice offered : Nat)
    (t : Trace) (r : ρ) : Except (Stop (ModelError α)) Trace × ρ :=
  let (x, r) := source.unit r
  match branches.pick? x with
  | some next => (.ok (t.push choice offered next), r)
  | none => (.error (.refused (.internal (.noBranches choice))), r)

@[specialize] def chosen (offers : List (Distribution α)) (choice : Nat) :
    Except (Stop (ModelError α)) (Distribution α) :=
  match offers[choice]? with
  | some branches => .ok branches
  | none => .error (.refused (.invalidChoice choice offers.length))

/-- Continues a trace by at most `left` steps. The source and the resolver are handed back
also when the simulation stops. -/
@[specialize] def continueFrom (m : DecisionProcess α) (source : Source ρ α) (resolve : Resolver κ) :
    (left : Nat) → Trace → ρ → κ → Except (Stop (ModelError α)) Trace × ρ × κ
  | 0, t, r, k => (.ok t, r, k)
  | left + 1, t, r, k =>
    match m.turn t with
    | .error e => (.error e, r, k)
    | .ok .deadlock => (.ok t, r, k)
    | .ok (.only branches) =>
      match follow source branches 0 1 t r with
      | (.error e, r) => (.error e, r, k)
      | (.ok t, r) => continueFrom m source resolve left t r k
    | .ok (.among offers) =>
      match resolve t.last offers.length k with
      | (.error fault, k) => (.error (.faulted fault), r, k)
      | (.ok choice, k) =>
        match chosen offers choice with
        | .error e => (.error e, r, k)
        | .ok branches =>
          match follow source branches choice offers.length t r with
          | (.error e, r) => (.error e, r, k)
          | (.ok t, r) => continueFrom m source resolve left t r k

@[specialize] def simulate (m : DecisionProcess α) (source : Source ρ α) (resolve : Resolver κ)
    (initial : State) (bound : Nat) (r : ρ) (k : κ) :
    Except (Stop (ModelError α)) Trace × ρ × κ :=
  match Trace.withRoom initial bound with
  | .error fault => (.error (.faulted fault), r, k)
  | .ok t => m.continueFrom source resolve bound t r k

end DecisionProcess

end SchedulerLearning

import SchedulerLearning.Model.DecisionProcess
import SchedulerLearning.Room

/-!
# Mutual exclusion

Processes compete for a critical section. An idle process stays idle with probability
`0.8 + e` and starts trying otherwise; a trying process enters the section if nobody is in
it; a critical process stays with probability `0.5 + d` and leaves otherwise. Every enabled
process is one choice.
-/

namespace SchedulerLearning

open SchedulerLearning.Random (Source)

/-- The pair `(e, d)` of each process. -/
structure Mutex (α : Type) where
  perturbations : List (α × α)

namespace Mutex

variable {α ρ : Type} [Scalar α]

abbrev idle : Int := 0
abbrev trying : Int := 1
abbrev critical : Int := 2

@[specialize] def idleStays : α := 0.8

@[specialize] def idleTries : α := 0.2

/-- The chance to stay in the critical section, and to leave it. -/
@[specialize] def criticalStays : α := 0.5

/-- Draws the pairs of `processes` processes, each number below one hundredth. -/
@[specialize] def draw (source : Source ρ α) : Nat → ρ → List (α × α) × ρ
  | 0, r => ([], r)
  | processes + 1, r =>
    let (e, r) := source.unit r
    let (d, r) := source.unit r
    let (rest, r) := draw source processes r
    ((e / 100, d / 100) :: rest, r)

def ofSource (source : Source ρ α) (processes : Nat) (r : ρ) : Except Fault (Mutex α) := do
  Room.claim 16 processes
  return ⟨(draw source processes r).1⟩

def processes (m : Mutex α) : Nat := m.perturbations.length

def allIdle (m : Mutex α) : State := .ofVars (List.replicate m.processes idle)

def criticalCount (s : State) : Nat := s.vars.countP (· = critical)

@[specialize] def offer? (s : State) (i : Nat) (e d : α) : Except (Stop (ModelError α)) (Option (Distribution α)) := do
  let x ← s.get i
  let branches : Option (Distribution α) ←
    if x = idle then
      pure (some [(idleStays + e, s), (idleTries - e, ← s.set i trying)])
    else if x = trying then
      if criticalCount s = 0 then pure (some [(1, ← s.set i critical)]) else pure none
    else
      pure (some [(criticalStays + d, s), (criticalStays - d, ← s.set i idle)])
  match branches with
  | none => return none
  | some branches =>
    (branches.check s).mapError .refused
    return some branches

@[specialize] def offersFrom (s : State) (i : Nat) : List (α × α) → Except (Stop (ModelError α)) (List (Distribution α))
  | [] => .ok []
  | (e, d) :: rest => do
    let first ← offer? s i e d
    let others ← offersFrom s (i + 1) rest
    return first.toList ++ others

@[specialize] def process (m : Mutex α) : DecisionProcess α where
  initial := .ok m.allIdle
  offers s := offersFrom s 0 m.perturbations

end Mutex

end SchedulerLearning

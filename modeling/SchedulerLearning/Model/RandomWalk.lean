import SchedulerLearning.Model.DecisionProcess
import SchedulerLearning.Room
import SchedulerLearning.Word

/-!
# Bounded random walks

Variables between zero and a maximum, each of them a choice that moves it by one and
reflects at the ends, and random guarded jumps, each one more choice that assigns one of two
variables.
-/

namespace SchedulerLearning

open SchedulerLearning.Random (Source)

structure Assignment where
  var : Nat
  value : Int
  deriving Repr, DecidableEq

/-- With probability `p` the first assignment, else the second. Which two are meant depends
on whether the guard variable is above the bound. -/
structure Jump (α : Type) where
  guardVar : Nat
  bound : Int
  p : α
  above : Assignment × Assignment
  below : Assignment × Assignment
  deriving Repr

structure RandomWalk (α : Type) where
  vars : Nat
  max : Int
  jumps : List (Jump α)
  deriving Repr

namespace RandomWalk

variable {α ρ : Type} [Scalar α]

@[specialize] def drawValue (source : Source ρ α) (max : Int) (r : ρ) : Int × ρ :=
  let (offset, r) := source.upTo (max - 1).toNat r
  (1 + (offset : Int), r)

@[specialize] def drawAssignment (source : Source ρ α) (vars : Nat) (max : Int) (r : ρ) : Assignment × ρ :=
  let (var, r) := source.upTo (vars - 1) r
  let (value, r) := drawValue source max r
  (⟨var, value⟩, r)

@[specialize] def drawJump (source : Source ρ α) (vars : Nat) (max : Int) (r : ρ) : Jump α × ρ :=
  let (guardVar, r) := source.upTo (vars - 1) r
  let (bound, r) := drawValue source max r
  let (p, r) := source.unit r
  let (above₁, r) := drawAssignment source vars max r
  let (above₂, r) := drawAssignment source vars max r
  let (below₁, r) := drawAssignment source vars max r
  let (below₂, r) := drawAssignment source vars max r
  (⟨guardVar, bound, p, (above₁, above₂), (below₁, below₂)⟩, r)

@[specialize] def drawJumps (source : Source ρ α) (vars : Nat) (max : Int) : Nat → ρ → List (Jump α) × ρ
  | 0, r => ([], r)
  | count + 1, r =>
    let (jump, r) := drawJump source vars max r
    let (rest, r) := drawJumps source vars max count r
    (jump :: rest, r)

def ofSource (source : Source ρ α) (vars : Nat) (max : Int) (jumps : Nat) (r : ρ) :
    Except (Stop (ModelError α)) (RandomWalk α) := do
  if vars = 0 ∨ max < 1 then throw (.refused (.invalidModel (.emptyWalk vars max)))
  Room.claim 88 jumps
  return ⟨vars, max, (drawJumps source vars max jumps r).1⟩

def origin (w : RandomWalk α) : State := .ofVars (List.replicate w.vars 0)

@[specialize] def move (max : Int) (s : State) (j : Nat) : Except (Stop (ModelError α)) (Distribution α) := do
  let x ← s.get j
  if x ≤ 0 then
    return [(1, ← s.set j (← Word.addSigned x 1))]
  else if max ≤ x then
    return [(1, ← s.set j (← Word.subSigned x 1))]
  else
    return [(0.5, ← s.set j (← Word.addSigned x 1)), (0.5, ← s.set j (← Word.subSigned x 1))]

/-- The moves of `count` variables from `j` on; the first one that the state lacks is a fault. -/
@[specialize] def movesFrom (max : Int) (s : State) (j : Nat) :
    (count : Nat) → Except (Stop (ModelError α)) (List (Distribution α))
  | 0 => .ok []
  | count + 1 => do
    let first ← move max s j
    let others ← movesFrom max s (j + 1) count
    return first :: others

@[specialize] def leap (s : State) (jump : Jump α) : Except (Stop (ModelError α)) (Distribution α) := do
  let guarded ← s.get jump.guardVar
  let (first, second) := if jump.bound < guarded then jump.above else jump.below
  let branches : Distribution α :=
    [(jump.p, ← s.set first.var first.value), (1 - jump.p, ← s.set second.var second.value)]
  (branches.check s).mapError .refused
  return branches

/-- The moves of the variables first, then the jumps. -/
@[specialize] def process (w : RandomWalk α) : DecisionProcess α where
  initial := do
    Room.claim 8 w.vars
    return w.origin
  offers s := do
    let moves ← movesFrom w.max s 0 w.vars
    let leaps ← w.jumps.mapM (leap s)
    return moves ++ leaps

end RandomWalk

end SchedulerLearning

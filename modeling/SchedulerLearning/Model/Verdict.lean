import SchedulerLearning.Word

/-!
# Verdicts

The outcome of checking a trace, together with how much of the trace led to it. Steps after
the deciding one played no part, and are not rewarded.
-/

namespace SchedulerLearning

structure Verdict where
  satisfied : Bool
  /-- The number of leading steps that contributed. -/
  relevant : Nat
  deriving Repr, DecidableEq

namespace Verdict

def atStep (satisfied : Bool) (index : Nat) : Except Fault Verdict :=
  (Word.add index 1).map (⟨satisfied, ·⟩)

def initially (satisfied : Bool) : Verdict := ⟨satisfied, 0⟩

def atPosition (satisfied : Bool) (position : Nat) : Verdict := ⟨satisfied, position⟩

/-- The index of the deciding step, `none` if the initial state decided. -/
def decidedAt? (v : Verdict) : Option Nat := if v.relevant = 0 then none else some (v.relevant - 1)

end Verdict

end SchedulerLearning

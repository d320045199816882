import SchedulerLearning.Fault

/-!
# Integers of 64 bits

Sizes and counters are natural numbers below `2 ^ 64`, scores are integers in the signed
range. Arithmetic is exact, and a result outside the range is a fault; only the shared
reward counters wrap (`UInt64`).
-/

namespace SchedulerLearning.Word

abbrev size : Nat := 0x10000000000000000

def add (a b : Nat) : Except Fault Nat :=
  if a + b < size then .ok (a + b) else .error (.overflow .add)

def mul (a b : Nat) : Except Fault Nat :=
  if a * b < size then .ok (a * b) else .error (.overflow .multiply)

def sub (a b : Nat) : Except Fault Nat :=
  if b ≤ a then .ok (a - b) else .error (.overflow .subtract)

def InRange (i : Int) : Prop := -0x8000000000000000 ≤ i ∧ i < 0x8000000000000000

instance (i : Int) : Decidable (InRange i) := by unfold InRange; infer_instance

/-- The signed value of a word: its remainder modulo `2 ^ 64` nearest to zero. -/
def signed (w : UInt64) : Int := Int.bmod w.toNat size

def addSigned (a b : Int) : Except Fault Int :=
  if InRange (a + b) then .ok (a + b) else .error (.overflow .add)

def subSigned (a b : Int) : Except Fault Int :=
  if InRange (a - b) then .ok (a - b) else .error (.overflow .subtract)

/-- A sum from the left, each partial sum within a word. -/
def sum (xs : List Nat) : Except Fault Nat := xs.foldlM add 0

def sumSigned (xs : List Int) : Except Fault Int := xs.foldlM addSigned 0

end SchedulerLearning.Word

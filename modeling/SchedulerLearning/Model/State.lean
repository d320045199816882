import SchedulerLearning.Fault

/-!
# States

A state is a valuation of integer variables with a cached fingerprint, which is what the
learned tables hash on. Assigning a variable updates the fingerprint without reading the
other variables.
-/

namespace SchedulerLearning

structure State where
  vars : List Int
  fingerprint : UInt64
  deriving Repr

namespace State

/-- The share of variable `index` with the value `value` in a fingerprint. -/
@[inline] def variablePrint (index : Nat) (value : Int) : UInt64 :=
  let h := (index.toUInt64 ^^^ 0x2d358dccaa6c78a5) * 0x9e3779b97f4a7c15
  let h := (h ^^^ value.toInt64.toUInt64) * 0x517cc1b727220a95
  h ^^^ (h >>> 32)

def printFrom (index : Nat) : List Int → UInt64
  | [] => 0
  | value :: rest => variablePrint index value ^^^ printFrom (index + 1) rest

def ofVars (vars : List Int) : State := ⟨vars, printFrom 0 vars⟩

def ofIndex (index : Nat) : State := ofVars [(index : Int)]

instance : BEq State := ⟨fun a b => a.fingerprint == b.fingerprint && a.vars == b.vars⟩

theorem beq_iff {a b : State} : (a == b) = true ↔ a.fingerprint = b.fingerprint ∧ a.vars = b.vars := by
  change (a.fingerprint == b.fingerprint && a.vars == b.vars) = true ↔ _
  simp

instance : LawfulBEq State where
  eq_of_beq {a b} h := by
    obtain ⟨hp, hv⟩ := beq_iff.mp h
    cases a; cases b; simp_all
  rfl := beq_iff.mpr ⟨rfl, rfl⟩

instance : Hashable State := ⟨State.fingerprint⟩

def get (s : State) (index : Nat) : Except Fault Int :=
  match s.vars[index]? with
  | some value => .ok value
  | none => .error (.outOfBounds s.vars.length index)

def set (s : State) (index : Nat) (value : Int) : Except Fault State := do
  let old ← s.get index
  if old = value then return s
  return {
    vars := s.vars.set index value
    fingerprint := s.fingerprint ^^^ variablePrint index old ^^^ variablePrint index value }

theorem get_eq_ok {s : State} {index : Nat} {value : Int} :
    s.get index = .ok value ↔ s.vars[index]? = some value := by
  unfold get
  cases s.vars[index]? <;> simp

theorem exists_set {s : State} {index : Nat} (value : Int) (inside : index < s.vars.length) :
    ∃ next, s.set index value = .ok next ∧ next.vars = s.vars.set index value := by
  have there : s.get index = .ok s.vars[index] := get_eq_ok.mpr (List.getElem?_eq_getElem inside)
  unfold set
  rw [there]
  by_cases same : s.vars[index] = value
  · exact ⟨s, by simp [bind, Except.bind, same, pure, Except.pure], by simp [← same]⟩
  · exact ⟨_, by simp [bind, Except.bind, same, pure, Except.pure]; rfl, rfl⟩

def text (s : State) : String := "(" ++ ",".intercalate (s.vars.map toString) ++ ")"

end State

end SchedulerLearning

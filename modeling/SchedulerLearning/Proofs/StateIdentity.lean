import SchedulerLearning.Proofs.ChoiceAgreement

/-!
# States are their variables

However a state came about, from its variables at once or by assignments to another one, its cached
fingerprint is that of its variables. So states are equal exactly if their variables are, and the
learned tables have one entry for each valuation.
-/

namespace SchedulerLearning

namespace State

def fingerprintOf (vars : List Int) : UInt64 :=
  vars.zipIdx.foldl (fun print (value, index) => print ^^^ variablePrint index value) 0

def assign (s : State) (assignments : List (Nat × Int)) : Except Fault State :=
  assignments.foldlM (fun s a => s.set a.1 a.2) s

def assigned (vars : List Int) (assignments : List (Nat × Int)) : List Int :=
  assignments.foldl (fun vars a => vars.set a.1 a.2) vars

variable {vars : List Int} {index i : Nat} {value : Int} {assignments : List (Nat × Int)}

@[simp] theorem vars_ofVars : (ofVars vars).vars = vars := rfl

-- ---------------------------------------------------------------------------
-- The fingerprint
-- ---------------------------------------------------------------------------

theorem foldl_zipIdx (print : UInt64) :
    (vars.zipIdx index).foldl (fun print (value, index) => print ^^^ variablePrint index value) print =
      print ^^^ printFrom index vars := by
  induction vars generalizing index print with
  | nil => simp [printFrom]
  | cons value rest ih => simp [printFrom, ih, UInt64.xor_assoc]

theorem fingerprint_ofVars : (ofVars vars).fingerprint = fingerprintOf vars := by
  rw [fingerprintOf, foldl_zipIdx, UInt64.zero_xor]
  rfl

/-- The share of one variable can be exchanged, as it cancels itself. -/
theorem printFrom_set (inside : i < vars.length) :
    printFrom index (vars.set i value) =
      printFrom index vars ^^^ variablePrint (index + i) vars[i] ^^^ variablePrint (index + i) value := by
  induction vars generalizing index i with
  | nil => simp at inside
  | cons first rest ih =>
    cases i with
    | zero =>
      simp only [List.set_cons_zero, List.getElem_cons_zero, printFrom, Nat.add_zero]
      rw [UInt64.xor_comm (variablePrint index first), UInt64.xor_assoc (printFrom _ rest),
        UInt64.xor_self, UInt64.xor_zero, UInt64.xor_comm]
    | succ i =>
      have inside : i < rest.length := by simpa using inside
      have place : index + (i + 1) = index + 1 + i := by omega
      simp only [List.set_cons_succ, List.getElem_cons_succ, printFrom, ih inside, place,
        UInt64.xor_assoc]

-- ---------------------------------------------------------------------------
-- Assignments
-- ---------------------------------------------------------------------------

theorem set_ofVars (inside : i < vars.length) :
    (ofVars vars).set i value = .ok (ofVars (vars.set i value)) := by
  have there : (ofVars vars).get i = .ok vars[i] := get_eq_ok.mpr (List.getElem?_eq_getElem inside)
  unfold set
  rw [there]
  simp only [bind, Except.bind]
  split
  · next same =>
    rw [← same, List.set_getElem_self]
    rfl
  · next other =>
    simp [ofVars, printFrom_set inside, pure, Except.pure]

theorem assign_ofVars (inside : ∀ a ∈ assignments, a.1 < vars.length) :
    (ofVars vars).assign assignments = .ok (ofVars (assigned vars assignments)) := by
  induction assignments generalizing vars with
  | nil => rfl
  | cons a rest ih =>
    obtain ⟨i, value⟩ := a
    have first : i < vars.length := inside (i, value) List.mem_cons_self
    have others : ∀ b ∈ rest, b.1 < (vars.set i value).length := by
      intro b there
      rw [List.length_set]
      exact inside b (List.mem_cons_of_mem _ there)
    unfold assign
    rw [List.foldlM_cons, set_ofVars first]
    exact ih others

/-- States with the fingerprints of their variables are told apart by their variables alone. -/
theorem ofVars_beq_ofVars {vars' : List Int} :
    (ofVars vars == ofVars vars') = true ↔ vars = vars' := by
  constructor
  · intro same
    exact (beq_iff.mp same).2
  · rintro rfl
    exact beq_self_eq_true _

end State

theorem Rewards.getElem?_enter {r : Rewards} {s t : State} {count : Nat} :
    (r.enter s count).1.states[t]? =
      if s == t then some (r.states[s]?.getD (.ofCount count)) else r.states[t]? := by
  unfold enter contains
  rw [Std.HashMap.contains_eq_isSome_getElem?]
  split
  · next known =>
    obtain ⟨ts, known⟩ := Option.isSome_iff_exists.mp known
    split
    · next same =>
      rw [← eq_of_beq same, known]
      rfl
    · rfl
  · next unknown =>
    have unknown : r.states[s]? = none := by simpa using unknown
    rw [unknown]
    exact Std.HashMap.getElem?_insert

theorem Rewards.initialise_of_room {r : Rewards} {s : State} {count : Nat} (room : count ≤ Room.most 16) :
    r.initialise s count = (r.enter s count).map id .ok := by
  have claimed : Tallies.claim count = .ok () := if_neg (Nat.not_lt.mpr room)
  unfold initialise
  split
  · next known =>
    rw [enter, if_pos known]
    rfl
  · rw [claimed]

theorem Rewards.getElem?_enter_ofVars {r : Rewards} {vars vars' : List Int} {count : Nat} :
    (r.enter (.ofVars vars) count).1.states[State.ofVars vars']? =
      if vars = vars' then some (r.states[State.ofVars vars]?.getD (.ofCount count))
      else r.states[State.ofVars vars']? := by
  rw [getElem?_enter]
  exact if_congr State.ofVars_beq_ofVars rfl rfl

section

variable {α : Type} [Scalar α]

theorem Scheduler.get?_enter_ofVars {p : Scheduler α} {vars vars' : List Int} {count : Nat} :
    (p.enter (.ofVars vars) count).1.get? (.ofVars vars') =
      if vars = vars' then some ((p.get? (.ofVars vars)).getD (.uniform count))
      else p.get? (.ofVars vars') := by
  rw [get?_enter]
  exact if_congr State.ofVars_beq_ofVars rfl rfl

namespace State

/-- Any two states that came about by assignments to declared variables, one after the other: each
has the variables that the assignments make and their fingerprint. The states are equal exactly if
their variables are, then hash alike, and an entry made for the one is the entry of the other, also
where an entry is made only if there is room for it. -/
theorem told_apart_by_variables {vars vars' : List Int} {assignments assignments' : List (Nat × Int)}
    (inside : ∀ a ∈ assignments, a.1 < vars.length)
    (inside' : ∀ a ∈ assignments', a.1 < vars'.length) :
    ∃ s t, (ofVars vars).assign assignments = .ok s ∧ (ofVars vars').assign assignments' = .ok t ∧
      (s.vars = assigned vars assignments ∧ s.fingerprint = fingerprintOf s.vars) ∧
      (t.vars = assigned vars' assignments' ∧ t.fingerprint = fingerprintOf t.vars) ∧
      ((s == t) = true ↔ s.vars = t.vars) ∧ (s.vars = t.vars → hash s = hash t) ∧
      (∀ (p : Scheduler α) count, (p.enter s count).1.get? t =
        if s.vars = t.vars then some ((p.get? s).getD (.uniform count)) else p.get? t) ∧
      (∀ (r : Rewards) count, (r.enter s count).1.states[t]? =
        if s.vars = t.vars then some (r.states[s]?.getD (.ofCount count)) else r.states[t]?) ∧
      (∀ (p : Scheduler α) count, count ≤ Room.most 8 → (p.initialise s count).1.get? t =
        if s.vars = t.vars then some ((p.get? s).getD (.uniform count)) else p.get? t) ∧
      (∀ (r : Rewards) count, count ≤ Room.most 16 → (r.initialise s count).1.states[t]? =
        if s.vars = t.vars then some (r.states[s]?.getD (.ofCount count)) else r.states[t]?) := by
  refine ⟨_, _, assign_ofVars inside, assign_ofVars inside', ⟨rfl, fingerprint_ofVars⟩,
    ⟨rfl, fingerprint_ofVars⟩, ofVars_beq_ofVars, ?_, fun p count => p.get?_enter_ofVars,
    fun r count => r.getElem?_enter_ofVars, ?_, ?_⟩
  · intro same
    exact congrArg (fun vars => (ofVars vars).fingerprint) same
  · intro p count room
    rw [Scheduler.initialise_of_room room]
    exact p.get?_enter_ofVars
  · intro r count room
    rw [Rewards.initialise_of_room room]
    exact r.getElem?_enter_ofVars

/-- One state in two ways: a variable is set and set back, or both are set. -/
theorem told_apart_by_variables_of_detour :
    ∃ s t, (ofVars [3, -1]).assign [(0, 7), (0, 3)] = .ok s ∧
      (ofVars [5, 0]).assign [(1, -1), (0, 3)] = .ok t ∧ s.fingerprint = fingerprintOf [3, -1] ∧
      (s == t) = true ∧ hash s = hash t ∧
      ((Scheduler.empty : Scheduler Rat).enter s 2).1.get? t = some (.uniform 2) := by
  have inside : ∀ a ∈ [((0 : Nat), (7 : Int)), (0, 3)], a.1 < [(3 : Int), -1].length := by decide
  have inside' : ∀ a ∈ [((1 : Nat), (-1 : Int)), (0, 3)], a.1 < [(5 : Int), 0].length := by decide
  obtain ⟨s, t, made, made', ⟨vars, print⟩, ⟨vars', -⟩, same, alike, entry, -⟩ :=
    told_apart_by_variables (α := Rat) inside inside'
  have vars : s.vars = [3, -1] := vars
  have agree : s.vars = t.vars := vars.trans vars'.symm
  refine ⟨s, t, made, made', vars ▸ print, same.mpr agree, alike agree, ?_⟩
  rw [entry, if_pos agree, Scheduler.get?, Scheduler.empty, Std.HashMap.getElem?_empty]
  rfl

end State

end

end SchedulerLearning

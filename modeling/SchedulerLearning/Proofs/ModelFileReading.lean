import SchedulerLearning.Proofs.ModelFileGrammar

/-!
# Reading a model file

The lines of a file are read as declarations, of which the first is the number of states. Nothing
is left of a file but what these declare, and every file of such declarations is read.
-/

namespace SchedulerLearning.ModelFile

namespace Declaration

def count? : Declaration → Option Nat
  | .states count => some count
  | _ => none

def initial? : Declaration → Option Nat
  | .initial index => some index
  | _ => none

def goalIndices : Declaration → List Nat
  | .goals indices => indices
  | _ => []

def choice? : Declaration → Option (Nat × List (Float × Nat))
  | .choice source branches => some (source, branches)
  | _ => none

end Declaration

def InOrder (states : Option Nat) : List Declaration → Prop
  | [] => True
  | d :: ds => d.Follows states ∧ InOrder (d.count?.or states) ds

/-- Whether a parser has read exactly some declarations. -/
structure Parser.Holds (p : Parser) (ds : List Declaration) : Prop where
  states : p.states = (ds.filterMap Declaration.count?).getLast?
  initial : p.initial = (ds.filterMap Declaration.initial?).getLast?.getD 0
  choices : p.choices.toList = ds.filterMap Declaration.choice?
  goals : p.goals.toList = ds.flatMap Declaration.goalIndices

variable {p p' : Parser} {d : Declaration} {ds before : List Declaration} {span : Span} {n offset : Nat}
  {raw : List Char} {rest raws : List (List Char)}

-- ---------------------------------------------------------------------------
-- The order of declarations
-- ---------------------------------------------------------------------------

theorem inOrder_some : InOrder (some n) ds ↔ ∀ d ∈ ds, d.Within n := by
  induction ds with
  | nil => simp [InOrder]
  | cons d ds ih =>
    rw [List.forall_mem_cons, InOrder]
    cases d <;> simp [Declaration.Follows, Declaration.Within, Declaration.count?, ih]

theorem inOrder_none : InOrder none ds ↔
    ds = [] ∨ ∃ n rest, ds = .states n :: rest ∧ n ≠ 0 ∧ ∀ d ∈ rest, d.Within n := by
  cases ds with
  | nil => simp [InOrder]
  | cons d ds =>
    cases d <;> simp [InOrder, Declaration.Follows, Declaration.count?, inOrder_some]

-- ---------------------------------------------------------------------------
-- Lines
-- ---------------------------------------------------------------------------

namespace Parser

theorem holds_start : Parser.start.Holds [] := ⟨rfl, rfl, rfl, rfl⟩

theorem Holds.declare (h : p.Holds ds) (span : Span) (d : Declaration) :
    (p.declare span d).Holds (ds ++ [d]) := by
  obtain ⟨states, initial, choices, goals⟩ := h
  cases d <;> constructor <;>
    simp [Parser.declare, Declaration.count?, Declaration.initial?, Declaration.choice?,
      Declaration.goalIndices, states, initial, choices, goals]

theorem states_declare : (p.declare span d).states = d.count?.or p.states := by
  cases d <;> rfl

theorem readLines_eq_ok (h : p.readLines offset raws = .ok p') (held : p.Holds before) :
    ∃ ds, List.Forall₂ ReadAs (contentOf raws) ds ∧ InOrder p.states ds ∧ p'.Holds (before ++ ds) := by
  induction raws generalizing p offset before with
  | nil =>
    obtain rfl := Except.ok.inj h
    exact ⟨[], .nil, trivial, by rwa [List.append_nil]⟩
  | cons raw rest ih =>
    obtain ⟨next, line, others⟩ := bind_eq_ok.mp h
    rw [contentOf_cons]
    obtain ⟨blank, rfl⟩ | ⟨d, read, follows, rfl⟩ := line_eq_ok.mp line
    · rw [if_pos blank]
      exact ih others held
    · rw [if_neg read.ne_nil]
      obtain ⟨ds, reads, order, held⟩ := ih others (held.declare _ d)
      rw [states_declare] at order
      exact ⟨d :: ds, .cons read reads, ⟨follows, order⟩, by rwa [List.append_assoc] at held⟩

theorem exists_readLines (reads : List.Forall₂ ReadAs (contentOf raws) ds) (order : InOrder p.states ds)
    (held : p.Holds before) (offset : Nat) :
    ∃ p', p.readLines offset raws = .ok p' ∧ p'.Holds (before ++ ds) := by
  induction raws generalizing p offset before ds with
  | nil =>
    cases reads
    exact ⟨p, rfl, by rwa [List.append_nil]⟩
  | cons raw rest ih =>
    rw [contentOf_cons] at reads
    split at reads
    · next blank =>
      obtain ⟨p', h, held⟩ := ih reads order held (offset + byteLength raw)
      exact ⟨p', bind_eq_ok.mpr ⟨p, line_eq_ok.mpr (.inl ⟨blank, rfl⟩), h⟩, held⟩
    · cases reads with
      | @cons _ d _ ds read reads =>
        have order' :
            InOrder (p.declare (secondSpan (tokens offset (withoutComment raw))) d).states ds := by
          rw [states_declare]
          exact order.2
        obtain ⟨p', h, held⟩ := ih reads order' (held.declare _ d) (offset + byteLength raw)
        refine ⟨p', bind_eq_ok.mpr ⟨_, line_eq_ok.mpr (.inr ⟨d, read, order.1, rfl⟩), h⟩, ?_⟩
        rwa [List.append_assoc] at held

end Parser

end SchedulerLearning.ModelFile

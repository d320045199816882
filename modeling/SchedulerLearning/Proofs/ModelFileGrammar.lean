import SchedulerLearning.ModelFile.Parser
import SchedulerLearning.Proofs.ModelFileWords
import SchedulerLearning.Proofs.NumberText

/-!
# The grammar of model files

A line without words says nothing, and any other one is a declaration in words. What the parser
does with a line is what the declaration says, if it may stand there; a line of any other words is
refused. A declaration of one number may be followed by words that are not read.
-/

namespace SchedulerLearning.ModelFile

inductive Declaration
  | states (count : Nat)
  | initial (index : Nat)
  | goals (indices : List Nat)
  | choice (source : Nat) (branches : List (Float × Nat))

def SpellsBranch (word : List Char) (b : Float × Nat) : Prop :=
  ∃ probability target, word = probability ++ ':' :: target ∧
    Decimal.number? probability = some b.1 ∧ Decimal.size? target = some b.2

inductive Spells : List (List Char) → Declaration → Prop
  | states {word count} (read : Decimal.size? word = some count) :
      Spells ["states".toList, word] (.states count)
  | initial {word index} (read : Decimal.size? word = some index) :
      Spells ["initial".toList, word] (.initial index)
  | goals {words indices} (nonempty : words ≠ [])
      (read : List.Forall₂ (fun word index => Decimal.size? word = some index) words indices) :
      Spells ("goal".toList :: words) (.goals indices)
  | choice {word source words branches} (read : Decimal.size? word = some source) (nonempty : words ≠ [])
      (each : List.Forall₂ SpellsBranch words branches) :
      Spells (word :: "->".toList :: words) (.choice source branches)

def Declaration.Single : Declaration → Prop
  | .states _ | .initial _ => True
  | .goals _ | .choice .. => False

/-- Whether words are read as a declaration: those behind one number are left. -/
def ReadAs (words : List (List Char)) (d : Declaration) : Prop :=
  ∃ spelled surplus, words = spelled ++ surplus ∧ Spells spelled d ∧ (surplus = [] ∨ d.Single)

def Declaration.Within (count : Nat) : Declaration → Prop
  | .states _ => False
  | .initial index => index < count
  | .goals indices => ∀ index ∈ indices, index < count
  | .choice source branches => source < count ∧
      (∀ b ∈ branches, 0 ≤ b.1 ∧ b.1 ≤ 1 ∧ b.2 < count) ∧
      ¬Distribution.tolerance < Scalar.abs (Distribution.total branches - 1)

instance (d : Declaration) (count : Nat) : Decidable (d.Within count) := by
  cases d <;> unfold Declaration.Within <;> infer_instance

/-- Whether a declaration may follow lines that declared so many states, if any. -/
def Declaration.Follows (states : Option Nat) : Declaration → Prop
  | .states count => states = none ∧ count ≠ 0
  | d => ∃ count, states = some count ∧ d.Within count

def Parser.declare (p : Parser) (span : Span) : Declaration → Parser
  | .states count => { p with states := some count }
  | .initial index => { p with initial := index, initialSpan := span }
  | .goals indices => { p with goals := p.goals ++ indices.toArray }
  | .choice source branches => { p with choices := p.choices.push (source, branches) }

def secondSpan (words : List Token) : Span := (words[1]?.map Token.span).getD ⟨0, 0⟩

variable {p p' : Parser} {word : Token} {text : List Char} {span : Span} {ts : List Token} {offset : Nat}

-- ---------------------------------------------------------------------------
-- Lists in pairs
-- ---------------------------------------------------------------------------

section
variable {τ σ : Type}

theorem forall_exists_some {o : Option τ} {Q : τ → σ → Prop} {ys : List σ} (nonempty : ys ≠ []) :
    (∀ y ∈ ys, ∃ x, o = some x ∧ Q x y) ↔ ∃ x, o = some x ∧ ∀ y ∈ ys, Q x y := by
  cases o with
  | none => simpa using List.exists_mem_of_ne_nil ys nonempty
  | some x => simp

theorem forall₂_and_right {R : τ → σ → Prop} {Q : σ → Prop} {xs : List τ} {ys : List σ} :
    List.Forall₂ (fun x y => R x y ∧ Q y) xs ys ↔ List.Forall₂ R xs ys ∧ ∀ y ∈ ys, Q y := by
  constructor
  · intro h
    induction h with
    | nil => exact ⟨.nil, by simp⟩
    | cons first _ ih => exact ⟨.cons first.1 ih.1, List.forall_mem_cons.mpr ⟨first.2, ih.2⟩⟩
  · rintro ⟨h, each⟩
    induction h with
    | nil => exact .nil
    | cons first _ ih =>
      obtain ⟨here, each⟩ := List.forall_mem_cons.mp each
      exact .cons ⟨first, here⟩ (ih each)

theorem forall₂_exists_left {R : τ → σ → Prop} {xs : List τ} {ys : List σ} (h : List.Forall₂ R xs ys) :
    ∀ x ∈ xs, ∃ y, R x y := by
  induction h with
  | nil => simp
  | cons first _ ih => exact List.forall_mem_cons.mpr ⟨⟨_, first⟩, ih⟩

theorem forall₂_ne_nil {R : τ → σ → Prop} {xs : List τ} {ys : List σ} (h : List.Forall₂ R xs ys) :
    xs ≠ [] ↔ ys ≠ [] := by
  cases h <;> simp

end

-- ---------------------------------------------------------------------------
-- Words of a declaration
-- ---------------------------------------------------------------------------

section
variable {head : List Char} {ws : List (List Char)} {d : Declaration}

theorem ReadAs.ne_nil (read : ReadAs ws d) : ws ≠ [] := by
  rintro rfl
  obtain ⟨spelled, surplus, whole, spells, -⟩ := read
  cases spells <;> simp at whole

theorem readAs_cons : ReadAs (head :: ws) d ↔
    (head = "states".toList ∧ ∃ word rest count, ws = word :: rest ∧
      Decimal.size? word = some count ∧ d = .states count) ∨
    (head = "initial".toList ∧ ∃ word rest index, ws = word :: rest ∧
      Decimal.size? word = some index ∧ d = .initial index) ∨
    (head = "goal".toList ∧ ∃ indices, ws ≠ [] ∧
      List.Forall₂ (fun word index => Decimal.size? word = some index) ws indices ∧ d = .goals indices) ∨
    ∃ rest source branches, ws = "->".toList :: rest ∧ Decimal.size? head = some source ∧ rest ≠ [] ∧
      List.Forall₂ SpellsBranch rest branches ∧ d = .choice source branches := by
  constructor
  · rintro ⟨spelled, surplus, whole, spells, all⟩
    cases spells with
    | states read =>
      obtain ⟨rfl, rfl⟩ := List.cons.inj whole
      exact .inl ⟨rfl, _, surplus, _, rfl, read, rfl⟩
    | initial read =>
      obtain ⟨rfl, rfl⟩ := List.cons.inj whole
      exact .inr (.inl ⟨rfl, _, surplus, _, rfl, read, rfl⟩)
    | goals nonempty read =>
      obtain rfl : surplus = [] := all.resolve_right id
      rw [List.append_nil] at whole
      obtain ⟨rfl, rfl⟩ := List.cons.inj whole
      exact .inr (.inr (.inl ⟨rfl, _, nonempty, read, rfl⟩))
    | choice read nonempty each =>
      obtain rfl : surplus = [] := all.resolve_right id
      rw [List.append_nil] at whole
      obtain ⟨rfl, rfl⟩ := List.cons.inj whole
      exact .inr (.inr (.inr ⟨_, _, _, rfl, read, nonempty, each, rfl⟩))
  · rintro (⟨rfl, word, rest, count, rfl, read, rfl⟩ | ⟨rfl, word, rest, index, rfl, read, rfl⟩ |
      ⟨rfl, indices, nonempty, read, rfl⟩ | ⟨rest, source, branches, rfl, read, nonempty, each, rfl⟩)
    · exact ⟨_, rest, rfl, .states read, .inr trivial⟩
    · exact ⟨_, rest, rfl, .initial read, .inr trivial⟩
    · exact ⟨_, [], (List.append_nil _).symm, .goals nonempty read, .inl rfl⟩
    · exact ⟨_, [], (List.append_nil _).symm, .choice read nonempty each, .inl rfl⟩

theorem readAs_states : ReadAs ("states".toList :: ws) d ↔
    ∃ word rest count, ws = word :: rest ∧ Decimal.size? word = some count ∧ d = .states count := by
  have start : "states".toList ≠ "initial".toList := by decide
  have goal : "states".toList ≠ "goal".toList := by decide
  have number : Decimal.size? "states".toList = none := by decide
  simp only [readAs_cons, start, goal, number, reduceCtorEq, true_and, false_and, and_false,
    exists_false, or_false]

theorem readAs_initial : ReadAs ("initial".toList :: ws) d ↔
    ∃ word rest index, ws = word :: rest ∧ Decimal.size? word = some index ∧ d = .initial index := by
  have count : "initial".toList ≠ "states".toList := by decide
  have goal : "initial".toList ≠ "goal".toList := by decide
  have number : Decimal.size? "initial".toList = none := by decide
  simp only [readAs_cons, count, goal, number, reduceCtorEq, true_and, false_and, and_false,
    exists_false, or_false, false_or]

theorem readAs_goal : ReadAs ("goal".toList :: ws) d ↔
    ∃ indices, ws ≠ [] ∧ List.Forall₂ (fun word index => Decimal.size? word = some index) ws indices ∧
      d = .goals indices := by
  have count : "goal".toList ≠ "states".toList := by decide
  have start : "goal".toList ≠ "initial".toList := by decide
  have number : Decimal.size? "goal".toList = none := by decide
  simp only [readAs_cons, count, start, number, reduceCtorEq, true_and, false_and, and_false,
    exists_false, or_false, false_or]

theorem readAs_choice (count : head ≠ "states".toList) (start : head ≠ "initial".toList)
    (goal : head ≠ "goal".toList) :
    ReadAs (head :: ws) d ↔ ∃ rest source branches, ws = "->".toList :: rest ∧
      Decimal.size? head = some source ∧ rest ≠ [] ∧ List.Forall₂ SpellsBranch rest branches ∧
      d = .choice source branches := by
  simp only [readAs_cons, count, start, goal, false_and, false_or]

end

-- ---------------------------------------------------------------------------
-- Lines
-- ---------------------------------------------------------------------------

theorem eq_append_of_dropWhile {c : Char} {behind : List Char}
    (h : text.dropWhile (· ≠ ':') = c :: behind) :
    text = text.takeWhile (· ≠ ':') ++ ':' :: behind := by
  have colon : c = ':' := by
    have first := List.head?_dropWhile_not (· ≠ ':') text
    rw [h] at first
    simpa using first
  calc text = text.takeWhile (· ≠ ':') ++ text.dropWhile (· ≠ ':') :=
        List.takeWhile_append_dropWhile.symm
    _ = text.takeWhile (· ≠ ':') ++ ':' :: behind := by rw [h, colon]

theorem cut_at_colon {before : List Char} (none : ':' ∉ before) (behind : List Char) :
    (before ++ ':' :: behind).takeWhile (· ≠ ':') = before ∧
      (before ++ ':' :: behind).dropWhile (· ≠ ':') = ':' :: behind := by
  have inside : ∀ c ∈ before, decide (c ≠ ':') = true := by
    intro c there
    exact decide_eq_true fun colon => none (colon ▸ there)
  rw [List.takeWhile_append_of_pos inside, List.dropWhile_append_of_pos inside]
  simp

namespace Parser

theorem state_eq_ok {index : Nat} :
    p.state text span = .ok index ↔
      Decimal.size? text = some index ∧ ∃ count, p.states = some count ∧ index < count := by
  unfold state
  cases p.states with
  | none => simp
  | some count =>
    cases Decimal.size? text with
    | none => simp
    | some i =>
      simp only
      split
      · simp; omega
      · simp; omega

theorem branch_eq_ok {b : Float × Nat} :
    p.branch word = .ok b ↔ SpellsBranch word.text b ∧
      ∃ count, p.states = some count ∧ 0 ≤ b.1 ∧ b.1 ≤ 1 ∧ b.2 < count := by
  constructor
  · intro h
    unfold branch at h
    simp only at h
    split at h
    · cases h
    · next c behind rest =>
      split at h
      · cases h
      · next x read =>
        simp only [Bool.and_eq_true, decide_eq_true_eq] at h
        split at h
        · next unit =>
          obtain ⟨target, index, h⟩ := bind_eq_ok.mp h
          obtain rfl := Except.ok.inj h
          obtain ⟨index, count, declared, inside⟩ := state_eq_ok.mp index
          exact ⟨⟨_, behind, eq_append_of_dropWhile rest, read, index⟩, count, declared, unit.1, unit.2,
            inside⟩
        · cases h
  · rintro ⟨⟨probability, target, spelled, read, index⟩, count, declared, low, high, inside⟩
    obtain ⟨before, behind⟩ := cut_at_colon (Decimal.colon_notMem_of_number? read) target
    have target : p.state target word.span = .ok b.2 := state_eq_ok.mpr ⟨index, count, declared, inside⟩
    unfold branch
    simp only [spelled, before, behind, read, low, high, target]
    rfl

theorem branches_eq_ok {branches : List (Float × Nat)} :
    ts.mapM p.branch = .ok branches ↔ List.Forall₂ SpellsBranch (ts.map Token.text) branches ∧
      ∀ b ∈ branches, ∃ count, p.states = some count ∧ 0 ≤ b.1 ∧ b.1 ≤ 1 ∧ b.2 < count := by
  simp only [mapM_eq_ok, branch_eq_ok, forall₂_and_right, List.forall₂_map_left_iff]

theorem countLine_eq_ok {head : Token} :
    p.countLine span ts = .ok p' ↔ ∃ d, ReadAs ("states".toList :: ts.map Token.text) d ∧
      d.Follows p.states ∧ p' = p.declare (secondSpan (head :: ts)) d := by
  simp only [readAs_states]
  cases ts with
  | nil => simp [countLine]
  | cons word ts =>
    have rule : p.countLine span (word :: ts) = .ok p' ↔ ∃ count, Decimal.size? word.text = some count ∧
        (Declaration.states count).Follows p.states ∧ p' = { p with states := some count } := by
      simp only [countLine, refusing_eq_ok]
      cases Decimal.size? word.text with
      | none => simp
      | some count =>
        simp only [refusing_eq_ok, pure_eq_ok, Option.some.injEq, exists_eq_left', Declaration.Follows,
          and_assoc]
        simp
    rw [rule]
    constructor
    · rintro ⟨count, read, follows, rfl⟩
      exact ⟨_, ⟨_, _, count, rfl, read, rfl⟩, follows, rfl⟩
    · rintro ⟨d, ⟨_, _, count, whole, read, rfl⟩, follows, rfl⟩
      obtain ⟨rfl, -⟩ := List.cons.inj whole
      exact ⟨count, read, follows, rfl⟩

theorem initialLine_eq_ok {head : Token} :
    p.initialLine span ts = .ok p' ↔ ∃ d, ReadAs ("initial".toList :: ts.map Token.text) d ∧
      d.Follows p.states ∧ p' = p.declare (secondSpan (head :: ts)) d := by
  simp only [readAs_initial]
  cases ts with
  | nil => simp [initialLine]
  | cons word ts =>
    simp only [initialLine, bind_eq_ok, state_eq_ok, and_assoc, pure_eq_ok]
    constructor
    · rintro ⟨index, read, follows, rfl⟩
      exact ⟨_, ⟨_, _, index, rfl, read, rfl⟩, follows, rfl⟩
    · rintro ⟨d, ⟨_, _, index, whole, read, rfl⟩, follows, rfl⟩
      obtain ⟨rfl, -⟩ := List.cons.inj whole
      exact ⟨index, read, follows, rfl⟩

theorem goalLine_eq_ok {head : Token} :
    p.goalLine span ts = .ok p' ↔ ∃ d, ReadAs ("goal".toList :: ts.map Token.text) d ∧
      d.Follows p.states ∧ p' = p.declare (secondSpan (head :: ts)) d := by
  simp only [readAs_goal, goalLine, bind_eq_ok, mapM_eq_ok, state_eq_ok, forall₂_and_right, refusing_eq_ok,
    pure_eq_ok, List.forall₂_map_left_iff, List.isEmpty_iff, ne_eq, List.map_eq_nil_iff]
  constructor
  · rintro ⟨indices, ⟨read, inside⟩, nonempty, rfl⟩
    exact ⟨_, ⟨indices, (forall₂_ne_nil read).mpr nonempty, read, rfl⟩,
      (forall_exists_some nonempty).mp inside, rfl⟩
  · rintro ⟨d, ⟨indices, nonempty, read, rfl⟩, follows, rfl⟩
    have nonempty := (forall₂_ne_nil read).mp nonempty
    exact ⟨indices, ⟨read, (forall_exists_some nonempty).mpr follows⟩, nonempty, rfl⟩

theorem choiceLine_eq_ok {head : Token} (count : head.text ≠ "states".toList)
    (start : head.text ≠ "initial".toList) (goal : head.text ≠ "goal".toList) :
    p.choiceLine span head ts = .ok p' ↔ ∃ d, ReadAs (head.text :: ts.map Token.text) d ∧
      d.Follows p.states ∧ p' = p.declare (secondSpan (head :: ts)) d := by
  simp only [readAs_choice count start goal]
  cases ts with
  | nil => simp [choiceLine, bind_eq_ok]
  | cons arrow ts =>
    simp only [choiceLine, bind_eq_ok, state_eq_ok, requiring_eq_ok, refusing_eq_ok, branches_eq_ok,
      pure_eq_ok, List.isEmpty_iff]
    constructor
    · rintro ⟨source, ⟨index, n, declared, inside⟩, sign, branches, ⟨each, branched⟩, nonempty, near, rfl⟩
      obtain ⟨n', declared', branched⟩ := (forall_exists_some nonempty).mp branched
      obtain rfl := Option.some.inj (declared.symm.trans declared')
      exact ⟨_, ⟨_, source, branches, congrArg (· :: _) sign, index, (forall₂_ne_nil each).mpr nonempty,
        each, rfl⟩, ⟨n, declared, inside, branched, near⟩, rfl⟩
    · rintro ⟨d, ⟨_, source, branches, whole, index, nonempty, each, rfl⟩,
        ⟨n, declared, inside, branched, near⟩, rfl⟩
      obtain ⟨sign, rfl⟩ := List.cons.inj whole
      have nonempty := (forall₂_ne_nil each).mp nonempty
      exact ⟨source, ⟨index, n, declared, inside⟩, sign, branches,
        ⟨each, (forall_exists_some nonempty).mpr ⟨n, declared, branched⟩⟩, nonempty, near, rfl⟩

/-- A line without words is passed over. Any other is read as a declaration that may stand there, or
refused. -/
theorem line_eq_ok :
    p.line text offset = .ok p' ↔ (words text = [] ∧ p' = p) ∨
      ∃ d, ReadAs (words text) d ∧ d.Follows p.states ∧
        p' = p.declare (secondSpan (tokens offset text)) d := by
  rw [← map_text_tokens offset]
  unfold line
  cases tokens offset text with
  | nil =>
    have empty : ∀ d, ¬ReadAs [] d := fun d read => read.ne_nil rfl
    simp [empty, eq_comm]
  | cons head ts =>
    simp only [List.map_cons, List.cons_ne_nil, false_and, false_or]
    split
    · next count =>
      rw [count]
      exact countLine_eq_ok
    · next count =>
      split
      · next start =>
        rw [start]
        exact initialLine_eq_ok
      · next start =>
        split
        · next goal =>
          rw [goal]
          exact goalLine_eq_ok
        · next goal => exact choiceLine_eq_ok count start goal

end Parser

end SchedulerLearning.ModelFile

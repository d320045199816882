import SchedulerLearning.ModelFile.Parser
import SchedulerLearning.Proofs.ModelFilePlaces
import SchedulerLearning.Proofs.Outcome

/-!
# Lines that are refused

A refused line is refused for a cause of its own, at the place of one of its words or of them all.
Lines are refused at the first one that is, after those before it were read.
-/

namespace SchedulerLearning.ModelFile

def Cause.OfLine : Cause → Prop
  | .noCountDeclared | .noGoalDeclared | .rejected _ => False
  | _ => True

structure ParseError.At (e : ParseError) (places : List Span) : Prop where
  cause : e.cause.OfLine
  place : e.span ∈ places

variable {p p' : Parser} {e : ParseError} {span : Span} {places others : List Span} {word head : Token}
  {ts : List Token} {text : List Char} {offset : Nat} {raws : List (List Char)}

theorem ParseError.At.mono (h : e.At places) (more : places ⊆ others) : e.At others where
  cause := h.cause
  place := more h.place

namespace Parser

-- ---------------------------------------------------------------------------
-- Words
-- ---------------------------------------------------------------------------

theorem at_of_state (h : p.state text span = .error e) : e.At [span] := by
  unfold state at h
  split at h
  · cases h
    exact ⟨trivial, List.mem_singleton_self _⟩
  · split at h
    · cases h
      exact ⟨trivial, List.mem_singleton_self _⟩
    · split at h <;> cases h
      exact ⟨trivial, List.mem_singleton_self _⟩

theorem at_of_branch (h : p.branch word = .error e) : e.At [word.span] := by
  unfold branch at h
  simp only at h
  split at h
  · cases h
    exact ⟨trivial, List.mem_singleton_self _⟩
  · split at h
    · cases h
      exact ⟨trivial, List.mem_singleton_self _⟩
    · rw [requiring_eq_error] at h
      obtain ⟨-, rfl⟩ | ⟨-, h⟩ := h
      · exact ⟨trivial, List.mem_singleton_self _⟩
      · obtain h | ⟨target, -, h⟩ := bind_eq_error.mp h
        · exact at_of_state h
        · cases h

-- ---------------------------------------------------------------------------
-- Lines
-- ---------------------------------------------------------------------------

theorem at_of_countLine (h : p.countLine span ts = .error e) : e.At (span :: ts.map Token.span) := by
  cases ts with
  | nil =>
    cases h
    exact ⟨trivial, List.mem_cons_self⟩
  | cons word ts =>
    simp only [countLine, refusing_eq_error] at h
    obtain ⟨-, rfl⟩ | ⟨-, h⟩ := h
    · exact ⟨trivial, List.mem_cons_self⟩
    · cases read : Decimal.size? word.text with
      | none =>
        rw [read] at h
        cases h
        exact ⟨trivial, by simp⟩
      | some count =>
        simp only [read, refusing_eq_error] at h
        obtain ⟨-, rfl⟩ | ⟨-, h⟩ := h
        · exact ⟨trivial, by simp⟩
        · cases h

theorem at_of_initialLine (h : p.initialLine span ts = .error e) :
    e.At (span :: ts.map Token.span) := by
  cases ts with
  | nil =>
    cases h
    exact ⟨trivial, List.mem_cons_self⟩
  | cons word ts =>
    obtain h | ⟨index, -, h⟩ := bind_eq_error.mp h
    · exact (at_of_state h).mono (by simp)
    · cases h

theorem at_of_goalLine (h : p.goalLine span ts = .error e) : e.At (span :: ts.map Token.span) := by
  obtain h | ⟨goals, -, h⟩ := bind_eq_error.mp h
  · obtain ⟨word, there, h⟩ := exists_of_mapM_eq_error h
    exact (at_of_state h).mono (by simpa using .inr ⟨word, there, rfl⟩)
  · rw [refusing_eq_error] at h
    obtain ⟨-, rfl⟩ | ⟨-, h⟩ := h
    · exact ⟨trivial, List.mem_cons_self⟩
    · cases h

theorem at_of_choiceLine (h : p.choiceLine span head ts = .error e) :
    e.At (span :: (head :: ts).map Token.span) := by
  obtain h | ⟨source, -, h⟩ := bind_eq_error.mp h
  · exact (at_of_state h).mono (by simp)
  · cases ts with
    | nil =>
      cases h
      exact ⟨trivial, List.mem_cons_self⟩
    | cons arrow ts =>
      simp only [requiring_eq_error, refusing_eq_error, bind_eq_error] at h
      obtain ⟨-, rfl⟩ | ⟨-, h | ⟨branches, -, ⟨-, rfl⟩ | ⟨-, ⟨-, rfl⟩ | ⟨-, h⟩⟩⟩⟩ := h
      · exact ⟨trivial, List.mem_cons_self⟩
      · obtain ⟨word, there, h⟩ := exists_of_mapM_eq_error h
        exact (at_of_branch h).mono (by simpa using .inr (.inr (.inr ⟨word, there, rfl⟩)))
      · exact ⟨trivial, List.mem_cons_self⟩
      · exact ⟨trivial, List.mem_cons_self⟩
      · cases h

/-- An error in a line is at one of its words, or at all of them. -/
theorem at_of_line (h : p.line text offset = .error e) :
    ∃ head ts, tokens offset text = head :: ts ∧
      e.At (head.spanOf ts :: (head :: ts).map Token.span) := by
  unfold line at h
  cases cut : tokens offset text with
  | nil =>
    rw [cut] at h
    cases h
  | cons head ts =>
    have more : head.spanOf ts :: ts.map Token.span ⊆ head.spanOf ts :: (head :: ts).map Token.span := by
      simp
    simp only [cut] at h
    refine ⟨head, ts, rfl, ?_⟩
    split at h
    · exact (at_of_countLine h).mono more
    · split at h
      · exact (at_of_initialLine h).mono more
      · split at h
        · exact (at_of_goalLine h).mono more
        · exact at_of_choiceLine h

theorem marks_of_line (h : p.line text offset = .error e) : e.cause.OfLine ∧ e.span.Marks offset text := by
  obtain ⟨head, ts, cut, found⟩ := at_of_line h
  refine ⟨found.cause, ?_⟩
  obtain all | one := List.mem_cons.mp found.place
  · rw [all]
    exact marks_spanOf (cut ▸ List.infix_rfl)
  · obtain ⟨word, there, same⟩ := List.mem_map.mp one
    rw [← same]
    exact marks_span (cut ▸ there)

-- ---------------------------------------------------------------------------
-- The first refused line
-- ---------------------------------------------------------------------------

theorem readLines_eq_error : p.readLines offset raws = .error e ↔ ∃ before raw after p',
    raws = before ++ raw :: after ∧ p.readLines offset before = .ok p' ∧
      p'.line (withoutComment raw) (offset + byteLength before.flatten) = .error e := by
  induction raws generalizing p offset with
  | nil => simp [readLines]
  | cons raw rest ih =>
    rw [readLines, bind_eq_error]
    simp only [ih]
    constructor
    · rintro (here | ⟨next, read, before, raw', after, p', rfl, reads, refused⟩)
      · exact ⟨[], raw, rest, p, rfl, rfl, here⟩
      · refine ⟨raw :: before, raw', after, p', rfl, bind_eq_ok.mpr ⟨next, read, reads⟩, ?_⟩
        rwa [List.flatten_cons, byteLength_append, ← Nat.add_assoc]
    · rintro ⟨before, raw', after, p', whole, reads, refused⟩
      cases before with
      | nil =>
        obtain ⟨rfl, rfl⟩ := List.cons.inj whole
        cases reads
        exact .inl refused
      | cons first before =>
        obtain ⟨rfl, rfl⟩ := List.cons.inj whole
        obtain ⟨next, read, reads⟩ := bind_eq_ok.mp reads
        refine .inr ⟨next, read, before, raw', after, p', rfl, reads, ?_⟩
        rwa [List.flatten_cons, byteLength_append, ← Nat.add_assoc] at refused

end Parser

end SchedulerLearning.ModelFile

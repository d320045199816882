import SchedulerLearning.Proofs.ModelFileBuilding

/-!
# Errors point at their cause

An error is at the first line that is refused, at text of it that is no comment. An error that is in
no line is the lack of a declaration, at the whole file or at its end. The place of an error is
always one of whole characters.
-/

namespace SchedulerLearning.ModelFile

def Span.Cuts (span : Span) (source : String) : Prop :=
  ∃ before marked after, source.toList = before ++ marked ++ after ∧
    span = ⟨byteLength before, byteLength before + byteLength marked⟩

/-- Whether a place is that of a trimmed piece of a line that begins at byte `offset`, ahead of
its comment and its line break. -/
def Span.InLine (span : Span) (offset : Nat) (raw : List Char) : Prop :=
  ∃ lead marked rest, raw = lead ++ marked ++ rest ∧ '#' ∉ lead ++ marked ∧ '\n' ∉ lead ++ marked ∧
    Trimmed marked ∧ span = ⟨offset + byteLength lead, offset + byteLength lead + byteLength marked⟩

variable {span : Span} {source : String} {offset : Nat} {raw : List Char} {p : Parser} {e : ParseError}
  {before after : List (List Char)}

theorem isValid_byteLength {before after : List Char} (whole : source.toList = before ++ after) :
    String.Pos.Raw.IsValid source ⟨byteLength before⟩ := by
  refine String.Pos.Raw.isValid_iff_exists_append.mpr ⟨.ofList before, .ofList after, ?_, ?_⟩
  · rw [← String.ofList_append, ← whole, String.ofList_toList]
  · rw [byteLength_eq_utf8Len, ← String.utf8ByteSize_ofList]
    rfl

theorem Span.Cuts.bounds (h : span.Cuts source) : span.start ≤ span.stop ∧
    span.stop ≤ source.utf8ByteSize ∧ String.Pos.Raw.IsValid source ⟨span.start⟩ ∧
    String.Pos.Raw.IsValid source ⟨span.stop⟩ := by
  obtain ⟨before, marked, after, whole, rfl⟩ := h
  refine ⟨Nat.le_add_right _ _, ?_, ?_, ?_⟩
  · rw [← byteLength_toList, whole, byteLength_append, byteLength_append]
    exact Nat.le_add_right _ _
  · exact isValid_byteLength (whole.trans (List.append_assoc _ _ _))
  · rw [← byteLength_append]
    exact isValid_byteLength whole

theorem cuts_whole (source : String) : Span.Cuts ⟨0, source.utf8ByteSize⟩ source :=
  ⟨[], source.toList, [], by simp, by simp [byteLength_toList]⟩

theorem cuts_end (source : String) : Span.Cuts ⟨source.utf8ByteSize, source.utf8ByteSize⟩ source :=
  ⟨source.toList, [], [], by simp, by simp [byteLength_toList]⟩

theorem Span.Marks.inLine (h : span.Marks offset (withoutComment raw)) (unbroken : '\n' ∉ raw.dropLast) :
    span.InLine offset raw := by
  obtain ⟨lead, marked, rest, text, trimmed, place⟩ := h
  have whole : raw = lead ++ marked ++ (rest ++ raw.dropWhile (· ≠ '#')) := by
    rw [← List.append_assoc, ← text, withoutComment, List.takeWhile_append_dropWhile]
  refine ⟨lead, marked, _, whole, ?_, trimmed.unbroken whole unbroken, trimmed, place⟩
  intro comment
  have inside : '#' ∈ withoutComment raw := text ▸ List.mem_append_left rest comment
  simpa using List.mem_takeWhile_imp inside

theorem Span.InLine.cuts (h : span.InLine (byteLength before.flatten) raw)
    (whole : lines source.toList = before ++ raw :: after) : span.Cuts source := by
  obtain ⟨lead, marked, rest, rfl, -, -, -, rfl⟩ := h
  refine ⟨before.flatten ++ lead, marked, rest ++ after.flatten, ?_, by simp⟩
  rw [← flatten_lines source.toList, whole]
  simp

theorem Span.InLine.nonempty (h : span.InLine offset raw) : span.start < span.stop := by
  obtain ⟨lead, marked, rest, -, -, -, trimmed, rfl⟩ := h
  exact Nat.lt_add_of_pos_right (byteLength_pos trimmed.nonempty)

/-- The place of an error is in the file and one of whole characters. If it is not that of a
missing number of states, the whole file, or of a missing goal, its end, then the error is that of the
first line that is refused, and it is at a trimmed piece of that line, ahead of any comment. -/
theorem errors_point_at_cause (refused : parse source = .error (.refused e)) :
    (e.span.start ≤ e.span.stop ∧ e.span.stop ≤ source.utf8ByteSize ∧
      String.Pos.Raw.IsValid source ⟨e.span.start⟩ ∧ String.Pos.Raw.IsValid source ⟨e.span.stop⟩) ∧
    ((e.cause = .noCountDeclared ∧ e.span = ⟨0, source.utf8ByteSize⟩) ∨
      (e.cause = .noGoalDeclared ∧ e.span = ⟨source.utf8ByteSize, source.utf8ByteSize⟩) ∨
      ∃ before raw after p, lines source.toList = before ++ raw :: after ∧
        Parser.start.readLines 0 before = .ok p ∧
        p.line (withoutComment raw) (byteLength before.flatten) = .error e ∧
        e.span.start < e.span.stop ∧ e.span.InLine (byteLength before.flatten) raw) := by
  obtain line | ⟨p, -, ⟨-, rfl⟩ | ⟨-, -, rfl⟩⟩ := parseChars_eq_refused.mp refused
  · obtain ⟨before, raw, after, p, whole, read, line⟩ := Parser.readLines_eq_error.mp line
    rw [Nat.zero_add] at line
    have there : raw ∈ lines source.toList := by simp [whole]
    have inLine := (Parser.marks_of_line line).2.inLine (unbroken_of_mem_lines there)
    exact ⟨(inLine.cuts whole).bounds,
      .inr (.inr ⟨before, raw, after, p, whole, read, line, inLine.nonempty, inLine⟩)⟩
  · rw [byteLength_toList]
    exact ⟨(cuts_whole source).bounds, .inl ⟨rfl, rfl⟩⟩
  · rw [byteLength_toList]
    exact ⟨(cuts_end source).bounds, .inr (.inl ⟨rfl, rfl⟩)⟩

def wide : String := "# Züge\nstates 2\n\u00a0initial\u3000x # Start\ngoal 1\n"

theorem parse_wide : parse wide = .error (.refused ⟨.notRead .stateIndex ['x'], ⟨29, 30⟩⟩) := by
  with_unfolding_all rfl

theorem errors_point_at_cause_of_wide :
    parse wide = .error (.refused ⟨.notRead .stateIndex ['x'], ⟨29, 30⟩⟩) ∧
    ∃ before raw after, lines wide.toList = before ++ raw :: after ∧
      Span.InLine ⟨29, 30⟩ (byteLength before.flatten) raw := by
  refine ⟨parse_wide, ?_⟩
  obtain ⟨-, ⟨⟨⟩, -⟩ | ⟨⟨⟩, -⟩ | ⟨before, raw, after, p, whole, -, -, -, inLine⟩⟩ :=
    errors_point_at_cause parse_wide
  exact ⟨before, raw, after, whole, inLine⟩

end SchedulerLearning.ModelFile

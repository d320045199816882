import SchedulerLearning.Proofs.ModelFileWords
import Mathlib.Data.String.Basic

/-!
# Where the words of a model file stand

Places are counted in bytes. A word, or some words in a row with what is between them, stand
exactly at their place, and begin and end with a character that is no blank. The lines of a file
follow each other without a gap, and nothing but the end of a line is a line break.
-/

namespace SchedulerLearning.ModelFile

/-- Whether a text has characters, the first and the last of which are no blanks. -/
structure Trimmed (text : List Char) : Prop where
  nonempty : text ≠ []
  first : ∀ c ∈ text.head?, Text.isBlank c = false
  last : ∀ c ∈ text.getLast?, Text.isBlank c = false

def Span.Marks (span : Span) (offset : Nat) (text : List Char) : Prop :=
  ∃ before marked after, text = before ++ marked ++ after ∧ Trimmed marked ∧
    span = ⟨offset + byteLength before, offset + byteLength before + byteLength marked⟩

variable {text other word source line : List Char} {span : Span} {offset : Nat} {first : Token}
  {others : List Token}

-- ---------------------------------------------------------------------------
-- Lengths
-- ---------------------------------------------------------------------------

theorem byteLength_eq_utf8Len : byteLength text = String.utf8Len text := by
  induction text with
  | nil => rfl
  | cons c text ih =>
    rw [String.utf8Len_cons, ← ih]
    exact Nat.add_comm _ _

@[simp] theorem byteLength_nil : byteLength [] = 0 := rfl

@[simp] theorem byteLength_append : byteLength (text ++ other) = byteLength text + byteLength other := by
  simp [byteLength_eq_utf8Len]

theorem byteLength_pos (nonempty : text ≠ []) : 0 < byteLength text := by
  rw [byteLength_eq_utf8Len]
  exact Nat.pos_of_ne_zero (mt String.utf8Len_eq_zero.mp nonempty)

theorem byteLength_toList (source : String) : byteLength source.toList = source.utf8ByteSize := by
  rw [byteLength_eq_utf8Len, ← String.utf8ByteSize_ofList, String.ofList_toList]

-- ---------------------------------------------------------------------------
-- Trimmed texts and their places
-- ---------------------------------------------------------------------------

theorem trimmed_of_solid (nonempty : word ≠ []) (solid : ∀ c ∈ word, Text.isBlank c = false) :
    Trimmed word where
  nonempty := nonempty
  first c there := solid c (List.mem_of_head? there)
  last c there := solid c (List.mem_of_getLast? there)

theorem Trimmed.join (here : Trimmed text) (there : Trimmed other) (between : List Char) :
    Trimmed (text ++ between ++ other) where
  nonempty := by simp [here.nonempty]
  first := by
    rw [List.append_assoc, List.head?_append_of_ne_nil _ here.nonempty]
    exact here.first
  last := by
    rw [List.getLast?_append_of_ne_nil _ there.nonempty]
    exact there.last

theorem Span.Marks.behind (lead : List Char) (h : span.Marks (offset + byteLength lead) text) :
    span.Marks offset (lead ++ text) := by
  obtain ⟨before, marked, after, rfl, trimmed, rfl⟩ := h
  exact ⟨lead ++ before, marked, after, by simp, trimmed, by simp [Nat.add_assoc]⟩

theorem Span.Marks.ahead (h : span.Marks offset text) (rest : List Char) :
    span.Marks offset (text ++ rest) := by
  obtain ⟨before, marked, after, rfl, trimmed, rfl⟩ := h
  exact ⟨before, marked, after ++ rest, by simp, trimmed, rfl⟩

theorem Span.Marks.from (trimmed : Trimmed word) (h : span.Marks (offset + byteLength word) text) :
    Span.Marks ⟨offset, span.stop⟩ offset (word ++ text) := by
  obtain ⟨between, marked, after, rfl, ends, rfl⟩ := h
  refine ⟨[], word ++ between ++ marked, after, by simp, trimmed.join ends between, ?_⟩
  simp only [byteLength_append, byteLength_nil, Nat.add_zero, Nat.add_assoc]

-- ---------------------------------------------------------------------------
-- Words
-- ---------------------------------------------------------------------------

theorem marks_spanOf (row : first :: others <:+: tokens offset text) :
    (first.spanOf others).Marks offset text := by
  induction offset, text using tokens.induct generalizing first others
  case case1 => simp [tokens] at row
  case case2 offset c rest blank ih =>
    rw [tokens, if_pos blank] at row
    exact (ih row).behind [c]
  case case3 offset c rest solid word stop ih =>
    have whole : c :: rest = word ++ rest.dropWhile (!Text.isBlank ·) := by
      rw [List.cons_append, List.takeWhile_append_dropWhile]
    have trimmed : Trimmed word := trimmed_of_solid (List.cons_ne_nil _ _) (solid_of_mem_word solid)
    rw [tokens, if_neg solid, List.infix_cons_iff] at row
    rw [whole]
    obtain here | later := row
    · obtain ⟨rfl, row⟩ := List.cons_prefix_cons.mp here
      cases others with
      | nil => exact ⟨[], word, _, rfl, trimmed, rfl⟩
      | cons second others =>
        -- From the word here to the end of those behind it.
        have together : Token.spanOf ⟨⟨offset, stop⟩, word⟩ (second :: others) =
            ⟨offset, (second.spanOf others).stop⟩ := by
          simp [Token.spanOf, List.getLast?_cons]
        rw [together]
        exact (ih row.isInfix).from trimmed
    · exact (ih later).behind word

theorem marks_span (there : first ∈ tokens offset text) : first.span.Marks offset text := by
  obtain ⟨before, after, row⟩ := List.append_of_mem there
  have alone : [first] <:+: tokens offset text := ⟨before, after, by simp [row]⟩
  exact marks_spanOf alone

-- ---------------------------------------------------------------------------
-- Lines
-- ---------------------------------------------------------------------------

theorem flatten_lines (source : List Char) : (lines source).flatten = source := by
  induction source with
  | nil => rfl
  | cons c rest ih =>
    unfold lines
    split
    · simp [ih]
    · split
      · next none =>
        rw [none] at ih
        simpa using ih
      · next line others some =>
        rw [some] at ih
        simpa using ih

theorem unbroken_of_mem_lines (there : line ∈ lines source) : '\n' ∉ line.dropLast := by
  induction source generalizing line with
  | nil => cases there
  | cons c rest ih =>
    unfold lines at there
    split at there
    · obtain rfl | later := List.mem_cons.mp there
      · simp
      · exact ih later
    · next other =>
      split at there
      · obtain rfl := List.mem_singleton.mp there
        simp
      · next first others some =>
        rw [some] at ih
        obtain rfl | later := List.mem_cons.mp there
        · have unbroken := ih List.mem_cons_self
          cases first with
          | nil => simp
          | cons d first =>
            rw [List.dropLast_cons_of_ne_nil (List.cons_ne_nil _ _), List.mem_cons, not_or]
            exact ⟨Ne.symm other, unbroken⟩
        · exact ih (List.mem_cons_of_mem _ later)

theorem Trimmed.unbroken {before marked after : List Char} (trimmed : Trimmed marked)
    (whole : line = before ++ marked ++ after) (unbroken : '\n' ∉ line.dropLast) :
    '\n' ∉ before ++ marked := by
  cases after with
  | nil =>
    -- A line break at the end would be a blank.
    have blank : Text.isBlank '\n' = true := by decide
    obtain ⟨c, last⟩ := Option.ne_none_iff_exists'.mp (mt List.getLast?_eq_none_iff.mp trimmed.nonempty)
    have other : '\n' ≠ c := by
      rintro rfl
      cases blank.symm.trans (trimmed.last _ last)
    rw [whole, List.append_nil, List.dropLast_append_of_ne_nil trimmed.nonempty] at unbroken
    rw [← List.dropLast_append_getLast? c last, ← List.append_assoc, List.mem_append, not_or]
    exact ⟨unbroken, by simpa using other⟩
  | cons c after =>
    rw [whole, List.dropLast_append_of_ne_nil (List.cons_ne_nil _ _)] at unbroken
    exact fun broken => unbroken (List.mem_append_left _ broken)

end SchedulerLearning.ModelFile

import SchedulerLearning.ModelFile.Token
import Mathlib.Data.List.TakeWhile

/-!
# What a model file says, word by word

The content of a file is the words of its lines without their comments. Where the words stand, how
many blanks are between them and which lines have none is not part of it. The words that are read
are those of the content.
-/

namespace SchedulerLearning.ModelFile

def words (line : List Char) : List (List Char) := (line.splitOnP Text.isBlank).filter (· ≠ [])

def contentOf (lines : List (List Char)) : List (List (List Char)) :=
  (lines.map fun line => words (withoutComment line)).filter (· ≠ [])

def content (source : List Char) : List (List (List Char)) := contentOf (source.splitOn '\n')

variable {text word line rest : List Char} {c : Char}

-- ---------------------------------------------------------------------------
-- Words
-- ---------------------------------------------------------------------------

@[simp] theorem words_nil : words [] = [] := rfl

theorem words_append_blank (blank : Text.isBlank c) :
    words (line ++ c :: rest) = words line ++ words rest := by
  simp only [words, List.splitOnP_append_cons line rest blank, List.filter_append]

theorem words_cons_blank (blank : Text.isBlank c) : words (c :: rest) = words rest := by
  rw [← List.nil_append (c :: rest), words_append_blank blank]
  rfl

theorem words_of_solid (solid : ∀ c ∈ word, Text.isBlank c = false) (some : word ≠ []) :
    words word = [word] := by
  rw [words, List.splitOnP_eq_singleton solid]
  simp [some]

theorem words_append (solid : ∀ c ∈ word, Text.isBlank c = false) (some : word ≠ []) :
    words (word ++ rest.dropWhile (!Text.isBlank ·)) =
      word :: words (rest.dropWhile (!Text.isBlank ·)) := by
  cases ends : rest.dropWhile (!Text.isBlank ·) with
  | nil => rw [List.append_nil, words_of_solid solid some, words_nil]
  | cons c behind =>
    have blank : Text.isBlank c := by
      have := List.head?_dropWhile_not (!Text.isBlank ·) rest
      simpa [ends] using this
    rw [words_append_blank blank, words_of_solid solid some, words_cons_blank blank]
    rfl

theorem solid_of_mem_word (solid : ¬Text.isBlank c) :
    ∀ d ∈ c :: rest.takeWhile (!Text.isBlank ·), Text.isBlank d = false := by
  intro d there
  obtain rfl | there := List.mem_cons.mp there
  · simpa using solid
  · simpa using List.mem_takeWhile_imp there

theorem map_text_tokens (offset : Nat) (text : List Char) :
    (tokens offset text).map Token.text = words text := by
  induction offset, text using tokens.induct with
  | case1 => simp [tokens]
  | case2 offset c rest blank ih => rw [tokens, if_pos blank, ih, words_cons_blank blank]
  | case3 offset c rest solid word stop ih =>
    have whole : c :: rest = word ++ rest.dropWhile (!Text.isBlank ·) := by
      rw [List.cons_append, List.takeWhile_append_dropWhile]
    rw [tokens, if_neg solid, List.map_cons, ih, whole,
      words_append (solid_of_mem_word solid) (List.cons_ne_nil _ _)]

-- ---------------------------------------------------------------------------
-- Lines
-- ---------------------------------------------------------------------------

theorem contentOf_cons {others : List (List Char)} : contentOf (line :: others) =
    if words (withoutComment line) = [] then contentOf others
    else words (withoutComment line) :: contentOf others := by
  rw [contentOf, List.map_cons, List.filter_cons]
  split <;> simp_all [contentOf]

theorem lines_append (unbroken : '\n' ∉ line) :
    lines (line ++ '\n' :: rest) = (line ++ ['\n']) :: lines rest := by
  induction line with
  | nil => simp [lines]
  | cons c line ih =>
    obtain ⟨other, unbroken⟩ := not_or.mp (mt List.mem_cons.mpr unbroken)
    rw [List.cons_append, lines, if_neg (Ne.symm other), ih unbroken]
    rfl

theorem lines_of_unbroken (unbroken : '\n' ∉ text) : lines text = [text].filter (· ≠ []) := by
  induction text with
  | nil => simp [lines]
  | cons c text ih =>
    obtain ⟨other, unbroken⟩ := not_or.mp (mt List.mem_cons.mpr unbroken)
    rw [lines, if_neg (Ne.symm other), ih unbroken]
    cases text <;> simp

theorem words_withoutComment_break :
    words (withoutComment (line ++ ['\n'])) = words (withoutComment line) := by
  rw [withoutComment, List.takeWhile_append]
  split
  · next length =>
    have whole : withoutComment line = line := (List.takeWhile_prefix _).eq_of_length length
    have blank : Text.isBlank '\n' := by decide
    rw [whole]
    calc words (line ++ ['\n']) = words line ++ words [] := words_append_blank blank
      _ = words line := by rw [words_nil, List.append_nil]
  · rfl

theorem contentOf_lines (source : List Char) : contentOf (lines source) = content source := by
  induction size : source.length using Nat.strongRecOn generalizing source with
  | ind n ih =>
    by_cases broken : '\n' ∈ source
    · obtain ⟨line, rest, rfl, unbroken⟩ := List.eq_append_cons_of_mem broken
      have shorter : rest.length < n := by
        rw [← size, List.length_append, List.length_cons]
        omega
      have others := ih rest.length shorter rest rfl
      unfold content contentOf at others ⊢
      rw [lines_append unbroken, List.splitOn_append_cons_self_of_not_mem unbroken, List.map_cons,
        List.map_cons, words_withoutComment_break, List.filter_cons, List.filter_cons, others]
    · rw [content, lines_of_unbroken broken, List.splitOn_eq_singleton broken]
      cases source <;> simp [contentOf, withoutComment]

end SchedulerLearning.ModelFile

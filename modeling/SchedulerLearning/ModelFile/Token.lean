import SchedulerLearning.Text.Blank

/-!
# Lines and words of a model file

A file is cut into lines, each with its line break, and a line into words at blanks. Words
remember where they stand, in bytes of the encoded text.
-/

namespace SchedulerLearning.ModelFile

def byteLength (text : List Char) : Nat := text.foldr (fun c bytes => c.utf8Size + bytes) 0

structure Span where
  start : Nat
  stop : Nat
  deriving Repr, DecidableEq

structure Token where
  span : Span
  text : List Char
  deriving Repr, DecidableEq

/-- The lines of a text, each up to and with its line break. -/
def lines (text : List Char) : List (List Char) :=
  match text with
  | [] => []
  | c :: rest =>
    if c = '\n' then [c] :: lines rest
    else
      match lines rest with
      | [] => [[c]]
      | line :: others => (c :: line) :: others

def withoutComment (line : List Char) : List Char := line.takeWhile (· ≠ '#')

def tokens (offset : Nat) (text : List Char) : List Token :=
  match text with
  | [] => []
  | c :: rest =>
    if Text.isBlank c then tokens (offset + c.utf8Size) rest
    else
      let word := c :: rest.takeWhile (!Text.isBlank ·)
      let stop := offset + byteLength word
      ⟨⟨offset, stop⟩, word⟩ :: tokens stop (rest.dropWhile (!Text.isBlank ·))
termination_by text.length
decreasing_by
  · simp
  · exact Nat.lt_succ_of_le (List.dropWhile_sublist _).length_le

def Token.spanOf (first : Token) (others : List Token) : Span :=
  ⟨first.span.start, (others.getLast?.getD first).span.stop⟩

end SchedulerLearning.ModelFile

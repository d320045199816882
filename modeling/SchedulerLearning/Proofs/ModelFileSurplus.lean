import SchedulerLearning.Proofs.ModelFileMeaning

/-!
# Words that are not read

Every line of a file that is read is a declaration, or one of a single number with more words
behind it. Those words mean nothing: whatever stands in their place, the file is read as the same.
-/

namespace SchedulerLearning.ModelFile

def Overlong (words : List (List Char)) : Prop :=
  ∃ spelled surplus d, words = spelled ++ surplus ∧ surplus ≠ [] ∧ Spells spelled d ∧ d.Single

/-- Whether lines are the same but for the words behind a declaration of one number. -/
def SameButSurplus (line other : List (List Char)) : Prop :=
  line = other ∨ ∃ spelled surplus replaced d, line = spelled ++ surplus ∧ other = spelled ++ replaced ∧
    Spells spelled d ∧ d.Single

variable {words spelled surplus line other : List (List Char)} {lines others : List (List (List Char))}
  {d d' : Declaration} {ds : List Declaration} {text : String} {file : ModelFile}

theorem Spells.length_eq_two (h : Spells words d) (single : d.Single) : words.length = 2 := by
  cases h with
  | states | initial => rfl
  | goals | choice => cases single

theorem Spells.of_readAs (h : Spells spelled d) (single : d.Single)
    (read : ReadAs (spelled ++ surplus) d') : Spells spelled d' ∧ d'.Single := by
  cases h with
  | states =>
    obtain ⟨_, _, _, whole, number, rfl⟩ := readAs_states.mp read
    obtain ⟨rfl, -⟩ := List.cons.inj whole
    exact ⟨.states number, trivial⟩
  | initial =>
    obtain ⟨_, _, _, whole, number, rfl⟩ := readAs_initial.mp read
    obtain ⟨rfl, -⟩ := List.cons.inj whole
    exact ⟨.initial number, trivial⟩
  | goals | choice => cases single

theorem Overlong.not_spells (long : Overlong words) : ¬Spells words d := by
  obtain ⟨spelled, surplus, first, rfl, more, spells, single⟩ := long
  intro whole
  obtain ⟨-, alike⟩ := spells.of_readAs single whole.readAs
  have length := whole.length_eq_two alike
  rw [List.length_append, spells.length_eq_two single] at length
  exact more (List.eq_nil_of_length_eq_zero (Nat.add_left_cancel length))

theorem ReadAs.spells_or_overlong (read : ReadAs words d) : Spells words d ∨ Overlong words := by
  obtain ⟨spelled, surplus, rfl, spells, rest⟩ := read
  by_cases none : surplus = []
  · rw [none, List.append_nil]
    exact .inl spells
  · exact .inr ⟨spelled, surplus, d, rfl, none, spells, rest.resolve_left none⟩

theorem ReadAs.of_sameButSurplus (read : ReadAs line d) (same : SameButSurplus line other) :
    ReadAs other d := by
  obtain rfl | ⟨spelled, surplus, replaced, first, rfl, rfl, spells, single⟩ := same
  · exact read
  · obtain ⟨spells, single⟩ := spells.of_readAs single read
    exact ⟨spelled, replaced, rfl, spells, .inr single⟩

theorem forall₂_readAs_of_sameButSurplus (reads : List.Forall₂ ReadAs lines ds)
    (same : List.Forall₂ SameButSurplus lines others) : List.Forall₂ ReadAs others ds := by
  induction same generalizing ds with
  | nil => exact reads
  | cons first _ ih =>
    cases reads with
    | cons read reads => exact .cons (read.of_sameButSurplus first) (ih reads)

/-- A file is read only if its lines are declarations, but for words behind one number, and these
words mean nothing. -/
theorem accepts_grammar_with_surplus (parsed : parse text = .ok file) :
    (∀ line ∈ content text.toList, (∃ d, Spells line d) ↔ ¬Overlong line) ∧
    ∀ other : String, List.Forall₂ SameButSurplus (content text.toList) (content other.toList) →
      parse other = .ok file := by
  obtain ⟨count, ds, reads, complete, rfl⟩ := parseChars_eq_ok.mp parsed
  constructor
  · intro line there
    obtain ⟨d, read⟩ := forall₂_exists_left reads line there
    constructor
    · rintro ⟨d, spells⟩ long
      exact long.not_spells spells
    · intro short
      exact ⟨d, read.spells_or_overlong.resolve_right short⟩
  · intro other same
    exact parseChars_eq_ok.mpr ⟨count, ds, forall₂_readAs_of_sameButSurplus reads same, complete, rfl⟩

def misplaced : String := "states 2 0.5:1\ngoal 1\n"

theorem content_misplaced : content misplaced.toList =
    [["states".toList, "2".toList, "0.5:1".toList], ["goal".toList, "1".toList]] := by
  decide +kernel

theorem spells_two : Spells ["states".toList, "2".toList] (.states 2) := .states rfl

theorem spells_goal : Spells ["goal".toList, "1".toList] (.goals [1]) :=
  .goals (List.cons_ne_nil _ _) (.cons rfl .nil)

theorem parse_misplaced : parse misplaced = .ok (meaning 2 [.goals [1]]) := by
  refine parseChars_eq_ok.mpr ⟨2, [.goals [1]], ?_, ⟨by decide, by decide, by decide, by decide⟩, rfl⟩
  rw [content_misplaced]
  exact .cons ⟨_, ["0.5:1".toList], rfl, spells_two, .inr trivial⟩ (.cons spells_goal.readAs .nil)

theorem accepts_grammar_with_surplus_of_misplaced :
    ∃ file, parse misplaced = .ok file ∧ parse "states 2\ngoal 1\n" = .ok file := by
  obtain ⟨-, alike⟩ := accepts_grammar_with_surplus parse_misplaced
  refine ⟨_, parse_misplaced, alike _ ?_⟩
  have words : content "states 2\ngoal 1\n".toList =
      [["states".toList, "2".toList], ["goal".toList, "1".toList]] := by
    decide +kernel
  rw [content_misplaced, words]
  refine .cons (.inr ⟨_, ["0.5:1".toList], [], _, rfl, rfl, spells_two, trivial⟩) ?_
  exact .cons (.inl rfl) .nil

/-- The file is read, and its first line is no declaration. -/
theorem accepts_more_than_grammar :
    ¬∀ text file, parse text = .ok file → ∀ line ∈ content text.toList, ∃ d, Spells line d := by
  intro only
  have first : ["states".toList, "2".toList, "0.5:1".toList] ∈ content misplaced.toList := by
    rw [content_misplaced]
    exact .head _
  have long : Overlong ["states".toList, "2".toList, "0.5:1".toList] :=
    ⟨_, ["0.5:1".toList], _, rfl, List.cons_ne_nil _ _, spells_two, trivial⟩
  obtain ⟨d, spells⟩ := only misplaced _ parse_misplaced _ first
  exact long.not_spells spells

end SchedulerLearning.ModelFile

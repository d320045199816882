import SchedulerLearning.Proofs.ModelFileMeaning
import SchedulerLearning.Proofs.ModelFileRefusals

/-!
# The draft of a model file has no defects

What is checked line by line is all that is checked of a draft. So a file whose lines are read is
refused only for lack of a number of states or of a goal, and the model that its draft becomes knows
every state that it comes to.
-/

namespace SchedulerLearning.ModelFile

open ExplicitModel (Draft closed_of_build)

variable {p : Parser} {count : Nat} {source : List Char} {e : ParseError}
  {offers : List (Nat × List (Float × Nat))}

section
variable (read : Parser.start.readLines 0 (lines source) = .ok p) (declared : p.states = some count)
include read declared

theorem build_of_read : ∃ model, (p.drafted count).build = .ok model := by
  obtain ⟨ds, -, pos, within, held⟩ := exists_declarations read declared
  exact ⟨_, (build_drafted pos within held).mpr rfl⟩

/-- No offer is made at an unknown state, the last one no more than those before it. -/
theorem defect_of_read (some : offers <+: p.choices.toList) :
    (Draft.offerEach ⟨p.initial, .replicate count [], none⟩ offers).defect = none := by
  obtain ⟨ds, -, -, within, held⟩ := exists_declarations read declared
  have choices : p.choices.toList = ds.filterMap Declaration.choice? := held.choices
  refine Draft.defect_offerEach_eq_none.mpr ⟨rfl, fun offer there => ?_⟩
  have offered : offer ∈ ds.filterMap Declaration.choice? := choices ▸ some.subset there
  simpa using (choice_fits within offered).1

end

theorem parseChars_eq_refused : parseChars source = .error (.refused e) ↔
    Parser.start.readLines 0 (lines source) = .error e ∨
      ∃ p, Parser.start.readLines 0 (lines source) = .ok p ∧
        ((p.states = none ∧ ⟨.noCountDeclared, ⟨0, byteLength source⟩⟩ = e) ∨
          p.states.isSome ∧ p.goals.isEmpty ∧
            ⟨.noGoalDeclared, ⟨byteLength source, byteLength source⟩⟩ = e) := by
  unfold parseChars
  rw [bind_eq_error, mapError_eq_error]
  simp only [mapError_eq_ok, Stop.refused.injEq, exists_eq_right]
  refine or_congr_right (exists_congr fun p => and_congr_right fun read => ?_)
  cases declared : p.states with
  | none =>
    constructor
    · rintro ⟨⟩
      exact .inl ⟨rfl, rfl⟩
    · rintro (⟨-, rfl⟩ | ⟨⟨⟩, -⟩)
      rfl
  | some count =>
    obtain ⟨model, built⟩ := build_of_read read declared
    -- Behind the goals there is but a fault to stop at.
    have rest : ∀ goals : List Nat, (do
        let draft ← p.draft count
        let model ← draft.build.mapError fun e => Stop.refused ⟨.rejected e, p.initialSpan⟩
        return (⟨model, goals⟩ : ModelFile) : Except (Stop ParseError) ModelFile) ≠ .error (.refused e) := by
      intro goals refused
      obtain stopped | ⟨draft, made, refused⟩ := bind_eq_error.mp refused
      · obtain ⟨fault, -, ⟨⟩⟩ := mapError_eq_error.mp stopped
      · obtain ⟨-, rfl⟩ := draft_eq_ok.mp (lift_eq_ok.mp made)
        rw [built] at refused
        cases refused
    simp only [refusing_eq_error, Stop.refused.injEq, Option.isSome_some, reduceCtorEq, false_and, true_and,
      false_or, rest, and_false, or_false]

theorem cause_of_read_error (h : Parser.start.readLines 0 (lines source) = .error e) : e.cause.OfLine := by
  obtain ⟨_, _, _, _, -, -, refused⟩ := Parser.readLines_eq_error.mp h
  exact (Parser.marks_of_line refused).1

theorem not_rejected (error : ModelError Float) (span : Span) :
    parseChars source ≠ .error (.refused ⟨.rejected error, span⟩) := by
  intro refused
  obtain line | ⟨p, -, ⟨-, ⟨⟩⟩ | ⟨-, -, ⟨⟩⟩⟩ := parseChars_eq_refused.mp refused
  exact cause_of_read_error line

/-- No file is refused by the draft. If all lines are read, and there are a number of states and a
goal among them and room for the states, then no offer is a defect, the draft becomes a model, and
in every state that the model comes to its choices are found. -/
theorem builds_whatever_is_read (source : String) :
    (∀ error span, parse source ≠ .error (.refused ⟨.rejected error, span⟩)) ∧
    ∀ p count, Parser.start.readLines 0 (lines source.toList) = .ok p → p.states = some count →
      p.goals ≠ #[] → count ≤ Room.most 24 →
      ∃ began draft model goals, Draft.ofStates count = .ok began ∧
        (∀ offers, offers <+: p.choices.toList →
          ((began.startingAt p.initial).offerEach offers).defect = none) ∧
        p.draft count = .ok draft ∧ draft.build = .ok model ∧ parse source = .ok ⟨model, goals⟩ ∧
        ∀ s, model.process.Reachable s → ∃ offers, model.process.offers s = .ok offers := by
  refine ⟨fun error span => not_rejected error span, fun p count read declared named room => ?_⟩
  obtain ⟨model, built⟩ := build_of_read read declared
  have began : Draft.ofStates count = .ok (⟨0, .replicate count [], none⟩ : Draft Float) := by
    simp [Draft.ofStates, Room.claim, Nat.not_lt.mpr room]
  have parsed : parse source = .ok ⟨model, (p.goals.toList.mergeSort (· ≤ ·)).eraseReps⟩ :=
    parseChars_eq_ok_of_lines.mpr ⟨p, count, read, declared, by simpa using named, room, model, built, rfl⟩
  refine ⟨_, p.drafted count, model, _, began, fun offers some => defect_of_read read declared some,
    draft_eq_ok.mpr ⟨room, rfl⟩, built, parsed, fun s => (closed_of_build built).offers_of_reachable⟩

theorem builds_tosses : ∃ p, Parser.start.readLines 0 (lines tosses.toList) = .ok p ∧
    p.states = some 2 ∧ p.goals ≠ #[] ∧ 2 ≤ Room.most 24 ∧
    ∃ model goals, parse tosses = .ok ⟨model, goals⟩ ∧
      ∃ offers, model.process.offers (.ofIndex model.initial) = .ok offers := by
  have formed := wellFormed_tosses
  have reads := formed.spelled.imp fun _ _ => Spells.readAs
  rw [← contentOf_lines] at reads
  have order := inOrder_none.mpr (.inr ⟨2, _, rfl, by decide, formed.within⟩)
  obtain ⟨p, read, held⟩ := Parser.exists_readLines reads order Parser.holds_start 0
  have declared : p.states = some 2 := held.declared formed.within
  have named : p.goals ≠ #[] := by
    intro none
    have goals := held.goals
    rw [none] at goals
    cases goals
  obtain ⟨-, builds⟩ := builds_whatever_is_read tosses
  obtain ⟨-, -, model, goals, -, -, -, -, parsed, known⟩ := builds p 2 read declared named formed.room
  exact ⟨p, read, declared, named, formed.room, model, goals, parsed, known _ (.initial rfl)⟩

end SchedulerLearning.ModelFile

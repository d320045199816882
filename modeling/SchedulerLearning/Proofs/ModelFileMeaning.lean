import SchedulerLearning.Proofs.FloatOrder
import SchedulerLearning.Proofs.ModelFileReading
import SchedulerLearning.Proofs.ReachableStates
import Mathlib.Data.List.Destutter
import Mathlib.Data.List.Sort

/-!
# What a model file means

A file is read exactly if its lines are read as a number of states and declarations that suit it,
some state is named as a goal and there is room for the states. It means what these declare: the
last initial state, at every state its choices in order, and the goals in order without repetition.
-/

namespace SchedulerLearning.ModelFile

open ExplicitModel (encoded offeredAt offers_ofIndex)

def meaning (count : Nat) (ds : List Declaration) : ModelFile where
  model := {
    initial := (ds.filterMap Declaration.initial?).getLast?.getD 0
    choices := (Array.range count).map fun i =>
      (offeredAt i (ds.filterMap Declaration.choice?)).map encoded }
  goals := (List.range count).filter (· ∈ ds.flatMap Declaration.goalIndices)

/-- Whether a text consists of lines that declare so many states and then what belongs to a model
with them. -/
structure WellFormed (text : String) (count : Nat) (ds : List Declaration) : Prop where
  spelled : List.Forall₂ Spells (content text.toList) (.states count :: ds)
  pos : 1 ≤ count
  within : ∀ d ∈ ds, d.Within count
  goal : ∃ indices, .goals indices ∈ ds
  room : count ≤ Room.most 24

def Parser.drafted (p : Parser) (count : Nat) : ExplicitModel.Draft Float :=
  ExplicitModel.Draft.offerEach ⟨p.initial, .replicate count [], none⟩ p.choices.toList

structure Complete (count : Nat) (ds : List Declaration) : Prop where
  pos : count ≠ 0
  within : ∀ d ∈ ds, d.Within count
  goal : ds.flatMap Declaration.goalIndices ≠ []
  room : count ≤ Room.most 24

variable {p : Parser} {ds rest : List Declaration} {count i : Nat} {file : ModelFile}
  {source : List Char} {text : String} {draft : ExplicitModel.Draft Float} {model : ExplicitModel Float}

-- ---------------------------------------------------------------------------
-- Declarations of a model
-- ---------------------------------------------------------------------------

section
variable (within : ∀ d ∈ ds, d.Within count)
include within

theorem count?_eq_nil : ds.filterMap Declaration.count? = [] := by
  rw [List.filterMap_eq_nil_iff]
  intro d there
  have := within d there
  cases d with
  | states => contradiction
  | _ => rfl

theorem initial_lt (pos : count ≠ 0) : (ds.filterMap Declaration.initial?).getLast?.getD 0 < count := by
  cases last : (ds.filterMap Declaration.initial?).getLast? with
  | none => exact Nat.pos_of_ne_zero pos
  | some index =>
    obtain ⟨d, there, declared⟩ := List.mem_filterMap.mp (List.mem_of_getLast? last)
    have := within d there
    cases d with
    | initial => cases declared; exact this
    | _ => cases declared

theorem goal_lt (named : i ∈ ds.flatMap Declaration.goalIndices) : i < count := by
  obtain ⟨d, there, declared⟩ := List.mem_flatMap.mp named
  have := within d there
  cases d with
  | goals => exact this i declared
  | _ => cases declared

theorem choice_fits {c : Nat × List (Float × Nat)} (offered : c ∈ ds.filterMap Declaration.choice?) :
    c.1 < count ∧ ExplicitModel.Fits count c.2 := by
  obtain ⟨d, there, declared⟩ := List.mem_filterMap.mp offered
  have := within d there
  cases d with
  | choice =>
    cases declared
    obtain ⟨source, branches, sum⟩ := this
    refine ⟨source, fun b there => (branches b there).2.2, sum, fun b there below => ?_⟩
    exact FloatOrder.lt_irrefl _ (FloatOrder.lt_of_lt_of_le below (branches b there).1)
  | _ => cases declared

theorem Parser.Holds.declared (held : p.Holds (.states count :: ds)) : p.states = some count := by
  rw [held.states, List.filterMap_cons, count?_eq_nil within]
  rfl

end

-- ---------------------------------------------------------------------------
-- Goals
-- ---------------------------------------------------------------------------

theorem loop_eq_append {x : Nat} {xs kept : List Nat} :
    List.eraseRepsBy.loop (· == ·) x xs kept = kept.reverse ++ xs.destutter' (· ≠ ·) x := by
  induction xs generalizing x kept with
  | nil => simp [List.eraseRepsBy.loop]
  | cons y xs ih =>
    rw [List.eraseRepsBy.loop, List.destutter'_cons]
    by_cases same : x = y
    · simp [same, ih]
    · rw [beq_false_of_ne same]
      simp [same, ih]

theorem eraseReps_eq_destutter {xs : List Nat} : xs.eraseReps = xs.destutter (· ≠ ·) := by
  cases xs with
  | nil => rfl
  | cons x xs => exact loop_eq_append

/-- Sorted and without repetitions, states are listed as they are counted. -/
theorem sorted_goals {named : List Nat} (inside : ∀ i ∈ named, i < count) :
    (named.mergeSort (· ≤ ·)).eraseReps = (List.range count).filter (· ∈ named) := by
  have sorted : (named.mergeSort (· ≤ ·)).Pairwise (· ≤ ·) := List.pairwise_mergeSort' _ _
  rw [eraseReps_eq_destutter, sorted.destutter_eq_dedup]
  have strict : (named.mergeSort (· ≤ ·)).dedup.Pairwise (· < ·) :=
    ((sorted.sublist (List.dedup_sublist _)).and (List.nodup_dedup _)).imp fun h => lt_of_le_of_ne h.1 h.2
  refine strict.eq_of_mem_iff (List.pairwise_lt_range.filter _) fun i => ?_
  simp only [List.mem_dedup, List.mem_mergeSort, List.mem_filter, List.mem_range, decide_eq_true_eq]
  exact (and_iff_right_of_imp (inside i)).symm

-- ---------------------------------------------------------------------------
-- Models
-- ---------------------------------------------------------------------------

theorem lift_eq_ok {ε τ : Type} {x : Except Fault τ} {a : τ} :
    (liftM x : Except (Stop ε) τ) = .ok a ↔ x = .ok a := mapError_eq_ok

theorem draft_eq_ok : p.draft count = .ok draft ↔ count ≤ Room.most 24 ∧ draft = p.drafted count := by
  have offers : p.drafted count = p.choices.foldl (fun d offer => d.offer offer.1 offer.2)
      ⟨p.initial, .replicate count [], none⟩ := Array.foldl_toList _
  unfold Parser.draft ExplicitModel.Draft.ofStates Room.claim
  split
  · next crowded => exact iff_of_false nofun fun h => Nat.not_lt.mpr h.1 crowded
  · next room =>
    rw [and_iff_right (Nat.not_lt.mp room), offers]
    exact pure_eq_ok

theorem build_drafted (pos : count ≠ 0) (within : ∀ d ∈ ds, d.Within count)
    (held : p.Holds (.states count :: ds)) :
    (p.drafted count).build = .ok model ↔ model = (meaning count ds).model := by
  have initial : p.initial = (ds.filterMap Declaration.initial?).getLast?.getD 0 := held.initial
  have choices : p.choices.toList = ds.filterMap Declaration.choice? := held.choices
  have states : (p.drafted count).choices.size = count := by simp [Parser.drafted]
  have fits : ∀ i, ∀ branches ∈ offeredAt i (ds.filterMap Declaration.choice?),
      ExplicitModel.Fits count branches := by
    intro i branches there
    obtain ⟨c, offered, rfl⟩ := List.mem_map.mp there
    exact (choice_fits within (List.mem_of_mem_filter offered)).2
  have known : ∀ c ∈ ds.filterMap Declaration.choice?, c.1 < count :=
    fun c there => (choice_fits within there).1
  have all : ∀ offered ∈ (Array.range count).map (offeredAt · (ds.filterMap Declaration.choice?)),
      ∀ branches ∈ offered, ExplicitModel.Fits count branches := by
    intro offered there
    obtain ⟨i, -, rfl⟩ := Array.mem_map.mp there
    exact fits i
  have same : (meaning count ds).model = ⟨(ds.filterMap Declaration.initial?).getLast?.getD 0,
      ((Array.range count).map (offeredAt · (ds.filterMap Declaration.choice?))).map (·.map encoded)⟩ := by
    simp [meaning, Function.comp_def]
  rw [ExplicitModel.Draft.build_eq_ok, states, same]
  unfold Parser.drafted
  rw [ExplicitModel.Draft.defect_offerEach_eq_none, ExplicitModel.Draft.choices_offerEach,
    ExplicitModel.Draft.initial_offerEach, initial, choices, Array.size_replicate]
  constructor
  · rintro ⟨-, -, -, made⟩
    exact made
  · rintro made
    exact ⟨⟨rfl, known⟩, initial_lt within pos, all, made⟩

theorem parseChars_eq_ok_of_lines : parseChars source = .ok file ↔ ∃ p count,
    Parser.start.readLines 0 (lines source) = .ok p ∧ p.states = some count ∧ p.goals.toList ≠ [] ∧
      count ≤ Room.most 24 ∧ ∃ model, (p.drafted count).build = .ok model ∧
        file = ⟨model, (p.goals.toList.mergeSort (· ≤ ·)).eraseReps⟩ := by
  unfold parseChars
  simp only [bind_eq_ok, mapError_eq_ok]
  refine exists_congr fun p => ?_
  cases p.states with
  | none => simp [throw_ne_ok]
  | some count =>
    simp only [refusing_eq_ok, bind_eq_ok, lift_eq_ok, draft_eq_ok, mapError_eq_ok, pure_eq_ok]
    constructor
    · rintro ⟨read, named, _, ⟨room, rfl⟩, model, built, rfl⟩
      exact ⟨count, read, rfl, by simpa using named, room, model, built, rfl⟩
    · rintro ⟨count, read, declared, named, room, model, built, rfl⟩
      cases declared
      exact ⟨read, by simpa using named, _, ⟨room, rfl⟩, model, built, rfl⟩

theorem exists_declarations (read : Parser.start.readLines 0 (lines source) = .ok p)
    (declared : p.states = some count) :
    ∃ ds, List.Forall₂ ReadAs (content source) (.states count :: ds) ∧ count ≠ 0 ∧
      (∀ d ∈ ds, d.Within count) ∧ p.Holds (.states count :: ds) := by
  obtain ⟨ds, reads, order, held⟩ := Parser.readLines_eq_ok read Parser.holds_start
  rw [List.nil_append] at held
  rw [contentOf_lines] at reads
  obtain rfl | ⟨n, ds, rfl, pos, within⟩ := inOrder_none.mp order
  · cases held.states.symm.trans declared
  · obtain rfl := Option.some.inj ((held.declared within).symm.trans declared)
    exact ⟨ds, reads, pos, within, held⟩

theorem parseChars_eq_ok : parseChars source = .ok file ↔ ∃ count ds,
    List.Forall₂ ReadAs (content source) (.states count :: ds) ∧ Complete count ds ∧
      file = meaning count ds := by
  rw [parseChars_eq_ok_of_lines]
  constructor
  · rintro ⟨p, count, read, declared, named, room, model, built, rfl⟩
    obtain ⟨ds, reads, pos, within, held⟩ := exists_declarations read declared
    have goals : p.goals.toList = ds.flatMap Declaration.goalIndices := held.goals
    rw [goals] at named ⊢
    refine ⟨count, ds, reads, ⟨pos, within, named, room⟩, ?_⟩
    rw [(build_drafted pos within held).mp built, sorted_goals fun i => goal_lt within]
    rfl
  · rintro ⟨count, ds, reads, ⟨pos, within, named, room⟩, rfl⟩
    rw [← contentOf_lines] at reads
    have order : InOrder Parser.start.states (.states count :: ds) :=
      inOrder_none.mpr (.inr ⟨count, ds, rfl, pos, within⟩)
    obtain ⟨p, read, held⟩ := Parser.exists_readLines reads order Parser.holds_start 0
    have goals : p.goals.toList = ds.flatMap Declaration.goalIndices := held.goals
    refine ⟨p, count, read, held.declared within, ?_⟩
    rw [goals, sorted_goals fun i => goal_lt within]
    exact ⟨named, room, _, (build_drafted pos within held).mpr rfl, rfl⟩

-- ---------------------------------------------------------------------------
-- Well-formed files
-- ---------------------------------------------------------------------------

theorem Spells.readAs {words : List (List Char)} {d : Declaration} (h : Spells words d) : ReadAs words d :=
  ⟨words, [], (List.append_nil words).symm, h, .inl rfl⟩

theorem Spells.goals_ne_nil {words : List (List Char)} {indices : List Nat}
    (h : Spells words (.goals indices)) : indices ≠ [] := by
  cases h with
  | goals nonempty read => exact (forall₂_ne_nil read).mp nonempty

theorem WellFormed.complete (formed : WellFormed text count ds) : Complete count ds where
  pos := Nat.one_le_iff_ne_zero.mp formed.pos
  within := formed.within
  goal := by
    obtain ⟨indices, there⟩ := formed.goal
    obtain ⟨words, spelled⟩ := forall₂_exists_left formed.spelled.flip _ (.tail _ there)
    intro none
    exact spelled.goals_ne_nil (List.flatMap_eq_nil_iff.mp none _ there)
  room := formed.room

/-- A well-formed file is read as the model that its lines describe, whatever its comments and
however its words are set. -/
theorem parses_as_declared (formed : WellFormed text count ds) : ∃ file, parse text = .ok file ∧
    file.model.states = count ∧
    file.model.process.initial =
      .ok (.ofIndex ((ds.filterMap Declaration.initial?).getLast?.getD 0)) ∧
    (∀ i < count, file.model.process.offers (.ofIndex i) =
      .ok ((offeredAt i (ds.filterMap Declaration.choice?)).map encoded)) ∧
    file.goals.Pairwise (· < ·) ∧
    (∀ i, i ∈ file.goals ↔ ∃ indices, .goals indices ∈ ds ∧ i ∈ indices) ∧
    ∀ other : String, content other.toList = content text.toList → parse other = .ok file := by
  have reads : List.Forall₂ ReadAs (content text.toList) (.states count :: ds) :=
    formed.spelled.imp fun _ _ => Spells.readAs
  have parsed : ∀ other : String, content other.toList = content text.toList →
      parse other = .ok (meaning count ds) := by
    intro other same
    exact parseChars_eq_ok.mpr ⟨count, ds, same ▸ reads, formed.complete, rfl⟩
  have states : (meaning count ds).model.states = count := by simp [meaning, ExplicitModel.states]
  refine ⟨meaning count ds, parsed text rfl, states, rfl, ?_, ?_, ?_, parsed⟩
  · intro i inside
    rw [offers_ofIndex (by rwa [states])]
    simp [meaning, inside]
  · exact List.pairwise_lt_range.filter _
  · intro i
    simp only [meaning, List.mem_filter, List.mem_range, decide_eq_true_eq]
    rw [and_iff_right_of_imp (goal_lt formed.within), List.mem_flatMap]
    constructor
    · rintro ⟨d, there, named⟩
      cases d with
      | goals indices => exact ⟨indices, there, named⟩
      | _ => cases named
    · rintro ⟨indices, there, named⟩
      exact ⟨_, there, named⟩

def tosses : String := "# tossed until it shows\nstates 2\n0\t-> 0.5:0  0.5:1 # toss\n\ngoal 1 1\n"

theorem wellFormed_tosses : WellFormed tosses 2 [.choice 0 [(0.5, 0), (0.5, 1)], .goals [1, 1]] where
  spelled := by
    have words : content tosses.toList = [["states", "2"], ["0", "->", "0.5:0", "0.5:1"],
        ["goal", "1", "1"]].map (·.map String.toList) := by decide +kernel
    have half : Decimal.number? "0.5".toList = some 0.5 := by decide +kernel
    rw [words]
    refine .cons (.states rfl) (.cons (.choice rfl (List.cons_ne_nil _ _) (.cons ?_ (.cons ?_ .nil)))
      (.cons (.goals (List.cons_ne_nil _ _) (.cons rfl (.cons rfl .nil))) .nil))
    · exact ⟨_, "0".toList, rfl, half, rfl⟩
    · exact ⟨_, "1".toList, rfl, half, rfl⟩
  pos := by decide
  within := by decide +kernel
  goal := ⟨_, .tail _ (.head _)⟩
  room := by decide

/-- Without its comments, blanks and empty line the file means the same. -/
theorem parses_as_declared_of_tosses : WellFormed tosses 2 [.choice 0 [(0.5, 0), (0.5, 1)], .goals [1, 1]] ∧
    ∃ file, parse tosses = .ok file ∧ file.model.states = 2 ∧
      file.model.process.offers (.ofIndex 0) = .ok [[(0.5, .ofIndex 0), (0.5, .ofIndex 1)]] ∧
      1 ∈ file.goals ∧ parse "states 2\n0 -> 0.5:0 0.5:1\ngoal 1 1" = .ok file := by
  obtain ⟨file, parsed, states, -, offers, -, named, spaced⟩ := parses_as_declared wellFormed_tosses
  refine ⟨wellFormed_tosses, file, parsed, states, offers 0 (by decide), ?_, spaced _ ?_⟩
  · exact (named 1).mpr ⟨_, .tail _ (.head _), .head _⟩
  · decide +kernel

end SchedulerLearning.ModelFile

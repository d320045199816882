import SchedulerLearning.Proofs.ModelFileMeaning
import SchedulerLearning.Proofs.Sampling
import SchedulerLearning.Proofs.SimulatedPaths

/-!
# When a branch without probability is drawn

The probabilities of a choice may miss one by a tolerance, and the last branch takes the numbers that
no cumulative probability exceeds. In exact arithmetic, a branch without probability is drawn by these
numbers alone, and only if it is the last one of its choice.
-/

namespace SchedulerLearning

open SchedulerLearning.Random (Source)

namespace Distribution

-- ---------------------------------------------------------------------------
-- The branch that a number selects
-- ---------------------------------------------------------------------------

section
variable {α : Type} [Scalar α] {x reached : α} {d : Distribution α}

def selected (x : α) (d : Distribution α) : Nat := (⟨d.map Prod.fst⟩ : Mixture α).sample x

theorem pickFrom_eq : pickFrom x reached d =
    (Mixture.sampleFrom x reached 0 (d.map Prod.fst)).bind fun i => d[i]?.map Prod.snd := by
  induction d generalizing reached with
  | nil => rfl
  | cons b rest ih =>
    rw [List.map_cons, pickFrom, Mixture.sampleFrom]
    split
    · rfl
    · rw [ih, Mixture.sampleFrom_succ, Option.bind_map]
      rfl

theorem pick?_eq : d.pick? x = d[selected x d]?.map Prod.snd := by
  unfold pick? selected Mixture.sample
  rw [pickFrom_eq]
  cases drawn : Mixture.sampleFrom x 0 0 (d.map Prod.fst) with
  | none => simp [Mixture.size, List.getLast?_eq_getElem?]
  | some i =>
    have inside := Mixture.sampleFrom_lt drawn
    simp at inside
    simp [inside]

end

-- ---------------------------------------------------------------------------
-- Numbers beyond the total
-- ---------------------------------------------------------------------------

variable {source : State} {d : Distribution Rat} {x : Rat}

/-- Whether a number is left over by the branches and the last one, which takes it, has no
probability. -/
def FallsThrough (d : Distribution Rat) (x : Rat) : Prop :=
  total d ≤ x ∧ d.getLast?.map Prod.fst = some 0

theorem total_of_check (accepted : d.check source = .ok ()) : 1 - tolerance ≤ total d := by
  obtain ⟨close, -⟩ := check_eq_ok.mp accepted
  rw [Scalar.abs_rat, not_lt] at close
  have := neg_le_of_abs_le close
  linarith

theorem selected_of_check (accepted : d.check source = .ok ()) (low : 0 ≤ x) :
    ∃ b, d[d.selected x]? = some b ∧ d.pick? x = some b.2 ∧ 0 ≤ b.1 ∧ (b.1 = 0 ↔ d.FallsThrough x) := by
  have nonneg : ∀ p ∈ d.map Prod.fst, 0 ≤ p := by
    rw [List.forall_mem_map]
    exact fun b there => not_lt.mp ((check_eq_ok.mp accepted).2 b there)
  have some : 0 < d.length := by
    refine List.length_pos_iff.mpr ?_
    rintro rfl
    have close := total_of_check accepted
    norm_num [total_eq, tolerance] at close
  have inside : d.selected x < d.length := by
    have := Mixture.sample_lt (m := ⟨d.map Prod.fst⟩) (by simpa [Mixture.size] using some) x
    simpa [selected, Mixture.size] using this
  have there : d[d.selected x]? = Option.some d[d.selected x] := List.getElem?_eq_getElem inside
  refine ⟨_, there, by simp [pick?_eq, inside], nonneg _ (List.mem_map_of_mem (List.getElem_mem inside)), ?_⟩
  rw [FallsThrough, total_eq, ← List.getLast?_map]
  refine Mixture.probability_sample (m := ⟨d.map Prod.fst⟩) nonneg low ?_
  exact (List.getElem?_map ..).trans (congrArg (Option.map Prod.fst) there)
end Distribution

-- ---------------------------------------------------------------------------
-- Models by enumeration
-- ---------------------------------------------------------------------------

namespace ExplicitModel

section
variable {α : Type} {d : Draft α} {m : ExplicitModel α} {s source : State}
  {offers : List (Distribution α)} {branches : Distribution α}

theorem mem_of_offers (found : m.process.offers s = .ok offers) : offers ∈ m.choices := by
  obtain ⟨i, index, found⟩ := bind_eq_ok.mp found
  have index := mapError_eq_ok.mp index
  have inside : i < m.choices.size := by
    unfold ExplicitModel.index at index
    split at index
    · split at index
      · next within =>
        cases index
        exact within.2
      · cases index
    · cases index
  cases pure_eq_ok.mp found
  simp [Array.getD, inside]

variable [Scalar α]

theorem check_of_build (built : d.build = .ok m) (offered : offers ∈ m.choices) (choice : branches ∈ offers) :
    branches.check source = .ok () := by
  obtain ⟨-, -, fits, rfl⟩ := Draft.build_eq_ok.mp built
  obtain ⟨drafted, made, rfl⟩ := Array.mem_map.mp offered
  obtain ⟨branches, offer, rfl⟩ := List.mem_map.mp choice
  obtain ⟨-, sum, nonneg⟩ := fits drafted made branches offer
  refine Distribution.check_eq_ok.mpr ⟨by rwa [Draft.total_encoded], ?_⟩
  exact List.forall_mem_map.mpr nonneg

end

end ExplicitModel

/-- In exact arithmetic: among branches that pass for a distribution, a number from zero to one draws
one without probability exactly if it is at or beyond the total, which may miss one by the tolerance,
and the last branch has no probability. All choices of a model by enumeration pass, those of a model
file among them, so the steps of a trace through it are along branches with a probability but for such
draws. -/
theorem impossible_only_beyond_total (source : State) (d : Distribution Rat) (x : Rat)
    (accepted : d.check source = .ok ()) (low : 0 ≤ x) :
    1 - Distribution.tolerance ≤ Distribution.total d ∧
    (∃ b, d[d.selected x]? = some b ∧ d.pick? x = some b.2 ∧ 0 ≤ b.1 ∧ (b.1 = 0 ↔ d.FallsThrough x)) ∧
    (∀ (draft : ExplicitModel.Draft Rat) (m : ExplicitModel Rat) (ρ κ : Type) (draws : Source ρ Rat)
      (resolve : Resolver κ) (initial : State) (bound : Nat) (r r' : ρ) (k k' : κ) (t : Trace),
      draft.build = .ok m → (∀ r, 0 ≤ (draws.unit r).1 ∧ (draws.unit r).1 < 1) →
      m.process.simulate draws resolve initial bound r k = (.ok t, r', k') →
      ∀ i < t.length, ∃ step next offers branches b, t.steps[i]? = some step ∧
        t.state? i = some step.state ∧ t.state? (i + 1) = some next ∧
        m.process.offers step.state = .ok offers ∧ offers[step.choice]? = some branches ∧
        branches[branches.selected (draws.unit (draws.after r i)).1]? = some b ∧ b.2 = next ∧
        0 ≤ b.1 ∧ (b.1 = 0 ↔ branches.FallsThrough (draws.unit (draws.after r i)).1)) ∧
    ∀ (text : String) (file : ModelFile), ModelFile.parse text = .ok file →
      ∀ offers ∈ file.model.choices, ∀ branches ∈ offers, ∀ s : State, branches.check s = .ok () := by
  refine ⟨Distribution.total_of_check accepted, Distribution.selected_of_check accepted low, ?_, ?_⟩
  · intro draft m ρ κ draws resolve initial bound r r' k k' t built unit ran i inside
    obtain ⟨-, path, -⟩ := DecisionProcess.simulate_eq_ok_iff.mp ran
    obtain ⟨step, next, offers, branches, taken, here, there, offered, -, -, -, -, chosen, drawn⟩ :=
      (path.takes i inside).inside
    have passes : branches.check step.state = .ok () :=
      ExplicitModel.check_of_build built (ExplicitModel.mem_of_offers offered) (List.mem_of_getElem? chosen)
    obtain ⟨b, selected, picked, nonneg, impossible⟩ :=
      Distribution.selected_of_check passes (unit (draws.after r i)).1
    have same : b.2 = next := Option.some.inj (picked.symm.trans drawn)
    exact ⟨step, next, offers, branches, b, taken, here, there, offered, chosen, selected, same, nonneg,
      impossible⟩
  · intro text file read offers offered branches choice s
    obtain ⟨_, _, -, -, -, -, model, built, rfl⟩ := ModelFile.parseChars_eq_ok_of_lines.mp read
    exact ExplicitModel.check_of_build built offered choice

-- A state that is never left, though its only way to stay misses one by a part in a thousand millions.
namespace Leak

def branches : Distribution Rat := [(0.999999999, .ofIndex 0), (0, .ofIndex 1)]

def draft : ExplicitModel.Draft Rat :=
  (⟨0, .replicate 2 [], none⟩ : ExplicitModel.Draft Rat).offer 0 [(0.999999999, 0), (0, 1)]

def model : ExplicitModel Rat := ⟨0, #[[branches], []]⟩

def only (x : Rat) : Source Unit Rat := ⟨fun _ => (x, ()), fun _ _ => (0, ())⟩

theorem accepted (source : State) : branches.check source = .ok () := by
  refine Distribution.check_eq_ok.mpr ⟨?_, ?_⟩
  · norm_num [Distribution.total_eq, branches, Distribution.tolerance, Scalar.abs_rat]
  · norm_num [branches]

theorem built : draft.build = .ok model := by
  have choices : draft.choices = #[[[((0.999999999 : Rat), 0), (0, 1)]], []] := rfl
  have fits : ExplicitModel.Fits 2 [((0.999999999 : Rat), 0), (0, 1)] := by
    obtain ⟨sum, nonneg⟩ := Distribution.check_eq_ok.mp (accepted (.ofIndex 0))
    exact ⟨by simp, sum, by norm_num⟩
  refine ExplicitModel.Draft.build_eq_ok.mpr ⟨rfl, by decide, ?_, ?_⟩
  · simpa [choices] using fits
  · simp [choices, model, branches, ExplicitModel.encoded]
    rfl

theorem offered : model.process.offers (.ofIndex 0) = .ok [branches] :=
  ExplicitModel.offers_ofIndex (m := model) (by decide)

def next (x : Rat) : State := if x < 0.999999999 then .ofIndex 0 else .ofIndex 1

theorem drawn (x : Rat) : branches.pick? x = some (next x) := by
  have sum : (0.999999999 : Rat) + 0 = 0.999999999 := add_zero _
  unfold Distribution.pick? branches next
  simp only [Distribution.pickFrom, zero_add, sum]
  split <;> rfl

def trace (x : Rat) : Trace := (Trace.start (.ofIndex 0)).push 0 1 (next x)

theorem simulated (x : Rat) : model.process.simulate (only x) .first (.ofIndex 0) 1 () () =
    (.ok (trace x), (), ()) := by
  have takes : model.process.Takes (only x) .first (.ofIndex 0) () () 0 1 (next x) :=
    ⟨[branches], branches, offered, rfl, rfl, rfl, drawn x⟩
  rw [DecisionProcess.simulate_of_room (by decide), DecisionProcess.continueFrom_of_takes takes]
  rfl

end Leak

theorem impossible_only_beyond_total_of_half :
    (∃ b, Leak.branches[Leak.branches.selected (1 / 2)]? = some b ∧ 0 ≤ b.1 ∧ b.1 ≠ 0) ∧
    (∃ step next offers branches b, (Leak.trace (1 / 2)).steps[0]? = some step ∧
      (Leak.trace (1 / 2)).state? 1 = some next ∧ Leak.model.process.offers step.state = .ok offers ∧
      offers[step.choice]? = some branches ∧ b ∈ branches ∧ b.2 = next ∧
      (b.1 = 0 ↔ branches.FallsThrough (1 / 2))) ∧
    ∃ file, ModelFile.parse ModelFile.tosses = .ok file ∧
      ∀ offers ∈ file.model.choices, ∀ branches ∈ offers, branches.check (.ofIndex 0) = .ok () := by
  obtain ⟨-, ⟨b, there, -, nonneg, impossible⟩, traces, files⟩ :=
    impossible_only_beyond_total (.ofIndex 0) _ (1 / 2) (Leak.accepted _) (by norm_num)
  refine ⟨?_, ?_, ?_⟩
  · refine ⟨b, there, nonneg, fun zero => ?_⟩
    have beyond := (impossible.mp zero).1
    norm_num [Distribution.total_eq, Leak.branches] at beyond
  · have unit : ∀ r, 0 ≤ ((Leak.only (1 / 2)).unit r).1 ∧ ((Leak.only (1 / 2)).unit r).1 < 1 :=
      fun _ => by norm_num [Leak.only]
    obtain ⟨step, next, offers, branches, b, taken, -, there, offered, chosen, selected, same, -, rest⟩ :=
      traces _ _ _ _ _ _ _ 1 _ _ _ _ _ Leak.built unit (Leak.simulated (1 / 2)) 0 (by decide)
    exact ⟨step, next, offers, branches, b, taken, there, offered, chosen,
      List.mem_of_getElem? selected, same, rest⟩
  · have formed := ModelFile.wellFormed_tosses
    have parsed := ModelFile.parseChars_eq_ok.mpr
      ⟨2, _, formed.spelled.imp fun _ _ => ModelFile.Spells.readAs, formed.complete, rfl⟩
    exact ⟨_, parsed, fun offers offered branches choice =>
      files _ _ parsed offers offered branches choice _⟩

/-- A number in the gap leads where all branches are without probability. -/
theorem impossible_drawn :
    Leak.draft.build = .ok Leak.model ∧ Leak.model.process.offers (.ofIndex 0) = .ok [Leak.branches] ∧
      Leak.branches.check (.ofIndex 0) = .ok () ∧
      Leak.branches.pick? 0.9999999995 = some (.ofIndex 1) ∧
      (∀ b ∈ Leak.branches, b.2 = .ofIndex 1 → b.1 = 0) ∧
      (Leak.model.process.simulate (Leak.only 0.9999999995) .first (.ofIndex 0) 1 () ()).1 =
        .ok ((Trace.start (.ofIndex 0)).push 0 1 (.ofIndex 1)) := by
  have gap : Leak.next 0.9999999995 = .ofIndex 1 := if_neg (by norm_num)
  refine ⟨Leak.built, Leak.offered, Leak.accepted _, ?_, ?_, ?_⟩
  · rw [Leak.drawn, gap]
  · have apart : State.ofIndex 0 ≠ .ofIndex 1 := by simp [State.ofIndex, State.ofVars]
    simp [Leak.branches, apart]
  · rw [Leak.simulated, Leak.trace, gap]

end SchedulerLearning

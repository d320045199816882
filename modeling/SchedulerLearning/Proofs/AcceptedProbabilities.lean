import SchedulerLearning.Proofs.EnumeratedModels
import SchedulerLearning.Proofs.FloatSums

/-!
# What passes for a distribution

A model by enumeration is made by calls that name the initial state and offer choices. In floating
point its choices are distributions, except for those in which some probability is no number: their
sum is no number either, and compares with nothing.
-/

namespace SchedulerLearning.ExplicitModel

open FloatSums

inductive Call
  | startAt (initial : Nat)
  | offer (source : Nat) (branches : List (Float × Nat))

variable {d : Draft Float} {calls : List Call} {branches : List (Float × Nat)} {states : Nat}

-- ---------------------------------------------------------------------------
-- Calls
-- ---------------------------------------------------------------------------

def initialFrom (start : Nat) : List Call → Nat
  | [] => start
  | .startAt initial :: rest => initialFrom initial rest
  | .offer _ _ :: rest => initialFrom start rest

def offersOf : List Call → List (Nat × List (Float × Nat))
  | [] => []
  | .startAt _ :: rest => offersOf rest
  | .offer source branches :: rest => (source, branches) :: offersOf rest

namespace Draft

def call (d : Draft Float) : Call → Draft Float
  | .startAt initial => d.startingAt initial
  | .offer source branches => d.offer source branches

def callEach (d : Draft Float) (calls : List Call) : Draft Float := calls.foldl call d

theorem offer_startingAt (d : Draft Float) (initial source : Nat) (branches : List (Float × Nat)) :
    (d.startingAt initial).offer source branches = (d.offer source branches).startingAt initial := by
  unfold offer startingAt
  split <;> rfl

theorem offerEach_startingAt (d : Draft Float) (initial : Nat) (offers : List (Nat × List (Float × Nat))) :
    (d.startingAt initial).offerEach offers = (d.offerEach offers).startingAt initial := by
  induction offers generalizing d with
  | nil => rfl
  | cons offer rest ih =>
    show ((d.startingAt initial).offer offer.1 offer.2).offerEach rest = _
    rw [offer_startingAt, ih]
    rfl

/-- Offers and initial states do not disturb each other. -/
theorem callEach_eq (d : Draft Float) (calls : List Call) :
    d.callEach calls = (d.offerEach (offersOf calls)).startingAt (initialFrom d.initial calls) := by
  induction calls generalizing d with
  | nil => rfl
  | cons call rest ih =>
    cases call with
    | startAt initial =>
      show (d.startingAt initial).callEach rest = _
      rw [ih, offerEach_startingAt]
      rfl
    | offer source branches =>
      show (d.offer source branches).callEach rest = _
      rw [ih, initial_offer]
      rfl

end Draft

-- ---------------------------------------------------------------------------
-- Probabilities
-- ---------------------------------------------------------------------------

/-- Whether branches have the probabilities of a distribution. -/
structure Proper (branches : List (Float × Nat)) : Prop where
  some : branches ≠ []
  nonneg : ∀ b ∈ branches, 0 ≤ b.1
  sum : Scalar.abs (Distribution.total branches - 1) ≤ Distribution.tolerance

/-- Whether some probability is no number, and none is a negative one. -/
structure Numberless (branches : List (Float × Nat)) : Prop where
  nan : ∃ b ∈ branches, b.1.isNaN
  nonneg : ∀ b ∈ branches, ¬b.1 < 0

theorem Proper.isNumber (proper : Proper branches) : ∀ b ∈ branches, ¬b.1.isNaN :=
  fun b there => not_isNaN_of_nonneg (proper.nonneg b there)

theorem isNaN_distance (x : Float) : (Scalar.abs (x - 1)).isNaN ↔ x.isNaN :=
  isNaN_abs.trans (isNaN_sub rfl)

theorem not_beyond_iff (nonneg : ∀ b ∈ branches, 0 ≤ b.1) :
    ¬Distribution.tolerance < Scalar.abs (Distribution.total branches - 1) ↔
      Scalar.abs (Distribution.total branches - 1) ≤ (Distribution.tolerance : Float) := by
  have total : (0 : Float) ≤ Distribution.total branches := nonneg_sum (List.forall_mem_map.mpr nonneg)
  refine not_lt_iff ?_ ?_
  · decide
  · exact mt (isNaN_distance _).mp (not_isNaN_of_nonneg total)

theorem not_beyond_of_isNaN (nan : ∃ b ∈ branches, b.1.isNaN) :
    ¬Distribution.tolerance < Scalar.abs (Distribution.total branches - 1) := by
  obtain ⟨b, there, nan⟩ := nan
  have total : (Distribution.total branches).isNaN := isNaN_sum ⟨b.1, List.mem_map_of_mem there, nan⟩
  exact not_lt_of_isNaN ((isNaN_distance _).mpr total)

theorem fits_iff : Fits states branches ↔
    (∀ b ∈ branches, b.2 < states) ∧ (Proper branches ∨ Numberless branches) := by
  constructor
  · rintro ⟨known, sum, nonneg⟩
    refine ⟨known, ?_⟩
    by_cases nan : ∃ b ∈ branches, b.1.isNaN
    · exact .inr ⟨nan, nonneg⟩
    · have number : ∀ b ∈ branches, ¬b.1.isNaN := fun b there lost => nan ⟨b, there, lost⟩
      have nonneg : ∀ b ∈ branches, 0 ≤ b.1 :=
        fun b there => (not_lt_iff (number b there) (by decide)).mp (nonneg b there)
      refine .inl ⟨?_, nonneg, (not_beyond_iff nonneg).mp sum⟩
      rintro rfl
      exact sum (by decide)
  · rintro ⟨known, proper | numberless⟩
    · refine ⟨known, (not_beyond_iff proper.nonneg).mpr proper.sum, fun b there => ?_⟩
      exact (not_lt_iff (proper.isNumber b there) (by decide)).mpr (proper.nonneg b there)
    · exact ⟨known, not_beyond_of_isNaN numberless.nan, numberless.nonneg⟩

-- ---------------------------------------------------------------------------
-- Models
-- ---------------------------------------------------------------------------

theorem ofStates_eq_ok (room : Draft.ofStates states = .ok d) : d = ⟨0, .replicate states [], none⟩ := by
  obtain ⟨_, -, made⟩ := bind_eq_ok.mp room
  exact pure_eq_ok.mp made

theorem mem_offeredAt {source : Nat} {offers : List (Nat × List (Float × Nat))} :
    branches ∈ offeredAt source offers ↔ (source, branches) ∈ offers := by
  simp [offeredAt]

theorem build_callEach {model : ExplicitModel Float} (room : Draft.ofStates states = .ok d) :
    (d.callEach calls).build = .ok model ↔ initialFrom 0 calls < states ∧
      (∀ offer ∈ offersOf calls, offer.1 < states ∧ Fits states offer.2) ∧
      model = ⟨initialFrom 0 calls,
        (Array.range states).map fun source => (offeredAt source (offersOf calls)).map encoded⟩ := by
  obtain rfl := ofStates_eq_ok room
  have choices : ((⟨0, .replicate states [], none⟩ : Draft Float).offerEach (offersOf calls)).choices =
      (Array.range states).map (offeredAt · (offersOf calls)) := Draft.choices_offerEach
  rw [Draft.callEach_eq, Draft.build_eq_ok]
  simp only [Draft.startingAt, Draft.defect_offerEach_eq_none, true_and, Array.size_replicate, choices,
    Array.map_map, Array.size_map, Array.size_range, Array.forall_mem_map, mem_offeredAt,
    Array.mem_range]
  constructor
  · rintro ⟨known, inside, fits, rfl⟩
    exact ⟨inside, fun offer there => ⟨known offer there, fits _ (known offer there) _ there⟩, rfl⟩
  · rintro ⟨inside, fits, rfl⟩
    exact ⟨fun offer there => (fits offer there).1, inside, fun _ _ _ there => (fits _ there).2, rfl⟩

theorem lawful_of_fits (fits : Fits states branches) : encoded branches ≠ [] ∧
    (∀ b ∈ encoded branches, ∃ target < states, b.2 = .ofIndex target) ∧
    ((∀ b ∈ encoded branches, ¬b.1.isNaN) → (∀ b ∈ encoded branches, 0 ≤ b.1) ∧
      Scalar.abs (Distribution.total (encoded branches) - 1) ≤ Distribution.tolerance) := by
  have known : ∀ b ∈ encoded branches, ∃ target < states, b.2 = .ofIndex target :=
    List.forall_mem_map.mpr fun b there => ⟨b.2, fits.known b there, rfl⟩
  refine ⟨?_, known, fun number => ?_⟩
  · rintro empty
    cases List.map_eq_nil_iff.mp empty
    exact fits.sum (by decide)
  · obtain ⟨-, proper | numberless⟩ := fits_iff.mp fits
    · exact ⟨List.forall_mem_map.mpr proper.nonneg, by rw [Draft.total_encoded]; exact proper.sum⟩
    · obtain ⟨b, there, nan⟩ := numberless.nan
      exact absurd nan (List.forall_mem_map.mp number b there)

/-- In floating point: whatever calls are made on states that there is room for, they make a model
exactly if the initial state and all successors are known, nothing is offered at an unknown state, and
each choice is a distribution, or has a probability that is no number and none that is negative. The
choices of the model are those offered, so they are distributions but for the ones with a probability
that is no number. -/
theorem builds_distributions_or_numberless (states : Nat) (d : Draft Float) (calls : List Call)
    (room : Draft.ofStates states = .ok d) :
    ((∃ model, (d.callEach calls).build = .ok model) ↔ initialFrom 0 calls < states ∧
      ∀ offer ∈ offersOf calls, offer.1 < states ∧ (∀ b ∈ offer.2, b.2 < states) ∧
        (Proper offer.2 ∨ Numberless offer.2)) ∧
    ∀ model, (d.callEach calls).build = .ok model →
      model.initial = initialFrom 0 calls ∧ model.initial < states ∧ model.choices.size = states ∧
      (∀ source choices, model.choices[source]? = some choices →
        choices = (offeredAt source (offersOf calls)).map encoded) ∧
      ∀ choices ∈ model.choices, ∀ choice ∈ choices, choice ≠ [] ∧
        (∀ b ∈ choice, ∃ target < states, b.2 = .ofIndex target) ∧
        ((∀ b ∈ choice, ¬b.1.isNaN) → (∀ b ∈ choice, 0 ≤ b.1) ∧
          Scalar.abs (Distribution.total choice - 1) ≤ Distribution.tolerance) := by
  constructor
  · simp only [build_callEach room, fits_iff]
    constructor
    · rintro ⟨_, inside, fits, -⟩
      exact ⟨inside, fits⟩
    · rintro ⟨inside, fits⟩
      exact ⟨_, inside, fits, rfl⟩
  · intro model built
    obtain ⟨inside, fits, rfl⟩ := (build_callEach room).mp built
    refine ⟨rfl, inside, by simp, ?_, ?_⟩
    · intro source choices found
      rw [Array.getElem?_map] at found
      obtain ⟨source', range, rfl⟩ := Option.map_eq_some_iff.mp found
      rw [(Array.getElem?_eq_some_iff.mp range).2.symm, Array.getElem_range]
    · intro choices there choice offered
      obtain ⟨source, -, rfl⟩ := Array.mem_map.mp there
      obtain ⟨branches, listed, rfl⟩ := List.mem_map.mp offered
      exact lawful_of_fits (fits _ (mem_offeredAt.mp listed)).2

-- A state whose only choice leads back to it.
namespace Loop

def certain : List Call := [.offer 0 [(1, 0)], .startAt 0]

def numberless : List Call := [.offer 0 [(0 / 0, 0)]]

end Loop

theorem builds_distributions_or_numberless_of_certain :
    ∃ model : ExplicitModel Float, (Draft.callEach ⟨0, #[[]], none⟩ Loop.certain).build = .ok model ∧
      model.choices[0]? = some [[(1, .ofIndex 0)]] ∧ model.initial < 1 := by
  obtain ⟨built, lawful⟩ := builds_distributions_or_numberless 1 ⟨0, #[[]], none⟩ Loop.certain rfl
  have proper : Proper [((1 : Float), 0)] := ⟨nofun, by decide, by decide⟩
  obtain ⟨model, made⟩ := built.mpr ⟨by decide, by simpa [Loop.certain, offersOf] using .inl proper⟩
  obtain ⟨-, initial, size, offered, -⟩ := lawful model made
  have inside : 0 < model.choices.size := by omega
  have there := Array.getElem?_eq_getElem inside
  exact ⟨model, made, there.trans (congrArg some (offered 0 _ there)), initial⟩

/-- The model is built, and its probability is no number. -/
theorem numberless_built : ∃ d : Draft Float, Draft.ofStates 1 = .ok d ∧
    (d.callEach Loop.numberless).build = .ok ⟨0, #[[[(0 / 0, .ofIndex 0)]]]⟩ ∧
    (0 / 0 : Float).isNaN ∧ ¬0 ≤ (0 / 0 : Float) ∧
    ¬Scalar.abs (Distribution.total [((0 / 0 : Float), State.ofIndex 0)] - 1) ≤ Distribution.tolerance :=
  ⟨_, rfl, rfl, by decide, by decide, by decide⟩

end SchedulerLearning.ExplicitModel

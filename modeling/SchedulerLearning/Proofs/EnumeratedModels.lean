import SchedulerLearning.Model.Explicit
import SchedulerLearning.Proofs.Outcome

/-!
# Drafts and the models they become

A draft keeps what is offered at each state in the order of the offers. A model is made of it if
nothing was offered at an unknown state, no branch leads to one and every choice passes for a
distribution, and then it has exactly the choices that were offered.
-/

namespace SchedulerLearning.ExplicitModel

variable {α : Type}

def encoded (branches : List (α × Nat)) : Distribution α := branches.map fun b => (b.1, .ofIndex b.2)

def offeredAt (source : Nat) (offers : List (Nat × List (α × Nat))) : List (List (α × Nat)) :=
  (offers.filter (·.1 = source)).map Prod.snd

structure Fits [Scalar α] (states : Nat) (branches : List (α × Nat)) : Prop where
  known : ∀ b ∈ branches, b.2 < states
  sum : ¬Distribution.tolerance < Scalar.abs (Distribution.total branches - 1)
  nonneg : ∀ b ∈ branches, ¬b.1 < 0

namespace Draft

variable {d : Draft α} {offers : List (Nat × List (α × Nat))} {branches : List (α × Nat)}
  {states source i : Nat} {choice : Distribution α} {model : ExplicitModel α}

def offerEach (d : Draft α) (offers : List (Nat × List (α × Nat))) : Draft α :=
  offers.foldl (fun d offer => d.offer offer.1 offer.2) d

-- ---------------------------------------------------------------------------
-- Offers
-- ---------------------------------------------------------------------------

@[simp] theorem initial_offer : (d.offer source branches).initial = d.initial := by
  unfold offer
  split <;> rfl

@[simp] theorem size_offer : (d.offer source branches).choices.size = d.choices.size := by
  unfold offer
  split <;> simp

theorem getElem?_offer : (d.offer source branches).choices[i]? =
    d.choices[i]?.map (· ++ offeredAt i [(source, branches)]) := by
  unfold offer offeredAt
  split
  · rw [Array.getElem?_modify]
    split
    · next here => simp [here]
    · next elsewhere => simp [elsewhere]
  · next unknown =>
    by_cases inside : i < d.choices.size
    · have elsewhere : source ≠ i := fun here => unknown (here ▸ inside)
      simp [elsewhere]
    · simp [inside]

theorem defect_offer_eq_none :
    (d.offer source branches).defect = none ↔ d.defect = none ∧ source < d.choices.size := by
  unfold offer
  split
  · next known => simp [known]
  · next unknown => simp [unknown]

@[simp] theorem initial_offerEach : (d.offerEach offers).initial = d.initial := by
  induction offers generalizing d with
  | nil => rfl
  | cons _ _ ih => exact ih.trans initial_offer

@[simp] theorem size_offerEach : (d.offerEach offers).choices.size = d.choices.size := by
  induction offers generalizing d with
  | nil => rfl
  | cons _ _ ih => exact ih.trans size_offer

theorem getElem?_offerEach :
    (d.offerEach offers).choices[i]? = d.choices[i]?.map (· ++ offeredAt i offers) := by
  induction offers generalizing d with
  | nil => simp [offerEach, offeredAt]
  | cons offer rest ih =>
    have split : offeredAt i (offer :: rest) = offeredAt i [offer] ++ offeredAt i rest := by
      unfold offeredAt
      rw [← List.map_append, ← List.filter_append, List.singleton_append]
    calc ((d.offer offer.1 offer.2).offerEach rest).choices[i]?
        = ((d.choices[i]?.map (· ++ offeredAt i [offer])).map (· ++ offeredAt i rest)) := by
          rw [ih, getElem?_offer]
      _ = d.choices[i]?.map (· ++ offeredAt i (offer :: rest)) := by
          rw [Option.map_map, split]
          simp [Function.comp_def]

theorem defect_offerEach_eq_none : (d.offerEach offers).defect = none ↔
    d.defect = none ∧ ∀ offer ∈ offers, offer.1 < d.choices.size := by
  induction offers generalizing d with
  | nil => simp [offerEach]
  | cons offer rest ih =>
    rw [List.forall_mem_cons, ← and_assoc, ← defect_offer_eq_none, ← size_offer]
    exact ih

theorem choices_offerEach {initial n : Nat} {defect : Option Defect} :
    ((⟨initial, .replicate n [], defect⟩ : Draft α).offerEach offers).choices =
      (Array.range n).map (offeredAt · offers) := by
  refine Array.ext_getElem? fun i => ?_
  rw [getElem?_offerEach, Array.getElem?_map]
  by_cases inside : i < n <;> simp [inside]

-- ---------------------------------------------------------------------------
-- Choices
-- ---------------------------------------------------------------------------

theorem total_encoded [Scalar α] : Distribution.total (encoded branches) = Distribution.total branches := by
  unfold Distribution.total encoded
  rw [List.map_map]
  rfl

theorem branches_eq_ok : Draft.branches states source branches = .ok choice ↔
    (∀ b ∈ branches, b.2 < states) ∧ choice = encoded branches := by
  induction branches generalizing choice with
  | nil => simp [Draft.branches, encoded, eq_comm]
  | cons b rest ih =>
    rw [List.forall_mem_cons, Draft.branches]
    simp only [refusing_eq_ok, bind_eq_ok, ih, pure_eq_ok, Nat.not_le]
    constructor
    · rintro ⟨known, others, ⟨each, rfl⟩, rfl⟩
      exact ⟨⟨known, each⟩, rfl⟩
    · rintro ⟨⟨known, each⟩, rfl⟩
      exact ⟨known, _, ⟨each, rfl⟩, rfl⟩

variable [Scalar α]

theorem choice_eq_ok : Draft.choice states source branches = .ok choice ↔
    Fits states branches ∧ choice = encoded branches := by
  have nonneg_iff : (∀ b ∈ encoded branches, ¬b.1 < 0) ↔ ∀ b ∈ branches, ¬b.1 < 0 :=
    List.forall_mem_map
  unfold Draft.choice
  simp only [bind_eq_ok, branches_eq_ok, Distribution.check_eq_ok, pure_eq_ok]
  constructor
  · rintro ⟨_, ⟨known, rfl⟩, _, ⟨sum, nonneg⟩, rfl⟩
    rw [total_encoded] at sum
    exact ⟨⟨known, sum, nonneg_iff.mp nonneg⟩, rfl⟩
  · rintro ⟨⟨known, sum, nonneg⟩, rfl⟩
    rw [← total_encoded] at sum
    exact ⟨_, ⟨known, rfl⟩, (), ⟨sum, nonneg_iff.mpr nonneg⟩, rfl⟩

-- ---------------------------------------------------------------------------
-- Models
-- ---------------------------------------------------------------------------

section
variable {ε τ σ : Type}

theorem mapM_eq_ok_iff {f : τ → Except ε σ} {fits : τ → Prop} {g : τ → σ}
    (rule : ∀ x y, f x = .ok y ↔ fits x ∧ y = g x) {xs : List τ} {ys : List σ} :
    xs.mapM f = .ok ys ↔ (∀ x ∈ xs, fits x) ∧ ys = xs.map g := by
  rw [mapM_eq_ok]
  simp only [rule, List.forall₂_and_left]
  rw [forall₂_eq_map]

theorem mapIdxM_go_eq {f : Nat → τ → Except ε σ} {xs : List τ} {reached : Array σ} :
    List.mapIdxM.go f xs reached =
      (reached.toList ++ ·) <$> (xs.zipIdx reached.size).mapM fun x => f x.2 x.1 := by
  induction xs generalizing reached with
  | nil => simp [List.mapIdxM.go]
  | cons x xs ih => simp [List.mapIdxM.go, ih]

theorem mapIdxM_eq_ok_iff {f : Nat → τ → Except ε σ} {fits : τ → Prop} {g : τ → σ}
    (rule : ∀ i x y, f i x = .ok y ↔ fits x ∧ y = g x) {xs : Array τ} {ys : Array σ} :
    xs.mapIdxM f = .ok ys ↔ (∀ x ∈ xs, fits x) ∧ ys = xs.map g := by
  have listed : xs.mapIdxM f = .ok ys ↔ xs.toList.mapIdxM f = .ok ys.toList := by
    rw [← Array.toList_mapIdxM]
    cases xs.mapIdxM f <;> simp [Functor.map, Except.map]
  have numbered : xs.toList.mapIdxM f = xs.toList.zipIdx.mapM fun x => f x.2 x.1 := by
    simp [List.mapIdxM, mapIdxM_go_eq]
  rw [listed, numbered, mapM_eq_ok_iff fun x y => rule x.2 x.1 y]
  have values : xs.toList.zipIdx.map (fun x => g x.1) = (xs.map g).toList :=
    calc xs.toList.zipIdx.map (fun x => g x.1) = (xs.toList.zipIdx.map Prod.fst).map g :=
          List.map_map.symm
      _ = (xs.map g).toList := by rw [List.zipIdx_map_fst, Array.toList_map]
  rw [values, Array.toList_inj, ← List.forall_mem_map, List.zipIdx_map_fst]
  simp only [Array.mem_toList_iff]

end

theorem build_eq_ok : d.build = .ok model ↔ d.defect = none ∧ d.initial < d.choices.size ∧
    (∀ offered ∈ d.choices, ∀ branches ∈ offered, Fits d.choices.size branches) ∧
      model = ⟨d.initial, d.choices.map (·.map encoded)⟩ := by
  have rule : ∀ source (offered : List (List (α × Nat))) choices,
      offered.mapM (Draft.choice d.choices.size source) = .ok choices ↔
        (∀ branches ∈ offered, Fits d.choices.size branches) ∧ choices = offered.map encoded :=
    fun source offered choices => mapM_eq_ok_iff fun _ _ => choice_eq_ok
  unfold build
  cases d.defect with
  | some defect => simp [throw_ne_ok, bind_eq_ok]
  | none =>
    simp only [refusing_eq_ok, bind_eq_ok, mapIdxM_eq_ok_iff rule, pure_eq_ok, Nat.not_le]
    constructor
    · rintro ⟨inside, _, ⟨fits, rfl⟩, rfl⟩
      exact ⟨trivial, inside, fits, rfl⟩
    · rintro ⟨-, inside, fits, rfl⟩
      exact ⟨inside, _, ⟨fits, rfl⟩, rfl⟩

end Draft

end SchedulerLearning.ExplicitModel

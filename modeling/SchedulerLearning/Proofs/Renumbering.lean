import SchedulerLearning.Proofs.UpdateRules
import Mathlib.Data.List.FinRange
import Mathlib.Order.Bounds.Basic

/-!
# Updates do not depend on the numbering of choices

In exact arithmetic, choices in another order get the same new probabilities in that order: sums and
least scores have no order, and whatever a rule pairs it pairs choice by choice. Only the greedy rules
tell equally good choices apart, and prefer the one with the lowest number.
-/

namespace SchedulerLearning

-- ---------------------------------------------------------------------------
-- Lists in another order
-- ---------------------------------------------------------------------------

section
variable {n : Nat} {τ υ φ ε : Type} {σ : Equiv.Perm (Fin n)} {xs : List τ} {ys : List υ}

/-- The entries in another order: at each place the one from the place that it is sent to. -/
def renumber (σ : Equiv.Perm (Fin n)) (xs : List τ) : List τ :=
  (List.finRange n).filterMap fun i => xs[(σ i : Nat)]?

theorem renumber_eq_ofFn (σ : Equiv.Perm (Fin xs.length)) : renumber σ xs = List.ofFn (xs.get ∘ σ) := by
  have there : (fun i => xs[(σ i : Nat)]?) = some ∘ (xs.get ∘ σ) := by
    funext i
    simp
  rw [renumber, there, List.filterMap_eq_map, List.ofFn_eq_map]

theorem renumber_perm (sized : xs.length = n) : (renumber σ xs).Perm xs := by
  subst sized
  have reordered := σ.ofFn_comp_perm xs.get
  rwa [List.ofFn_get, ← renumber_eq_ofFn] at reordered

theorem length_renumber (sized : xs.length = n) : (renumber σ xs).length = n :=
  (renumber_perm sized).length_eq.trans sized

theorem getElem?_renumber (sized : xs.length = n) (i : Fin n) :
    (renumber σ xs)[(i : Nat)]? = xs[(σ i : Nat)]? := by
  subst sized
  simp [renumber_eq_ofFn]

theorem renumber_eq {zs : List τ} (sized : xs.length = n) (length : zs.length = n)
    (each : ∀ i : Fin n, xs[(σ i : Nat)]? = zs[(i : Nat)]?) : renumber σ xs = zs := by
  refine List.ext_getElem? fun i => ?_
  by_cases inside : i < n
  · exact (getElem?_renumber sized ⟨i, inside⟩).trans (each ⟨i, inside⟩)
  · simp [length_renumber sized, length, Nat.not_lt.mp inside]

theorem renumber_map (f : τ → υ) : renumber σ (xs.map f) = (renumber σ xs).map f := by
  simp [renumber, List.map_filterMap]

theorem renumber_zipWith (f : τ → υ → φ) (sized : xs.length = n) (same : ys.length = n) :
    renumber σ (List.zipWith f xs ys) = List.zipWith f (renumber σ xs) (renumber σ ys) := by
  refine renumber_eq (by simp [sized, same]) (by simp [length_renumber, sized, same]) fun i => ?_
  simp [List.getElem?_zipWith, getElem?_renumber, sized, same]

theorem renumber_setApart {best best' : Nat} (first other : τ)
    (same : ∀ i : Fin n, (i : Nat) = best' ↔ (σ i : Nat) = best) :
    renumber σ ((List.range n).map fun i => if i = best then first else other) =
      (List.range n).map fun i => if i = best' then first else other := by
  refine renumber_eq (by simp) (by simp) fun i => ?_
  simp [same]

theorem forall₂_renumber {r : τ → υ → Prop} (h : List.Forall₂ r xs ys) :
    List.Forall₂ r (renumber σ xs) (renumber σ ys) := by
  have place (i : Nat) : Option.Rel r xs[i]? ys[i]? := by
    induction h generalizing i with
    | nil => exact .none
    | cons first _ ih =>
      cases i with
      | zero => exact .some first
      | succ i => exact ih i
  have places : List.Forall₂ Eq (List.finRange n) (List.finRange n) := List.forall₂_refl _
  refine List.rel_filterMap ?_ places
  rintro i _ rfl
  exact place (σ i)

theorem mapM_renumber {f : τ → Except ε υ} (h : xs.mapM f = .ok ys) :
    (renumber σ xs).mapM f = .ok (renumber σ ys) :=
  mapM_eq_ok.mpr (forall₂_renumber (mapM_eq_ok.mp h))

end

theorem min?_of_perm {xs ys : List Int} (h : xs.Perm ys) : xs.min? = ys.min? := by
  refine Option.ext fun least => ?_
  simp [List.min?_eq_some_iff, h.mem_iff]

-- ---------------------------------------------------------------------------
-- Places of the greatest
-- ---------------------------------------------------------------------------

def maxima (es : List Rat) : Set Nat := {i | ∃ e, es[i]? = some e ∧ ∀ e' ∈ es, e' ≤ e}

section
variable {es : List Rat} {best n : Nat} {value v : Rat} {σ : Equiv.Perm (Fin n)}

theorem isLeast_maxima_of_lt (there : es[best]? = some value) (h : IsLeast (maxima es) best)
    (more : value < v) :
    (es ++ [v])[es.length]? = some v ∧ IsLeast (maxima (es ++ [v])) es.length := by
  obtain ⟨⟨e, found, greatest⟩, -⟩ := h
  cases there.symm.trans found
  have last : (es ++ [v])[es.length]? = some v := by simp
  refine ⟨last, ⟨v, last, ?_⟩, ?_⟩
  · intro e' there'
    rcases List.mem_append.mp there' with before | last
    · exact (greatest e' before).trans more.le
    · exact (List.mem_singleton.mp last).le
  · rintro i ⟨e, here, most⟩
    by_contra before
    rw [List.getElem?_append_left (not_le.mp before)] at here
    have least := greatest e (List.mem_of_getElem? here)
    have reached := most v (by simp)
    linarith

theorem isLeast_maxima_of_not_lt (there : es[best]? = some value) (h : IsLeast (maxima es) best)
    (less : ¬value < v) : (es ++ [v])[best]? = some value ∧ IsLeast (maxima (es ++ [v])) best := by
  have inside : best < es.length := (List.getElem?_eq_some_iff.mp there).1
  obtain ⟨⟨e, found, greatest⟩, first⟩ := h
  cases there.symm.trans found
  have still : (es ++ [v])[best]? = some value := (List.getElem?_append_left inside).trans there
  refine ⟨still, ⟨value, still, ?_⟩, ?_⟩
  · intro e' there'
    rcases List.mem_append.mp there' with before | last
    · exact greatest e' before
    · exact (List.mem_singleton.mp last).trans_le (not_lt.mp less)
  · rintro i ⟨e, here, most⟩
    by_contra before
    have before := not_le.mp before
    rw [List.getElem?_append_left (before.trans inside)] at here
    exact before.not_ge (first ⟨e, here, fun e' there' => most e' (List.mem_append_left _ there')⟩)

theorem isLeast_argmax (nonempty : es ≠ []) : IsLeast (maxima es) (Scalar.argmax es) := by
  cases es with
  | nil => contradiction
  | cons e rest =>
    have first : IsLeast (maxima [e]) 0 := ⟨⟨e, rfl, by simp⟩, fun i _ => Nat.zero_le i⟩
    obtain ⟨_, -, least⟩ := Scalar.argmaxFrom_induction
      (P := fun es best value => es[best]? = some value ∧ IsLeast (maxima es) best)
      (fun _ _ _ _ h => isLeast_maxima_of_lt h.1 h.2) (fun _ _ _ _ h => isLeast_maxima_of_not_lt h.1 h.2)
      ⟨rfl, first⟩ rest
    exact least

theorem mem_maxima_renumber (sized : es.length = n) (i : Fin n) :
    (i : Nat) ∈ maxima (renumber σ es) ↔ (σ i : Nat) ∈ maxima es := by
  simp only [maxima, Set.mem_ofPred_eq, getElem?_renumber sized, (renumber_perm sized).mem_iff]

theorem eq_argmax_renumber (sized : es.length = n) (alone : (maxima es).Subsingleton) (i : Fin n) :
    (i : Nat) = Scalar.argmax (renumber σ es) ↔ (σ i : Nat) = Scalar.argmax es := by
  have nonempty : es ≠ [] := List.ne_nil_of_length_pos (i.pos.trans_eq sized.symm)
  have length : (renumber σ es).length = n := length_renumber sized
  have nonempty' : renumber σ es ≠ [] := List.ne_nil_of_length_pos (i.pos.trans_eq length.symm)
  have best := (isLeast_argmax nonempty).1
  have best' := (isLeast_argmax nonempty').1
  constructor
  · intro here
    rw [← here, mem_maxima_renumber sized] at best'
    exact alone best' best
  · intro here
    obtain ⟨j, found⟩ : ∃ j : Fin n, (j : Nat) = Scalar.argmax (renumber σ es) :=
      ⟨⟨Scalar.argmax (renumber σ es), (Scalar.argmax_lt nonempty').trans_eq length⟩, rfl⟩
    rw [← found, mem_maxima_renumber sized] at best'
    have same : σ i = σ j := Fin.ext (here.trans (alone best best'))
    rw [σ.injective same, found]

end

-- ---------------------------------------------------------------------------
-- Rules
-- ---------------------------------------------------------------------------

namespace UpdateRule

variable {n : Nat} {σ : Equiv.Perm (Fin n)} {rule : UpdateRule} {w : UpdateWeights Rat}
  {old new es target : List Rat} {rewards : Tallies} {scores scores' : List Int}
  {outcome : Option (List Rat)}

theorem estimates_renumber (sized : old.length = n) (same : rewards.length = n) :
    estimates (renumber σ old) (renumber σ rewards) = renumber σ (estimates old rewards : List Rat) :=
  (renumber_zipWith _ sized same).symm

theorem blend_renumber (weight : Rat) (sized : old.length = n) (same : target.length = n) :
    blend weight (renumber σ old) (renumber σ target) = renumber σ (blend weight old target) :=
  (renumber_zipWith _ sized same).symm

theorem map_blend_renumber (weight : Rat) {target? : Option (List Rat)} (sized : old.length = n)
    (same : ∀ target, target? = some target → target.length = n) :
    (target?.map (renumber σ)).map (blend weight (renumber σ old)) =
      (target?.map (blend weight old)).map (renumber σ) := by
  cases target? with
  | none => rfl
  | some target => exact congrArg some (blend_renumber weight sized (same target rfl))

theorem normalised?_renumber (sized : es.length = n) :
    normalised? (renumber σ es) = (normalised? es).map (renumber σ) := by
  unfold normalised?
  simp only [Scalar.sum_rat, (renumber_perm sized).sum_eq]
  split
  · rfl
  · simp [renumber_map]

theorem shifted_renumber (sized : scores.length = n) (h : shifted scores = .ok scores') :
    shifted (renumber σ scores) = .ok (renumber σ scores') := by
  unfold shifted at h ⊢
  simp only [min?_of_perm (renumber_perm sized)] at h ⊢
  split at h
  · next negative =>
    obtain ⟨lift, lifts, h⟩ := bind_eq_ok.mp h
    rw [if_pos negative]
    exact bind_eq_ok.mpr ⟨lift, lifts, mapM_renumber h⟩
  · next positive =>
    rw [if_neg positive]
    exact mapM_renumber h

theorem scoreTarget?_renumber {target? : Option (List Rat)} (sized : rewards.length = n)
    (h : scoreTarget? rewards = .ok target?) :
    scoreTarget? (renumber σ rewards) = .ok (target?.map (renumber σ)) := by
  obtain ⟨scores, scored, h⟩ := bind_eq_ok.mp h
  obtain ⟨raised, raise, h⟩ := bind_eq_ok.mp h
  obtain ⟨total, sum, h⟩ := bind_eq_ok.mp h
  have length : scores.length = n := (length_of_mapM scored).trans sized
  have length' : raised.length = n := (length_shifted raise).trans length
  have nonneg : ∀ s ∈ raised, 0 ≤ s := by
    rw [shifted_eq_ok raise]
    exact forall_lifted_nonneg
  have summed : Word.sumSigned (renumber σ raised) = .ok total :=
    Word.sumSigned_of_perm nonneg (renumber_perm length').symm sum
  refine bind_eq_ok.mpr ⟨_, mapM_renumber scored, ?_⟩
  refine bind_eq_ok.mpr ⟨_, shifted_renumber length raise, ?_⟩
  refine bind_eq_ok.mpr ⟨total, summed, ?_⟩
  rw [← Except.ok.inj h]
  split
  · rfl
  · exact congrArg (Except.ok <| some ·) (renumber_map _).symm

theorem greedyTarget_renumber (epsilon : Rat) (sized : es.length = n) (same : target.length = n)
    (alone : (maxima es).Subsingleton) :
    greedyTarget epsilon (renumber σ es) (renumber σ target) =
      renumber σ (greedyTarget epsilon es target) := by
  rw [greedyTarget_eq, greedyTarget_eq, length_renumber same, same, renumber_zipWith _ same (by simp),
    renumber_setApart 1 0 (eq_argmax_renumber sized alone)]

/-- Whether a rule gives more to the best choice. -/
def Greedy (rule : UpdateRule) : Prop := rule = .epsilon ∨ rule = .epsilonCount

theorem proposed?_renumber (sized : old.length = n) (same : rewards.length = n)
    (alone : rule.Greedy → (maxima (estimates old rewards)).Subsingleton)
    (h : proposed? rule w old rewards = .ok outcome) :
    proposed? rule w (renumber σ old) (renumber σ rewards) = .ok (outcome.map (renumber σ)) := by
  have length : (estimates old rewards).length = n := (length_estimates (sized.trans same.symm)).trans sized
  cases rule with
  | count | success =>
    rw [← Except.ok.inj h, proposed?, estimates_renumber sized same, normalised?_renumber length]
    exact congrArg Except.ok
      (map_blend_renumber _ sized fun _ made => (length_normalised? made).trans length)
  | completeCount =>
    obtain ⟨target?, made, h⟩ := bind_eq_ok.mp h
    rw [← Except.ok.inj h, proposed?, scoreTarget?_renumber same made]
    refine congrArg Except.ok (map_blend_renumber _ sized ?_)
    rintro target rfl
    exact (length_scoreTarget? made).trans same
  | epsilon =>
    have moved := renumber_setApart (1 - w.epsilon) (w.epsilon / ((n - 1 : Nat) : Rat))
      (eq_argmax_renumber (σ := σ) length (alone (.inl rfl)))
    rw [← Except.ok.inj h, proposed?, estimates_renumber sized same, length_renumber sized, sized]
    split
    · rfl
    · rw [Option.map_some, moved]
  | epsilonCount =>
    rw [← Except.ok.inj h, proposed?, estimates_renumber sized same, normalised?_renumber length]
    cases made : normalised? (estimates old rewards) with
    | none => rfl
    | some target =>
      have fits : target.length = n := (length_normalised? made).trans length
      have greedy := (length_greedyTarget w.epsilon (estimates old rewards) target).trans fits
      simp only [Option.map_some]
      rw [greedyTarget_renumber _ length fits (alone (.inr rfl)), blend_renumber _ sized greedy]

theorem exists_proposed?_renumber (sized : old.length = n) (same : rewards.length = n)
    (h : proposed? rule w old rewards = .ok outcome) :
    ∃ outcome', proposed? rule w (renumber σ old) (renumber σ rewards) = .ok outcome' ∧
      (outcome' = none ↔ outcome = none) := by
  have length : (estimates old rewards).length = n := (length_estimates (sized.trans same.symm)).trans sized
  cases rule with
  | count | success | completeCount =>
    exact ⟨_, proposed?_renumber sized same (by simp [Greedy]) h, Option.map_eq_none_iff⟩
  | epsilon =>
    refine ⟨_, rfl, ?_⟩
    rw [← Except.ok.inj h, length_renumber sized, sized]
    split <;> simp
  | epsilonCount =>
    refine ⟨_, rfl, ?_⟩
    rw [← Except.ok.inj h, estimates_renumber sized same, normalised?_renumber length]
    simp

theorem next?_renumber_eq_ok (sized : old.length = n) (same : rewards.length = n) :
    next? rule w (renumber σ old) (renumber σ rewards) = .ok outcome ↔
      (rewards.map Tally.total).sum < Word.size ∧
        if (rewards.map Tally.total).sum = 0 then outcome = none
        else proposed? rule w (renumber σ old) (renumber σ rewards) = .ok outcome := by
  have trials : ((renumber σ rewards).map Tally.total).sum = (rewards.map Tally.total).sum :=
    ((renumber_perm same).map _).sum_eq
  rw [next?_eq_ok, trials]
  exact and_iff_right ((length_renumber sized).trans (length_renumber same).symm)

theorem next?_renumber (sized : old.length = n) (same : rewards.length = n)
    (alone : rule.Greedy → (maxima (estimates old rewards)).Subsingleton)
    (h : next? rule w old rewards = .ok outcome) :
    next? rule w (renumber σ old) (renumber σ rewards) = .ok (outcome.map (renumber σ)) := by
  obtain ⟨-, within, h⟩ := next?_eq_ok.mp h
  refine (next?_renumber_eq_ok sized same).mpr ⟨within, ?_⟩
  split at h
  · next untried => simp [untried, h]
  · next tried =>
    rw [if_neg tried]
    exact proposed?_renumber sized same alone h

theorem exists_next?_renumber (sized : old.length = n) (same : rewards.length = n)
    (h : next? rule w old rewards = .ok outcome) :
    ∃ outcome', next? rule w (renumber σ old) (renumber σ rewards) = .ok outcome' ∧
      (outcome' = none ↔ outcome = none) := by
  obtain ⟨-, within, h⟩ := next?_eq_ok.mp h
  simp only [next?_renumber_eq_ok sized same, and_iff_right within]
  split at h
  · next untried => exact ⟨none, by simp [untried], by simp [h]⟩
  · next tried =>
    simp only [if_neg tried]
    exact exists_proposed?_renumber sized same h

theorem normalised?_eq_map (h : normalised? es = some target) : es ≠ [] ∧ target = es.map (· / es.sum) := by
  unfold normalised? at h
  simp only [Scalar.sum_rat] at h
  split at h
  · cases h
  · next norm =>
    cases h
    refine ⟨?_, rfl⟩
    rintro rfl
    simp at norm

/-- All but a part of the target is on one of the best choices, the one with the lowest number. -/
theorem epsilon_of_next? (h : next? .epsilon w old rewards = .ok (some new)) :
    ∃ best, IsLeast (maxima (estimates old rewards)) best ∧ new = (List.range old.length).map fun i =>
      if i = best then 1 - w.epsilon else w.epsilon / ((old.length - 1 : Nat) : Rat) := by
  obtain ⟨same, made⟩ := next?_eq_some h
  cases made with
  | rates chosen => simp at chosen
  | greedy several =>
    have length : 0 < (estimates old rewards).length := by
      rw [length_estimates same]
      omega
    exact ⟨_, isLeast_argmax (List.ne_nil_of_length_pos length), rfl⟩

theorem epsilonCount_of_next? (h : next? .epsilonCount w old rewards = .ok (some new)) :
    ∃ best, IsLeast (maxima (estimates old rewards)) best ∧
      ∀ i o e, old[i]? = some o → (estimates old rewards)[i]? = some e →
        new[i]? = some ((1 - w.history) * o + w.history * (w.epsilon * (e / (estimates old rewards).sum) +
          (1 - w.epsilon) * if i = best then 1 else 0)) := by
  obtain ⟨-, made⟩ := next?_eq_some h
  cases made with
  | rates chosen => simp at chosen
  | greedyRates made =>
    obtain ⟨some, rfl⟩ := normalised?_eq_map made
    refine ⟨_, isLeast_argmax some, fun i o e kept estimated => ?_⟩
    simp [blend, greedyTarget, List.getElem?_zipWith, kept, estimated]

/-- In exact arithmetic, for choices in any other order and as long as nothing overflows: the new
probabilities of a state are the same in that order, and there are none if there are none. For the
greedy rules that is so if one choice alone is the best one. If there are several, there are new
probabilities in every order if there are any, and the greedy part goes to the best choice with the
lowest number. -/
theorem updates_ignore_numbering {n : Nat} (σ : Equiv.Perm (Fin n)) (rule : UpdateRule) (w : UpdateWeights Rat)
    (old : List Rat) (rewards : Tallies) (sized : old.length = n) (same : rewards.length = n)
    (fits : ∀ operation, next? rule w old rewards ≠ .error (.overflow operation)) :
    ∃ outcome, next? rule w old rewards = .ok outcome ∧
      ((rule.Greedy → (maxima (estimates old rewards)).Subsingleton) →
        next? rule w (renumber σ old) (renumber σ rewards) = .ok (outcome.map (renumber σ))) ∧
      (∃ outcome', next? rule w (renumber σ old) (renumber σ rewards) = .ok outcome' ∧
        (outcome' = none ↔ outcome = none)) ∧
      ∀ new, outcome = some new →
        (rule = .epsilon → ∃ best, IsLeast (maxima (estimates old rewards)) best ∧
          new = (List.range n).map fun i =>
            if i = best then 1 - w.epsilon else w.epsilon / ((n - 1 : Nat) : Rat)) ∧
        (rule = .epsilonCount → ∃ best, IsLeast (maxima (estimates old rewards)) best ∧
          ∀ i o e, old[i]? = some o → (estimates old rewards)[i]? = some e →
            new[i]? = some ((1 - w.history) * o + w.history *
              (w.epsilon * (e / (estimates old rewards).sum) + (1 - w.epsilon) * if i = best then 1 else 0))) := by
  obtain ⟨outcome, made⟩ : ∃ outcome, next? rule w old rewards = .ok outcome := by
    cases made : next? rule w old rewards with
    | ok outcome => exact ⟨outcome, rfl⟩
    | error fault =>
      obtain ⟨operation, rfl⟩ := next?_overflows (sized.trans same.symm) fault made
      exact absurd made (fits operation)
  refine ⟨outcome, made, fun alone => next?_renumber sized same alone made,
    exists_next?_renumber sized same made, ?_⟩
  rintro new rfl
  subst sized
  exact ⟨fun is => epsilon_of_next? (is ▸ made), fun is => epsilonCount_of_next? (is ▸ made)⟩

/-- Two choices change places: the better one keeps its part. Of two that are equally good, the first
one has it. -/
theorem updates_ignore_numbering_of_swap :
    next? .epsilonCount ⟨(1 / 2 : Rat), 1 / 10⟩ [1 / 5, 4 / 5] [⟨1, 3⟩, ⟨3, 1⟩] =
        .ok (some [9 / 80, 71 / 80]) ∧
      next? .epsilon ⟨(1 / 2 : Rat), 1 / 10⟩ [1 / 5, 4 / 5] [⟨1, 1⟩, ⟨2, 2⟩] = .ok (some [9 / 10, 1 / 10]) ∧
      IsLeast (maxima (estimates [1 / 5, 4 / 5] [⟨1, 1⟩, ⟨2, 2⟩])) 0 := by
  have made : next? .epsilonCount ⟨(1 / 2 : Rat), 1 / 10⟩ [4 / 5, 1 / 5] [⟨3, 1⟩, ⟨1, 3⟩] =
      .ok (some [71 / 80, 9 / 80]) := by decide +kernel
  have equal : next? .epsilon ⟨(1 / 2 : Rat), 1 / 10⟩ [1 / 5, 4 / 5] [⟨1, 1⟩, ⟨2, 2⟩] =
      .ok (some [9 / 10, 1 / 10]) := by decide +kernel
  have alone : (maxima (estimates [4 / 5, 1 / 5] [⟨3, 1⟩, ⟨1, 3⟩])).Subsingleton := by
    have rates : estimates [(4 / 5 : Rat), 1 / 5] [⟨3, 1⟩, ⟨1, 3⟩] = [3 / 4, 1 / 4] := by decide +kernel
    have first : maxima [3 / 4, 1 / 4] ⊆ {0} := by
      rintro i ⟨e, here, most⟩
      have reached := most (3 / 4) (by simp)
      match i with
      | 0 => rfl
      | 1 =>
        cases here
        norm_num at reached
      | i + 2 => cases here
    rw [rates]
    exact Set.subsingleton_singleton.anti first
  obtain ⟨outcome, same, moved, -, -⟩ := updates_ignore_numbering (Equiv.swap (0 : Fin 2) 1) .epsilonCount
    ⟨1 / 2, 1 / 10⟩ [4 / 5, 1 / 5] [⟨3, 1⟩, ⟨1, 3⟩] rfl rfl (by rw [made]; exact nofun)
  obtain ⟨outcome', same', -, -, greedy⟩ := updates_ignore_numbering (Equiv.swap (0 : Fin 2) 1) .epsilon
    ⟨1 / 2, 1 / 10⟩ [1 / 5, 4 / 5] [⟨1, 1⟩, ⟨2, 2⟩] rfl rfl (by rw [equal]; exact nofun)
  cases made.symm.trans same
  cases equal.symm.trans same'
  obtain ⟨best, least, shared⟩ := (greedy _ rfl).1 rfl
  have first : best = 0 := by
    by_contra other
    have share := (List.cons.inj shared).1
    norm_num [Ne.symm other] at share
  exact ⟨moved fun _ => alone, equal, first ▸ least⟩

end UpdateRule

end SchedulerLearning

import SchedulerLearning.Proofs.Probabilities
import Mathlib.Data.Rat.Floor

/-!
# Which numbers sample a choice

A number always selects one of the choices. In exact arithmetic it is the first one whose
probability, added to those of the choices before it, exceeds the number. So the numbers from zero to
one that select a choice of a distribution are an interval, as long as the probability of the choice.
-/

namespace SchedulerLearning

namespace Mixture

-- ---------------------------------------------------------------------------
-- Places
-- ---------------------------------------------------------------------------

section
variable {α : Type} [Scalar α] {x reached : α} {index choice : Nat} {ps : List α}

theorem sampleFrom_lt (h : sampleFrom x reached index ps = some choice) : choice < index + ps.length := by
  induction ps generalizing reached index with
  | nil => cases h
  | cons p rest ih =>
    unfold sampleFrom at h
    rw [List.length_cons]
    split at h
    · cases h
      omega
    · have further := ih h
      omega

theorem sampleFrom_succ :
    sampleFrom x reached (index + 1) ps = (sampleFrom x reached index ps).map (· + 1) := by
  induction ps generalizing reached index with
  | nil => rfl
  | cons p rest ih =>
    unfold sampleFrom
    split
    · rfl
    · exact ih

theorem sample_le_last (m : Mixture α) (x : α) : m.sample x ≤ m.size - 1 := by
  unfold sample
  cases drawn : sampleFrom x 0 0 m.probabilities with
  | none => exact le_rfl
  | some choice =>
    have inside : choice < 0 + m.size := sampleFrom_lt drawn
    rw [Option.getD_some]
    omega

theorem sample_lt {m : Mixture α} (some : 0 < m.size) (x : α) : m.sample x < m.size := by
  have last := m.sample_le_last x
  omega

end

variable {ps : List Rat} {x y reached p : Rat} {m : Mixture Rat} {index choice i j : Nat}

-- ---------------------------------------------------------------------------
-- Cumulative probabilities
-- ---------------------------------------------------------------------------

theorem sampleFrom_eq_some (nonneg : ∀ p ∈ ps, 0 ≤ p) (start : reached ≤ x) :
    sampleFrom x reached index ps = some choice ↔
      ∃ i p, choice = index + i ∧ ps[i]? = some p ∧
        reached + (ps.take i).sum ≤ x ∧ x < reached + (ps.take i).sum + p := by
  induction ps generalizing reached index with
  | nil => simp [sampleFrom]
  | cons p rest ih =>
    obtain ⟨-, others⟩ := List.forall_mem_cons.mp nonneg
    unfold sampleFrom
    split
    · next here =>
      constructor
      · rintro ⟨⟩
        exact ⟨0, p, by simp, by simp, by simpa using start, by simpa using here⟩
      · rintro ⟨i, q, rfl, -, passed, -⟩
        cases i with
        | zero => rfl
        | succ i =>
          have further : 0 ≤ (rest.take i).sum :=
            List.sum_nonneg fun q there => others q (List.mem_of_mem_take there)
          rw [List.take_succ_cons, List.sum_cons] at passed
          linarith
    · next passed =>
      rw [ih others (not_lt.mp passed)]
      constructor
      · rintro ⟨i, q, rfl, there, low, high⟩
        refine ⟨i + 1, q, by omega, there, ?_, ?_⟩ <;>
          rw [List.take_succ_cons, List.sum_cons, ← add_assoc]
        · exact low
        · exact high
      · rintro ⟨i, q, rfl, there, low, high⟩
        cases i with
        | zero =>
          cases there
          exact absurd (by simpa using high) passed
        | succ i =>
          rw [List.take_succ_cons, List.sum_cons, ← add_assoc] at low high
          exact ⟨i, q, by omega, there, low, high⟩

def below (m : Mixture Rat) (choice : Nat) : Rat := (m.probabilities.take choice).sum

theorem below_succ (there : m.probability? choice = some p) :
    m.below (choice + 1) = m.below choice + p := by
  obtain ⟨inside, value⟩ := List.getElem?_eq_some_iff.mp there
  rw [below, below, List.take_succ_eq_append_getElem inside, List.sum_append, List.sum_singleton, value]

theorem below_mono (nonneg : ∀ p ∈ m.probabilities, 0 ≤ p) (h : i ≤ j) : m.below i ≤ m.below j := by
  have part : (m.probabilities.take i).Sublist (m.probabilities.take j) :=
    (List.take_prefix_take_left h).sublist
  exact part.sum_le_sum fun p there => nonneg p (List.mem_of_mem_take there)

theorem below_size (m : Mixture Rat) : m.below m.size = m.probabilities.sum := by
  rw [below, size, List.take_length]

theorem below_nonneg (h : IsDistribution m.probabilities) : 0 ≤ m.below choice :=
  List.sum_nonneg fun p there => h.nonneg p (List.mem_of_mem_take there)

theorem below_add_le_one (h : IsDistribution m.probabilities) (there : m.probability? choice = some p) :
    m.below choice + p ≤ 1 := by
  rw [← below_succ there, ← h.sum]
  exact (List.take_sublist _ _).sum_le_sum h.nonneg

-- ---------------------------------------------------------------------------
-- The first to exceed
-- ---------------------------------------------------------------------------

def exceeding (m : Mixture Rat) (x : Rat) : Set Nat := {i | i < m.size ∧ x < m.below (i + 1)}

section
variable (nonneg : ∀ p ∈ m.probabilities, 0 ≤ p) (low : 0 ≤ x)
include nonneg low

theorem sampleFrom_eq_some_iff (inside : choice < m.size) :
    sampleFrom x 0 0 m.probabilities = some choice ↔ m.below choice ≤ x ∧ x < m.below (choice + 1) := by
  have there : m.probability? choice = some m.probabilities[choice] := List.getElem?_eq_getElem inside
  rw [sampleFrom_eq_some nonneg low, below_succ there]
  simp only [zero_add, below]
  constructor
  · rintro ⟨_, q, rfl, there', within⟩
    obtain rfl := Option.some.inj (there'.symm.trans there)
    exact within
  · exact fun within => ⟨choice, _, rfl, there, within⟩

omit nonneg in
theorem below_le_of_isLeast (first : IsLeast (m.exceeding x) choice) : m.below choice ≤ x := by
  cases choice with
  | zero => simpa [below] using low
  | succ i =>
    -- The choice before does not exceed the number, or it would be the first.
    refine not_lt.mp fun more => ?_
    have inside : i + 1 < m.size := first.1.1
    have before : i + 1 ≤ i := first.2 ⟨by omega, more⟩
    omega

theorem sample_eq_of_isLeast (first : IsLeast (m.exceeding x) choice) : m.sample x = choice := by
  obtain ⟨inside, high⟩ := first.1
  have drawn := (sampleFrom_eq_some_iff nonneg low inside).mpr ⟨below_le_of_isLeast low first, high⟩
  rw [sample, drawn, Option.getD_some]

theorem sample_eq_last (none : ∀ i < m.size, m.below (i + 1) ≤ x) : m.sample x = m.size - 1 := by
  have missed : sampleFrom x 0 0 m.probabilities = Option.none := by
    refine Option.eq_none_iff_forall_ne_some.mpr fun choice drawn => ?_
    have inside : choice < 0 + m.size := sampleFrom_lt drawn
    rw [zero_add] at inside
    have within := (sampleFrom_eq_some_iff nonneg low inside).mp drawn
    exact within.2.not_ge (none choice inside)
  rw [sample, missed, Option.getD_none]

theorem isLeast_sample (within : x < m.probabilities.sum) : IsLeast (m.exceeding x) (m.sample x) := by
  have exceeded : ∃ i, i < m.size ∧ x < m.below (i + 1) := by
    refine ⟨m.size - 1, ?_, ?_⟩
    · have some : m.probabilities ≠ [] := by
        intro empty
        simp only [empty, List.sum_nil] at within
        exact within.not_ge low
      have := List.length_pos_iff.mpr some
      unfold size
      omega
    · have all : m.size ≤ m.size - 1 + 1 := by omega
      exact (within.trans_eq m.below_size.symm).trans_le (below_mono nonneg all)
  have first : IsLeast (m.exceeding x) (Nat.find exceeded) := Nat.isLeast_find exceeded
  exact (sample_eq_of_isLeast nonneg low first).symm ▸ first

theorem sample_of_sum_le (beyond : m.probabilities.sum ≤ x) : m.sample x = m.size - 1 := by
  refine sample_eq_last nonneg low fun i inside => ?_
  have part : m.below (i + 1) ≤ m.below m.size := below_mono nonneg inside
  exact (part.trans_eq m.below_size).trans beyond

theorem sample_mono (h : x ≤ y) : m.sample x ≤ m.sample y := by
  rcases lt_or_ge y m.probabilities.sum with within | beyond
  · obtain ⟨inside, high⟩ := (isLeast_sample nonneg (low.trans h) within).1
    exact (isLeast_sample nonneg low (h.trans_lt within)).2 ⟨inside, h.trans_lt high⟩
  · rw [sample_of_sum_le nonneg (low.trans h) beyond]
    exact m.sample_le_last x

/-- Only the last choice may be selected without probability, by a number from the total on. -/
theorem probability_sample (there : m.probability? (m.sample x) = some p) :
    p = 0 ↔ m.probabilities.sum ≤ x ∧ m.probabilities.getLast? = some 0 := by
  rcases lt_or_ge x m.probabilities.sum with within | beyond
  · have first := isLeast_sample nonneg low within
    have exceeded := first.1.2
    rw [below_succ there] at exceeded
    have reached := below_le_of_isLeast low first
    refine iff_of_false ?_ fun h => within.not_ge h.1
    rintro rfl
    linarith
  · rw [sample_of_sum_le nonneg low beyond] at there
    have last : m.probabilities.getLast? = some p := List.getLast?_eq_getElem?.trans there
    rw [and_iff_right beyond, last, Option.some_inj]

end

-- ---------------------------------------------------------------------------
-- Intervals
-- ---------------------------------------------------------------------------

theorem sample_eq_iff (h : IsDistribution m.probabilities) (low : 0 ≤ x) (high : x < 1)
    (there : m.probability? choice = some p) :
    m.sample x = choice ↔ m.below choice ≤ x ∧ x < m.below choice + p := by
  rw [← below_succ there]
  constructor
  · rintro rfl
    have first := isLeast_sample h.nonneg low (high.trans_eq h.sum.symm)
    exact ⟨below_le_of_isLeast low first, first.1.2⟩
  · intro within
    have inside : choice < m.size := (List.getElem?_eq_some_iff.mp there).1
    rw [sample, (sampleFrom_eq_some_iff h.nonneg low inside).mpr within, Option.getD_some]

theorem sample_ne (h : IsDistribution m.probabilities) (low : 0 ≤ x) (high : x < 1)
    (there : m.probability? choice = some 0) : m.sample x ≠ choice := by
  intro selected
  obtain ⟨reached, exceeded⟩ := (sample_eq_iff h low high there).mp selected
  linarith

theorem sample_uniform (n : Nat) (low : 0 ≤ x) (high : x < 1) :
    (uniform n : Mixture Rat).sample x = ⌊x * n⌋₊ := by
  rcases Nat.eq_zero_or_pos n with rfl | several
  · simp [uniform, sample, sampleFrom, size]
  · have parts : (0 : Rat) < n := Nat.cast_pos.mpr several
    have inside : ⌊x * n⌋₊ < n := (Nat.floor_lt (by positivity)).mpr (by nlinarith)
    have there : (uniform n : Mixture Rat).probability? ⌊x * n⌋₊ = some (1 / (n : Rat)) := by
      simp [probability?, uniform, inside]
    have start : (uniform n : Mixture Rat).below ⌊x * n⌋₊ = ⌊x * n⌋₊ / n := by
      simp [below, uniform, inside.le, div_eq_mul_inv]
    rw [sample_eq_iff (m := uniform n) (.uniform several) low high there, start, ← add_div,
      div_le_iff₀ parts, lt_div_iff₀ parts]
    exact ⟨Nat.floor_le (by positivity), Nat.lt_floor_add_one _⟩

end Mixture

end SchedulerLearning

import SchedulerLearning.Proofs.UpdateShapes
import Mathlib.Algebra.BigOperators.Ring.Finset
import Mathlib.Algebra.BigOperators.Ring.List
import Mathlib.Algebra.Order.BigOperators.Group.List
import Mathlib.Algebra.Order.Field.Rat
import Mathlib.Algebra.Order.Ring.Cast

/-!
# Scores

What the score rule makes of the counters of a state, in exact arithmetic: each choice is scored by
the difference of its counters, read as signed words; all scores are lifted if any is negative, and
their shares of the sum are the target. There is none exactly if all scores are zero.
-/

namespace SchedulerLearning

-- ---------------------------------------------------------------------------
-- Signed words
-- ---------------------------------------------------------------------------

theorem Word.addSigned_eq_ok {a b c : Int} (h : Word.addSigned a b = .ok c) : c = a + b := by
  unfold addSigned at h
  split at h
  · exact (Except.ok.inj h).symm
  · cases h

theorem Word.subSigned_eq_ok {a b c : Int} (h : Word.subSigned a b = .ok c) : c = a - b := by
  unfold subSigned at h
  split at h
  · exact (Except.ok.inj h).symm
  · cases h

theorem Word.foldlM_addSigned {xs : List Int} {start total : Int}
    (h : xs.foldlM Word.addSigned start = .ok total) : total = start + xs.sum := by
  induction xs generalizing start with
  | nil =>
    cases h
    simp
  | cons x rest ih =>
    rw [List.foldlM_cons] at h
    obtain ⟨next, hn, h⟩ := bind_eq_ok.mp h
    rw [ih h, Word.addSigned_eq_ok hn, List.sum_cons, Int.add_assoc]

theorem Word.sumSigned_eq_ok {xs : List Int} {total : Int} (h : Word.sumSigned xs = .ok total) :
    total = xs.sum := by
  rw [foldlM_addSigned h, Int.zero_add]

/-- No order of numbers that are not negative overflows unless all do: partial sums only grow. -/
theorem Word.foldlM_addSigned_of_nonneg {xs : List Int} {start : Int} (low : 0 ≤ start)
    (nonneg : ∀ x ∈ xs, 0 ≤ x) (within : Word.InRange (start + xs.sum)) :
    xs.foldlM Word.addSigned start = .ok (start + xs.sum) := by
  induction xs generalizing start with
  | nil => simp [pure, Except.pure]
  | cons x rest ih =>
    obtain ⟨here, others⟩ := List.forall_mem_cons.mp nonneg
    have later : 0 ≤ rest.sum := List.sum_nonneg others
    rw [List.sum_cons, ← Int.add_assoc] at within ⊢
    have next : Word.InRange (start + x) := by
      unfold Word.InRange at within ⊢
      omega
    rw [List.foldlM_cons, Word.addSigned_of_inRange next]
    exact ih (Int.add_nonneg low here) others within

theorem Word.inRange_of_foldlM_addSigned {xs : List Int} {start total : Int} (within : Word.InRange start)
    (h : xs.foldlM Word.addSigned start = .ok total) : Word.InRange total := by
  induction xs generalizing start with
  | nil =>
    cases h
    exact within
  | cons x rest ih =>
    obtain ⟨next, added, h⟩ := bind_eq_ok.mp h
    unfold Word.addSigned at added
    split at added
    · next fits =>
      cases added
      exact ih fits h
    · cases added

theorem Word.sumSigned_of_perm {xs ys : List Int} {total : Int} (nonneg : ∀ x ∈ xs, 0 ≤ x)
    (order : xs.Perm ys) (h : Word.sumSigned xs = .ok total) : Word.sumSigned ys = .ok total := by
  have within : Word.InRange (0 + ys.sum) := by
    rw [Int.zero_add, ← order.sum_eq, ← Word.sumSigned_eq_ok h]
    exact Word.inRange_of_foldlM_addSigned (by decide) h
  have summed :=
    Word.foldlM_addSigned_of_nonneg le_rfl (fun y there => nonneg y (order.mem_iff.mpr there)) within
  rw [Word.sumSigned, summed, Int.zero_add, ← order.sum_eq, ← Word.sumSigned_eq_ok h]

theorem Word.signed_eq (w : UInt64) :
    Word.signed w = if w.toNat < 0x8000000000000000 then (w.toNat : Int)
      else w.toNat - 0x10000000000000000 := by
  have word : w.toNat < 0x10000000000000000 := w.toNat_lt
  unfold Word.signed Word.size
  rw [Int.bmod_def]
  split <;> split <;> omega

theorem Word.signed_inj {v w : UInt64} : Word.signed v = Word.signed w ↔ v = w := by
  have first := v.toNat_lt
  have second := w.toNat_lt
  rw [← UInt64.toNat_inj, Word.signed_eq, Word.signed_eq]
  split <;> split <;> omega

namespace Tally

def reading (t : Tally) : Int := Word.signed t.satisfied - Word.signed t.failed

theorem score_eq_ok {t : Tally} {score : Int} (h : t.score = .ok score) : score = t.reading :=
  Word.subSigned_eq_ok h

theorem reading_eq_zero {t : Tally} : t.reading = 0 ↔ t.satisfied = t.failed := by
  rw [reading, sub_eq_zero, Word.signed_inj]

end Tally

-- ---------------------------------------------------------------------------
-- Lifted scores
-- ---------------------------------------------------------------------------

namespace UpdateRule

/-- What lifts scores so that the least is one, if any is negative. -/
def shift (scores : List Int) : Int :=
  if scores.min?.getD 0 < 0 then 1 - scores.min?.getD 0 else 0

def lifted (scores : List Int) : Int := (scores.map (· + shift scores)).sum

def share (scores : List Int) (score : Int) : Rat :=
  ((score + shift scores : Int) : Rat) / (lifted scores : Int)

section
variable {scores scores' : List Int} {score : Int}

theorem least_le : ∀ s ∈ scores, scores.min?.getD 0 ≤ s := by
  intro s hs
  cases h : scores.min? with
  | none =>
    rw [List.min?_eq_none_iff.mp h] at hs
    cases hs
  | some least => exact (List.min?_eq_some_iff.mp h).2 s hs

theorem add_shift_nonneg (there : score ∈ scores) : 0 ≤ score + shift scores := by
  have least := least_le score there
  unfold shift
  split <;> omega

theorem forall_lifted_nonneg : ∀ s ∈ scores.map (· + shift scores), 0 ≤ s :=
  List.forall_mem_map.mpr fun _ => add_shift_nonneg

theorem lifted_nonneg : 0 ≤ lifted scores := List.sum_nonneg forall_lifted_nonneg

theorem least_mem (negative : scores.min?.getD 0 < 0) : scores.min?.getD 0 ∈ scores := by
  cases h : scores.min? with
  | none => simp [h] at negative
  | some least => exact (List.min?_eq_some_iff.mp h).1

theorem lifted_eq_zero : lifted scores = 0 ↔ ∀ s ∈ scores, s = 0 := by
  constructor
  · intro none
    have lift : ∀ s ∈ scores, s + shift scores = 0 := fun s there =>
      List.all_zero_of_le_zero_le_of_sum_eq_zero forall_lifted_nonneg none (List.mem_map_of_mem there)
    by_cases negative : scores.min?.getD 0 < 0
    -- The least score is lifted to one.
    · have least := lift _ (least_mem negative)
      rw [shift, if_pos negative] at least
      omega
    · intro s there
      have kept := lift s there
      rwa [shift, if_neg negative, add_zero] at kept
  · intro zero
    have least : ¬scores.min?.getD 0 < 0 := fun negative =>
      negative.ne (zero _ (least_mem negative))
    rw [lifted, shift, if_neg least]
    refine List.sum_eq_zero fun s' hs' => ?_
    obtain ⟨s, there, rfl⟩ := List.mem_map.mp hs'
    rw [zero s there, add_zero]

theorem shifted_eq_ok (h : shifted scores = .ok scores') : scores' = scores.map (· + shift scores) := by
  unfold shifted at h
  simp only at h
  unfold shift
  split at h
  · next negative =>
    obtain ⟨lift, hl, h⟩ := bind_eq_ok.mp h
    rw [if_pos negative, ← Word.subSigned_eq_ok hl]
    exact mapM_eq_ok_map h fun _ _ => Word.addSigned_eq_ok
  · next positive =>
    rw [if_neg positive]
    exact mapM_eq_ok_map h fun _ _ => Word.addSigned_eq_ok

theorem share_nonneg (there : score ∈ scores) : 0 ≤ share scores score :=
  div_nonneg (Int.cast_nonneg (add_shift_nonneg there)) (Int.cast_nonneg lifted_nonneg)

theorem sum_shares (some : lifted scores ≠ 0) : (scores.map (share scores)).sum = 1 := by
  have total : (scores.map fun s => ((s + shift scores : Int) : Rat)).sum = (lifted scores : Int) := by
    rw [lifted, Int.cast_list_sum, List.map_map]
    rfl
  have each : share scores = fun s => ((s + shift scores : Int) : Rat) * (lifted scores : Rat)⁻¹ :=
    funext fun _ => div_eq_mul_inv _ _
  rw [each, List.sum_map_mul_right, total, mul_inv_cancel₀ (Int.cast_ne_zero.mpr some)]

end

theorem scoreTarget?_eq_ok {rewards : Tallies} {target? : Option (List Rat)}
    (h : scoreTarget? rewards = .ok target?) : target? =
      if lifted (rewards.map Tally.reading) = 0 then none
      else some ((rewards.map Tally.reading).map (share (rewards.map Tally.reading))) := by
  obtain ⟨scores, scored, h⟩ := bind_eq_ok.mp h
  obtain ⟨raised, raise, h⟩ := bind_eq_ok.mp h
  obtain ⟨total, sum, h⟩ := bind_eq_ok.mp h
  obtain rfl := mapM_eq_ok_map scored fun _ _ => Tally.score_eq_ok
  obtain rfl := shifted_eq_ok raise
  obtain rfl : total = lifted (rewards.map Tally.reading) := Word.sumSigned_eq_ok sum
  have natural {i : Int} (nonneg : 0 ≤ i) : (i.toNat : Rat) = i := by
    rw [← Int.cast_natCast, Int.toNat_of_nonneg nonneg]
  rw [← Except.ok.inj h, natural lifted_nonneg, List.map_map]
  split
  · rfl
  · refine congrArg some (List.map_congr_left fun s there => ?_)
    exact congrArg (· / _) (natural (add_shift_nonneg there))

end UpdateRule

end SchedulerLearning

import SchedulerLearning.Proofs.CheckedDivision
import SchedulerLearning.Proofs.Scores

/-!
# The rules divide by no zero

In arithmetic that shows a division by zero, a rule makes of defined numbers what it makes of them
among rationals, so whatever it answers is defined.
-/

namespace SchedulerLearning

open Checked (number)

def UpdateWeights.checked (w : UpdateWeights Rat) : UpdateWeights Checked :=
  ⟨number w.history, number w.epsilon⟩

-- ---------------------------------------------------------------------------
-- Sums and maxima
-- ---------------------------------------------------------------------------

namespace Scalar

variable {xs : List Rat}

theorem sum_checked : Scalar.sum (xs.map number) = number (Scalar.sum xs) := by
  have from_start : ∀ start : Rat,
      (xs.map number).foldl (· + ·) (number start) = number (xs.foldl (· + ·) start) := by
    induction xs with
    | nil => exact fun _ => rfl
    | cons x rest ih => exact fun start => ih (start + x)
  exact from_start (-0)

theorem argmaxFrom_checked {best index : Nat} {value : Rat} :
    argmaxFrom best (number value) index (xs.map number) = argmaxFrom best value index xs := by
  induction xs generalizing best index value with
  | nil => rfl
  | cons x rest ih =>
    rw [List.map_cons, argmaxFrom, argmaxFrom]
    simp only [Checked.number_lt, ih]

theorem argmax_checked : argmax (xs.map number) = argmax xs := by
  cases xs with
  | nil => rfl
  | cons x rest => exact argmaxFrom_checked

end Scalar

-- ---------------------------------------------------------------------------
-- Rules
-- ---------------------------------------------------------------------------

namespace UpdateRule

variable {old es target : List Rat} {rewards : Tallies}

theorem rate?_checked (t : Tally) : t.rate? (α := Checked) = (t.rate?).map number := by
  unfold Tally.rate?
  split
  · rfl
  · next tried =>
    have divisor : (t.total : Rat) ≠ 0 := Nat.cast_ne_zero.mpr tried
    simp [divisor]

theorem estimates_checked :
    estimates (old.map number) rewards = (estimates old rewards).map number := by
  unfold estimates
  rw [List.zipWith_map_left, List.map_zipWith]
  congr 1
  funext p t
  rw [rate?_checked, Option.getD_map]

theorem blend_checked {weight : Rat} :
    blend (number weight) (old.map number) (target.map number) = (blend weight old target).map number := by
  unfold blend
  rw [List.zipWith_map, List.map_zipWith]
  simp

/-- A norm that is zero stops the normalisation before it divides. -/
theorem normalised?_checked : normalised? (es.map number) = (normalised? es).map (List.map number) := by
  have vanishes : (number (Scalar.sum es) == 0) = (Scalar.sum es == 0) := by
    rw [Bool.eq_iff_iff, beq_iff_eq, beq_iff_eq, Checked.ofNat_eq, Checked.number.injEq]
  unfold normalised?
  simp only [Scalar.sum_checked, vanishes]
  split
  · rfl
  · next norm =>
    have divisor : Scalar.sum es ≠ 0 := by simpa using norm
    simp [divisor]

/-- The sum of lifted scores is not negative, so it is a divisor whenever it is not zero. -/
theorem scoreTarget?_checked :
    scoreTarget? (α := Checked) rewards = (scoreTarget? rewards).map (Option.map (List.map number)) := by
  unfold scoreTarget?
  rcases rewards.mapM Tally.score with fault | scores
  · rfl
  show (shifted scores >>= _) = (shifted scores >>= _).map _
  rcases raised : shifted scores with fault | scores'
  · rfl
  show (Word.sumSigned scores' >>= _) = (Word.sumSigned scores' >>= _).map _
  rcases summed : Word.sumSigned scores' with fault | total
  · rfl
  have nonneg : 0 ≤ total := by
    rw [Word.sumSigned_eq_ok summed, shifted_eq_ok raised]
    exact lifted_nonneg
  show Except.ok (if total = 0 then _ else _) = Except.ok (Option.map _ (if total = 0 then _ else _))
  split
  · rfl
  · next some =>
    have divisor : (total.toNat : Rat) ≠ 0 := Nat.cast_ne_zero.mpr (by omega)
    simp [divisor]

theorem greedyTarget_checked {epsilon : Rat} :
    greedyTarget (number epsilon) (es.map number) (target.map number) =
      (greedyTarget epsilon es target).map number := by
  have share (i : Nat) : (if i = Scalar.argmax es then (1 : Checked) else 0) =
      number (if i = Scalar.argmax es then 1 else 0) := by
    split <;> rfl
  unfold greedyTarget
  rw [Scalar.argmax_checked]
  simp only [share]
  refine List.ext_getElem (by simp) fun i _ _ => ?_
  simp

theorem proposed?_checked {rule : UpdateRule} {w : UpdateWeights Rat} :
    proposed? rule w.checked (old.map number) rewards =
      (proposed? rule w old rewards).map (Option.map (List.map number)) := by
  have blended (weight : Rat) :
      blend (number weight) (old.map number) ∘ List.map number = List.map number ∘ blend weight old :=
    funext fun _ => blend_checked
  cases rule with
  | count | success =>
    show Except.ok _ = Except.ok _
    rw [estimates_checked, normalised?_checked, Option.map_map, Option.map_map]
    exact congrArg (Except.ok <| Option.map · _) (blended w.history)
  | completeCount =>
    show scoreTarget? rewards >>= _ = (scoreTarget? rewards >>= _).map _
    rw [scoreTarget?_checked]
    rcases scoreTarget? (α := Rat) rewards with fault | target?
    · rfl
    · show Except.ok (Option.map _ (Option.map _ target?)) =
        Except.ok (Option.map _ (Option.map _ target?))
      rw [Option.map_map, Option.map_map]
      exact congrArg (Except.ok <| Option.map · _) (blended w.history)
  | epsilon =>
    show Except.ok (if _ then _ else _) = Except.ok (Option.map _ (if _ then _ else _))
    rw [List.length_map, estimates_checked, Scalar.argmax_checked]
    split
    · rfl
    · next several =>
      have divisor : ((old.length - 1 : Nat) : Rat) ≠ 0 := Nat.cast_ne_zero.mpr (by omega)
      have part : number w.epsilon / ((old.length - 1 : Nat) : Checked) =
          number (w.epsilon / (old.length - 1 : Nat)) := Checked.number_div divisor
      have rest : (1 : Checked) - number w.epsilon = number (1 - w.epsilon) := rfl
      rw [Option.map_some, List.map_map, UpdateWeights.checked, part, rest]
      refine congrArg (Except.ok <| some ·) (List.map_congr_left fun i _ => ?_)
      exact (apply_ite number _ _ _).symm
  | epsilonCount =>
    show Except.ok _ = Except.ok _
    rw [estimates_checked, normalised?_checked, Option.map_map, Option.map_map]
    refine congrArg (Except.ok <| Option.map · _) (funext fun normalised => ?_)
    show blend (1 - number w.history) (old.map number) (greedyTarget (number w.epsilon) _ _) =
      List.map number _
    rw [greedyTarget_checked]
    exact blend_checked

/-- A rule makes of defined numbers what it makes of them among rationals. -/
theorem next?_checked {rule : UpdateRule} {w : UpdateWeights Rat} :
    next? rule w.checked (old.map number) rewards =
      (next? rule w old rewards).map (Option.map (List.map number)) := by
  by_cases same : old.length = rewards.length
  · rw [next?_eq (by rwa [List.length_map]), next?_eq same, proposed?_checked]
    rcases rewards.trials with fault | n
    · rfl
    · show (if n = 0 then _ else _) = Except.map _ (if n = 0 then _ else _)
      split <;> rfl
  · rw [next?_of_ne (by rwa [List.length_map]), next?_of_ne same]
    rfl

end UpdateRule

end SchedulerLearning

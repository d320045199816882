import SchedulerLearning.Learning.Scheduler
import SchedulerLearning.Proofs.FloatOrder

/-!
# The most likely choice

The most likely choice of a mixture is the first of those that none exceeds.
-/

namespace SchedulerLearning

-- ---------------------------------------------------------------------------
-- The first of the greatest
-- ---------------------------------------------------------------------------

namespace Scalar

variable {xs : List Float} {best : Nat} {value v : Float}

/-- Whether a value, at its place in a list, is exceeded by none and reached by none before it. -/
structure Leads (xs : List Float) (best : Nat) (value : Float) : Prop where
  there : xs[best]? = some value
  greatest : ∀ v ∈ xs, ¬value < v
  first : ∀ i v, i < best → xs[i]? = some v → ¬value ≤ v

theorem Leads.singleton (v : Float) : Leads [v] 0 v where
  there := rfl
  greatest := by simpa using FloatOrder.lt_irrefl v
  first i _ before := absurd before (Nat.not_lt_zero i)

theorem Leads.overtaken (h : Leads xs best value) (more : value < v) :
    Leads (xs ++ [v]) xs.length v where
  there := by simp
  greatest := by
    intro u there
    rcases List.mem_append.mp there with before | last
    · exact fun exceeds => h.greatest u before (FloatOrder.lt_trans more exceeds)
    · cases List.mem_singleton.mp last
      exact FloatOrder.lt_irrefl v
  first := by
    intro i u before there
    rw [List.getElem?_append_left before] at there
    exact fun reached =>
      h.greatest u (List.mem_of_getElem? there) (FloatOrder.lt_of_lt_of_le more reached)

theorem Leads.kept (h : Leads xs best value) (less : ¬value < v) : Leads (xs ++ [v]) best value := by
  have inside : best < xs.length := (List.getElem?_eq_some_iff.mp h.there).1
  refine ⟨?_, ?_, ?_⟩
  · rw [List.getElem?_append_left inside]
    exact h.there
  · intro u there
    rcases List.mem_append.mp there with before | last
    · exact h.greatest u before
    · cases List.mem_singleton.mp last
      exact less
  · intro i u before there
    rw [List.getElem?_append_left (before.trans inside)] at there
    exact h.first i u before there

theorem leads_argmax (nonempty : xs ≠ []) : ∃ v, Leads xs (argmax xs) v := by
  cases xs with
  | nil => exact absurd rfl nonempty
  | cons v rest =>
    exact argmaxFrom_induction (fun _ _ _ _ => Leads.overtaken) (fun _ _ _ _ => Leads.kept)
      (Leads.singleton v) rest

end Scalar

def Mixture.Prefers (m : Mixture Float) (choice : Nat) : Prop :=
  ∃ p, Scalar.Leads m.probabilities choice p

theorem Mixture.prefers_mostLikely {m : Mixture Float} (several : 2 ≤ m.size) :
    m.Prefers m.mostLikely :=
  Scalar.leads_argmax fun empty => by simp [size, empty] at several

end SchedulerLearning

import SchedulerLearning.Model.Error
import SchedulerLearning.Scalar

/-!
# Distributions over successors

The branches of one choice, and drawing one of them by the inverse of the cumulative
distribution.
-/

namespace SchedulerLearning

abbrev Distribution (α : Type) := List (α × State)

namespace Distribution

variable {α : Type} [Scalar α]

@[specialize] def tolerance : α := 1e-9

@[specialize] def total {τ : Type} (branches : List (α × τ)) : α := Scalar.sum (branches.map Prod.fst)

@[specialize] def check (source : State) (d : Distribution α) : Except (ModelError α) Unit :=
  if tolerance < Scalar.abs (total d - 1) ∨ d.any (fun b => b.1 < 0) then
    .error (.invalidDistribution source (total d))
  else .ok ()

/-- The first branch at which the cumulative probability, `reached` so far, exceeds `x`. -/
@[specialize] def pickFrom (x reached : α) : Distribution α → Option State
  | [] => none
  | (p, next) :: rest => if x < reached + p then some next else pickFrom x (reached + p) rest

/-- The branch that `x` in `[0, 1)` selects: the last one if rounding leaves the total at
or below `x`, none of an empty list. -/
@[specialize] def pick? (x : α) (d : Distribution α) : Option State :=
  pickFrom x 0 d <|> d.getLast?.map Prod.snd

@[simp] theorem pick?_eq_none {x : α} {d : Distribution α} : d.pick? x = none ↔ d = [] := by
  unfold pick?
  cases h : pickFrom x 0 d with
  | none => simp
  | some next =>
    cases d with
    | nil => cases h
    | cons b rest => simp

theorem check_eq_ok {source : State} {d : Distribution α} {passed : Unit} :
    d.check source = .ok passed ↔ ¬tolerance < Scalar.abs (total d - 1) ∧ ∀ b ∈ d, ¬b.1 < 0 := by
  have negative : d.any (fun b => b.1 < 0) ↔ ∃ b ∈ d, b.1 < 0 := by simp
  unfold check
  simp only [negative]
  split
  · next refused =>
    refine iff_of_false nofun ?_
    rintro ⟨near, nonneg⟩
    obtain apart | ⟨b, there, below⟩ := refused
    · exact near apart
    · exact nonneg b there below
  · next passed =>
    obtain ⟨near, nonneg⟩ := not_or.mp passed
    exact iff_of_true rfl ⟨near, fun b there below => nonneg ⟨b, there, below⟩⟩

end Distribution

end SchedulerLearning

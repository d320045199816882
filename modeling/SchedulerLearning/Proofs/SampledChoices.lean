import SchedulerLearning.Proofs.ChoiceAgreement

/-!
# What a scheduler samples

In exact arithmetic, a scheduler selects a choice by the inverse of the cumulative probabilities of
its state, without changing a state that it knows. A new state becomes known as uniform if there is
room for its mixture, and the choices share the numbers from zero to one in equal parts.
-/

namespace SchedulerLearning

namespace Scheduler

variable {α : Type} [Scalar α] {p : Scheduler α} {overlay : Option Overlay} {s : State} {count : Nat}
  {x : α} {m : Mixture α}

-- ---------------------------------------------------------------------------
-- Known and new states
-- ---------------------------------------------------------------------------

theorem choose_of_known (uncovered : overlay.bind (·.choice? s) = none) (known : p.get? s = some m) :
    p.choose overlay s count x = (p, .ok (m.sample x)) := by
  have found : p.contains s = true := by rw [contains_eq, known, Option.isSome_some]
  unfold choose initialise
  rw [uncovered, if_pos found]
  simp only [sample, sample?, known, Option.map_some, Option.getD_some]

theorem choose_of_crowded (uncovered : overlay.bind (·.choice? s) = none) (unknown : p.get? s = none)
    (crowded : Room.most 8 < count) : p.choose overlay s count x = (p, .error .capacity) := by
  unfold choose
  rw [uncovered, initialise_of_crowded unknown crowded]

theorem choose_of_room (room : count ≤ Room.most 8) :
    p.choose overlay s count x =
      ((p.resolve overlay s count x).2, .ok (p.resolve overlay s count x).1) := by
  unfold choose resolve
  rw [initialise_of_room room]
  cases overlay.bind (·.choice? s) <;> rfl

theorem resolve_of_unknown (uncovered : overlay.bind (·.choice? s) = none) (unknown : p.get? s = none)
    (count : Nat) (x : α) :
    (p.resolve overlay s count x).1 = (Mixture.uniform count).sample x ∧
      ∀ t, (p.resolve overlay s count x).2.get? t =
        if s == t then some (.uniform count) else p.get? t := by
  have entered (t : State) : (p.enter s count).1.get? t =
      if s == t then some (.uniform count) else p.get? t := by
    rw [get?_enter, unknown, Option.getD_none]
  have selected : (p.enter s count).1.sample s x = (Mixture.uniform count).sample x := by
    rw [sample, sample?, entered, if_pos BEq.rfl]
    rfl
  unfold resolve
  rw [uncovered]
  exact ⟨selected, entered⟩

theorem scheduler_choose (uncovered : overlay.bind (·.choice? s) = none) :
    (p.choose overlay s count x).1 = (p.initialise s count).1 := by
  unfold choose
  rw [uncovered]
  cases h : p.initialise s count with
  | mk p' initialised => cases initialised <;> rfl

end Scheduler

/-- In exact arithmetic, for a number from zero to one: a mixture selects the first choice whose
probability, added to those before it, exceeds the number, and the last one if there is none. A
larger number never selects an earlier choice. A choice of a distribution is selected by the numbers
of an interval as long as its probability, so never without one. A scheduler selects in this way in a
state that it knows, which stays as it is; an unknown state becomes known as uniform, unless it has
more choices than there is room for, which is a fault that changes nothing. -/
theorem samples_inverse_cumulative :
    (∀ (m : Mixture Rat) (x : Rat), 0 < m.size → (∀ p ∈ m.probabilities, 0 ≤ p) → 0 ≤ x → x < 1 →
      (∀ choice, IsLeast {i | i < m.size ∧ x < (m.probabilities.take (i + 1)).sum} choice →
        m.sample x = choice) ∧
      ((∀ i < m.size, (m.probabilities.take (i + 1)).sum ≤ x) → m.sample x = m.size - 1) ∧
      m.sample x < m.size ∧
      (∀ y, x ≤ y → m.sample x ≤ m.sample y) ∧
      (m.probabilities.sum = 1 → ∀ choice p, m.probability? choice = some p →
        (m.sample x = choice ↔ (m.probabilities.take choice).sum ≤ x ∧
          x < (m.probabilities.take choice).sum + p) ∧
        (p = 0 → m.sample x ≠ choice))) ∧
    ∀ (p : Scheduler Rat) (overlay : Option Overlay) (s : State) (count : Nat) (x : Rat),
      overlay.bind (·.choice? s) = none → 0 ≤ x → x < 1 →
      (p.choose overlay s count x).1 = (p.initialise s count).1 ∧
      (∀ m, p.get? s = some m → p.choose overlay s count x = (p, .ok (m.sample x))) ∧
      (p.get? s = none → count ≤ Room.most 8 →
        (p.choose overlay s count x).2 = .ok ⌊x * count⌋₊ ∧
        ∀ t, (p.choose overlay s count x).1.get? t =
          if s == t then some (.uniform count) else p.get? t) ∧
      (p.get? s = none → Room.most 8 < count → p.choose overlay s count x = (p, .error .capacity)) ∧
      (count ≤ Room.most 8 → p.choose overlay s count x =
        ((p.resolve overlay s count x).2, .ok (p.resolve overlay s count x).1)) := by
  refine ⟨fun m x some nonneg low high => ?_, fun p overlay s count x uncovered low high => ?_⟩
  · refine ⟨fun choice first => Mixture.sample_eq_of_isLeast nonneg low first,
      Mixture.sample_eq_last nonneg low, Mixture.sample_lt some x,
      fun y more => Mixture.sample_mono nonneg low more, fun total choice p there => ?_⟩
    have distribution : IsDistribution m.probabilities := ⟨nonneg, total⟩
    refine ⟨Mixture.sample_eq_iff distribution low high there, ?_⟩
    rintro rfl
    exact Mixture.sample_ne distribution low high there
  · refine ⟨Scheduler.scheduler_choose uncovered, fun m => Scheduler.choose_of_known uncovered,
      fun unknown room => ?_, Scheduler.choose_of_crowded uncovered, Scheduler.choose_of_room⟩
    obtain ⟨selected, entered⟩ := Scheduler.resolve_of_unknown uncovered unknown count x
    rw [Scheduler.choose_of_room room, selected, Mixture.sample_uniform count low high]
    exact ⟨rfl, entered⟩

/-- A number at the end of the first of four intervals, the second of which is empty, and one that
selects the last but one of four choices in a new state. -/
theorem samples_inverse_cumulative_beside_impossible :
    (⟨[1 / 5, 0, 1 / 2, 3 / 10]⟩ : Mixture Rat).sample (1 / 5) = 2 ∧
      (Scheduler.empty.choose none (.ofVars [7]) 4 (2 / 3 : Rat)).2 = .ok 2 := by
  obtain ⟨known, unknown⟩ := samples_inverse_cumulative
  obtain ⟨-, -, -, -, selects⟩ := known ⟨[1 / 5, 0, 1 / 2, 3 / 10]⟩ (1 / 5) (by decide) (by norm_num)
    (by norm_num) (by norm_num)
  obtain ⟨-, -, entered, -⟩ := unknown .empty none (.ofVars [7]) 4 (2 / 3) rfl (by norm_num) (by norm_num)
  refine ⟨(selects (by norm_num) 2 (1 / 2) rfl).1.mpr (by norm_num), ?_⟩
  rw [(entered (by simp [Scheduler.get?, Scheduler.empty]) (by decide)).1]
  exact congrArg _ ((Nat.floor_eq_iff (by norm_num)).mpr (by norm_num))

/-- A new state with more choices than there is room for does not become known. -/
theorem no_mixture_for_vast_choice : ¬∀ (p : Scheduler Rat) (overlay : Option Overlay) (s : State)
    (count : Nat) (x : Rat), overlay.bind (·.choice? s) = none → 0 ≤ x → x < 1 → p.get? s = none →
      ∃ p', p.choose overlay s count x = (p', .ok ⌊x * count⌋₊) := by
  intro always
  have unknown : (Scheduler.empty : Scheduler Rat).get? (.ofVars [0]) = none := by
    simp [Scheduler.get?, Scheduler.empty]
  obtain ⟨p', chosen⟩ := always .empty none (.ofVars [0]) 0x1000000000000000 (1 / 2) rfl (by norm_num)
    (by norm_num) unknown
  rw [Scheduler.choose_of_crowded rfl unknown (by decide)] at chosen
  cases chosen

end SchedulerLearning

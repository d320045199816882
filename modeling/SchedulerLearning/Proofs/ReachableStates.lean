import SchedulerLearning.Proofs.EnumeratedModels

/-!
# Reachable states

What a process can come to by any choices and any of their branches. A model by enumeration that a
draft became comes to no state but its own, and knows the choices in each of them.
-/

namespace SchedulerLearning

inductive DecisionProcess.Reachable {α : Type} (m : DecisionProcess α) : State → Prop
  | initial {s} (start : m.initial = .ok s) : m.Reachable s
  | step {s next offers branches p} (reached : m.Reachable s) (offered : m.offers s = .ok offers)
      (choice : branches ∈ offers) (branch : (p, next) ∈ branches) : m.Reachable next

theorem DecisionProcess.Reachable.of_any {α : Type} {m : DecisionProcess α} {s next : State}
    (reached : m.Reachable s)
    (offered : ((m.offers s).toOption.getD []).any (·.any (·.2 == next))) : m.Reachable next := by
  cases found : m.offers s with
  | error stop => simp [found, Except.toOption] at offered
  | ok offers =>
    simp only [found, Except.toOption, Option.getD_some, List.any_eq_true] at offered
    obtain ⟨branches, choice, ⟨p, s'⟩, branch, same⟩ := offered
    obtain rfl : s' = next := eq_of_beq same
    exact .step reached found choice branch

namespace ExplicitModel

variable {α : Type} {d : Draft α} {m : ExplicitModel α} {s : State} {i : Nat}

structure Closed (m : ExplicitModel α) : Prop where
  initial : m.initial < m.states
  targets : ∀ offered ∈ m.choices, ∀ branches ∈ offered, ∀ b ∈ branches,
    ∃ i < m.states, b.2 = .ofIndex i

theorem offers_ofIndex (inside : i < m.states) :
    m.process.offers (.ofIndex i) = .ok (m.choices.getD i []) := by
  have index : m.index (.ofIndex i) = .ok i := by
    simp [ExplicitModel.index, State.ofIndex, State.ofVars, inside]
  simp only [ExplicitModel.process, index]
  rfl

theorem closed_of_build [Scalar α] (built : d.build = .ok m) : m.Closed := by
  obtain ⟨-, inside, fits, rfl⟩ := Draft.build_eq_ok.mp built
  have states : ExplicitModel.states ⟨d.initial, d.choices.map (·.map encoded)⟩ = d.choices.size :=
    Array.size_map
  refine ⟨states ▸ inside, ?_⟩
  rw [states]
  intro offered there _ choice _ branch
  obtain ⟨drafted, made, rfl⟩ := Array.mem_map.mp there
  obtain ⟨branches, offer, rfl⟩ := List.mem_map.mp choice
  obtain ⟨b, member, rfl⟩ := List.mem_map.mp branch
  exact ⟨b.2, (fits drafted made branches offer).known b member, rfl⟩

theorem Closed.exists_index (closed : m.Closed) (reached : m.process.Reachable s) :
    ∃ i < m.states, s = .ofIndex i := by
  induction reached with
  | initial start =>
    cases start
    exact ⟨_, closed.initial, rfl⟩
  | step reached offered choice branch ih =>
    obtain ⟨i, inside, rfl⟩ := ih
    rw [offers_ofIndex inside] at offered
    cases offered
    have there : m.choices.getD i [] ∈ m.choices := by
      simp [Array.getD, show i < m.choices.size from inside]
    exact closed.targets _ there _ choice _ branch

theorem Closed.offers_of_reachable (closed : m.Closed) (reached : m.process.Reachable s) :
    ∃ offers, m.process.offers s = .ok offers := by
  obtain ⟨i, inside, rfl⟩ := closed.exists_index reached
  exact ⟨_, offers_ofIndex inside⟩

end ExplicitModel

end SchedulerLearning

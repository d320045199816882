import SchedulerLearning.Word
import Mathlib.Algebra.GroupWithZero.Nat
import Mathlib.Data.List.Forall2

/-!
# Computations that may stop

When a computation in steps gives an answer, read off its steps.
-/

namespace SchedulerLearning

variable {ε δ τ σ : Type} {x : Except ε τ} {e : ε} {b : σ}

theorem pure_eq_ok {a : σ} : (pure a : Except ε σ) = .ok b ↔ b = a := by
  simp [pure, Except.pure, eq_comm]

theorem throw_ne_ok : (throw e : Except ε σ) ≠ .ok b := nofun

theorem bind_eq_ok {f : τ → Except ε σ} :
    x >>= f = .ok b ↔ ∃ a, x = .ok a ∧ f a = .ok b := by
  cases x <;> simp [bind, Except.bind]

theorem map_eq_ok {f : τ → σ} : x.map f = .ok b ↔ ∃ a, x = .ok a ∧ f a = b := by
  cases x <;> simp [Except.map]

theorem mapError_eq_ok {f : ε → δ} {a : τ} : x.mapError f = .ok a ↔ x = .ok a := by
  cases x with
  | ok => constructor <;> rintro ⟨⟩ <;> rfl
  | error => constructor <;> rintro ⟨⟩

theorem refusing_eq_ok {c : Prop} [Decidable c] {f : τ → Except ε σ} {x : Except ε σ} :
    (if c then throw e >>= f else x) = .ok b ↔ ¬c ∧ x = .ok b := by
  split
  · next refused => exact iff_of_false nofun fun h => h.1 refused
  · next passed => exact (and_iff_right passed).symm

theorem requiring_eq_ok {c : Prop} [Decidable c] {f : τ → Except ε σ} {x : Except ε σ} :
    (if c then x else throw e >>= f) = .ok b ↔ c ∧ x = .ok b := by
  split
  · next passed => exact (and_iff_right passed).symm
  · next refused => exact iff_of_false nofun fun h => refused h.1

theorem bind_eq_error {f : τ → Except ε σ} :
    x >>= f = .error e ↔ x = .error e ∨ ∃ a, x = .ok a ∧ f a = .error e := by
  cases x <;> simp [bind, Except.bind]

theorem mapError_eq_error {f : ε → δ} {e' : δ} :
    x.mapError f = .error e' ↔ ∃ e, x = .error e ∧ f e = e' := by
  cases x <;> simp [Except.mapError]

theorem refusing_eq_error {c : Prop} [Decidable c] {e' : ε} {f : τ → Except ε σ} {x : Except ε σ} :
    (if c then throw e >>= f else x) = .error e' ↔ (c ∧ e = e') ∨ (¬c ∧ x = .error e') := by
  split
  · next refused => simp [refused, throw, throwThe, MonadExceptOf.throw, bind, Except.bind]
  · next passed => simp [passed]

theorem requiring_eq_error {c : Prop} [Decidable c] {e' : ε} {f : τ → Except ε σ} {x : Except ε σ} :
    (if c then x else throw e >>= f) = .error e' ↔ (¬c ∧ e = e') ∨ (c ∧ x = .error e') := by
  split
  · next passed => simp [passed]
  · next refused => simp [refused, throw, throwThe, MonadExceptOf.throw, bind, Except.bind]

section
variable {f : τ → Except ε σ} {xs : List τ} {ys : List σ}

theorem mapM_eq_ok : xs.mapM f = .ok ys ↔ List.Forall₂ (fun x y => f x = .ok y) xs ys := by
  induction xs generalizing ys with
  | nil => cases ys <;> simp [pure, Except.pure]
  | cons x xs ih =>
    rw [List.mapM_cons]
    simp only [bind_eq_ok, ih]
    constructor
    · rintro ⟨y, first, ys, others, h⟩
      cases h
      exact .cons first others
    · intro h
      cases h with
      | cons first others => exact ⟨_, first, _, others, rfl⟩

theorem exists_of_mapM_eq_error (h : xs.mapM f = .error e) : ∃ x ∈ xs, f x = .error e := by
  induction xs with
  | nil => cases h
  | cons x xs ih =>
    rw [List.mapM_cons] at h
    simp only [bind_eq_error] at h
    obtain first | ⟨y, -, later | ⟨ys, -, h⟩⟩ := h
    · exact ⟨x, List.mem_cons_self, first⟩
    · obtain ⟨x', there, stopped⟩ := ih later
      exact ⟨x', List.mem_cons_of_mem _ there, stopped⟩
    · cases h

theorem exists_mapM_eq_ok {P : σ → Prop} (each : ∀ x ∈ xs, ∃ y, f x = .ok y ∧ P y) :
    ∃ ys, xs.mapM f = .ok ys ∧ ys.length = xs.length ∧ ∀ y ∈ ys, P y := by
  induction xs with
  | nil => exact ⟨[], rfl, rfl, by simp⟩
  | cons x xs ih =>
    obtain ⟨⟨y, first, here⟩, others⟩ := List.forall_mem_cons.mp each
    obtain ⟨ys, rest, length, later⟩ := ih others
    refine ⟨y :: ys, ?_, by simp [length], List.forall_mem_cons.mpr ⟨here, later⟩⟩
    rw [List.mapM_cons, first, rest]
    rfl

theorem forall₂_eq_map {g : τ → σ} : List.Forall₂ (fun x y => y = g x) xs ys ↔ ys = xs.map g := by
  constructor
  · intro each
    induction each with
    | nil => rfl
    | cons first _ ih => exact congrArg₂ List.cons first ih
  · rintro rfl
    exact List.forall₂_map_right_iff.mpr (List.forall₂_same.mpr fun _ _ => rfl)

theorem mapM_eq_ok_map {g : τ → σ} (h : xs.mapM f = .ok ys) (exact : ∀ x y, f x = .ok y → y = g x) :
    ys = xs.map g :=
  forall₂_eq_map.mp ((mapM_eq_ok.mp h).imp exact)

end

theorem lift_ok_bind (a : τ) (f : τ → Except (Stop ε) σ) :
    (liftM (.ok a : Except Fault τ) >>= f) = f a := rfl

theorem Word.add_eq_ok {a b c : Nat} : Word.add a b = .ok c ↔ a + b < Word.size ∧ a + b = c := by
  unfold Word.add
  split
  · simp_all
  · simp only [reduceCtorEq, false_iff]
    omega

theorem Word.mul_eq_ok {a b c : Nat} : Word.mul a b = .ok c ↔ a * b < Word.size ∧ a * b = c := by
  unfold Word.mul
  split
  · simp_all
  · simp only [reduceCtorEq, false_iff]
    omega

theorem Word.addSigned_of_inRange {a b : Int} (h : Word.InRange (a + b)) :
    Word.addSigned a b = .ok (a + b) := if_pos h

theorem Word.subSigned_of_inRange {a b : Int} (h : Word.InRange (a - b)) :
    Word.subSigned a b = .ok (a - b) := if_pos h

theorem Word.foldlM_add_eq_ok {xs : List Nat} {start n : Nat} (within : start < Word.size) :
    xs.foldlM Word.add start = .ok n ↔ n = start + xs.sum ∧ n < Word.size := by
  induction xs generalizing start with
  | nil =>
    rw [List.foldlM_nil, pure_eq_ok, List.sum_nil, Nat.add_zero]
    exact (and_iff_left_of_imp fun h => h ▸ within).symm
  | cons x xs ih =>
    rw [List.foldlM_cons, List.sum_cons, ← Nat.add_assoc]
    simp only [bind_eq_ok, Word.add_eq_ok]
    constructor
    · rintro ⟨_, ⟨next, rfl⟩, h⟩
      exact (ih next).mp h
    · rintro ⟨rfl, h⟩
      have next : start + x < Word.size := by omega
      exact ⟨_, ⟨next, rfl⟩, (ih next).mpr ⟨rfl, h⟩⟩

theorem Word.sum_eq_ok {xs : List Nat} {n : Nat} :
    Word.sum xs = .ok n ↔ n = xs.sum ∧ n < Word.size := by
  rw [Word.sum, foldlM_add_eq_ok (by decide), Nat.zero_add]

end SchedulerLearning

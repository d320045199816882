import Mathlib.Algebra.Order.BigOperators.Group.List
import Mathlib.Algebra.Order.Group.Nat
import Mathlib.Tactic.Abel

/-!
# Totals over a list

What happens to a total when one entry of the list is replaced. Stated as a balance, so that
it serves numbers and multisets alike.
-/

namespace SchedulerLearning

variable {τ M : Type} [AddCommMonoid M]

theorem sum_map_set (f : τ → M) {xs : List τ} {place : Nat} {old : τ}
    (h : xs[place]? = some old) (new : τ) :
    ((xs.set place new).map f).sum + f old = (xs.map f).sum + f new := by
  induction xs generalizing place with
  | nil => simp at h
  | cons x rest ih =>
    cases place with
    | zero =>
      obtain rfl : x = old := by simpa using h
      simp only [List.set_cons_zero, List.map_cons, List.sum_cons]
      abel
    | succ place =>
      have h := ih (by simpa using h)
      simp only [List.set_cons_succ, List.map_cons, List.sum_cons, add_assoc, h]

/-- What is made and what is owed stay what is called for, if they do at the entry replaced. -/
theorem settle_set {M : Type} [AddCancelCommMonoid M] {f : τ → M} {xs : List τ} {place : Nat}
    {old new : τ} {made called made' called' : M} (h : xs[place]? = some old)
    (before : made + (xs.map f).sum = called) (entry : made' + f new = f old + called') :
    made + made' + ((xs.set place new).map f).sum = called + called' := by
  have total := sum_map_set f h new
  apply add_right_cancel (b := f old)
  calc made + made' + ((xs.set place new).map f).sum + f old
      = made + (xs.map f).sum + (made' + f new) := by rw [add_assoc, total]; abel
    _ = called + called' + f old := by rw [before, entry]; abel

theorem length_filter_set (p : τ → Bool) {xs : List τ} {place : Nat} {old : τ}
    (h : xs[place]? = some old) (new : τ) :
    ((xs.set place new).filter p).length + (p old).toNat = (xs.filter p).length + (p new).toNat := by
  have count (xs : List τ) : (xs.filter p).length = (xs.map fun x => (p x).toNat).sum := by
    induction xs with
    | nil => rfl
    | cons x rest ih => cases counted : p x <;> simp [counted, ih, Nat.add_comm]
  rw [count, count]
  exact sum_map_set (fun x => (p x).toNat) h new

/-- An entry that yields nothing is replaced: what the new one yields is added. -/
theorem filterMap_set_perm {υ : Type} {f : τ → Option υ} {xs : List τ} {place : Nat} {old : τ}
    (h : xs[place]? = some old) (none : f old = none) (new : τ) :
    ((xs.set place new).filterMap f).Perm (xs.filterMap f ++ (f new).toList) := by
  obtain ⟨inside, there⟩ := List.getElem?_eq_some_iff.mp h
  obtain ⟨before, after, split, -, set⟩ : ∃ before after, xs = before ++ xs[place] :: after ∧
      before.length = place ∧ xs.set place new = before ++ new :: after := List.exists_of_set inside
  rw [there] at split
  rw [set, split]
  cases yields : f new with
  | none => simp [none, yields]
  | some y => simpa [none, yields] using List.perm_middle.trans (List.perm_append_singleton y _).symm

theorem sum_map_eq_zero {f : τ → M} {xs : List τ} (h : ∀ x ∈ xs, f x = 0) : (xs.map f).sum = 0 := by
  refine List.sum_eq_zero fun n hn => ?_
  obtain ⟨x, hx, rfl⟩ := List.mem_map.mp hn
  exact h x hx

theorem le_sum_map (f : τ → Nat) {xs : List τ} {x : τ} (h : x ∈ xs) : f x ≤ (xs.map f).sum :=
  List.le_sum_of_mem (List.mem_map_of_mem h)

theorem sum_map_lt_length {f : τ → Nat} {xs : List τ} {x : τ} (h : ∀ x ∈ xs, f x ≤ 1) (hx : x ∈ xs)
    (none : f x = 0) : (xs.map f).sum < xs.length := by
  have strict := List.sum_lt_sum f (fun _ => 1) h ⟨x, hx, by omega⟩
  simpa using strict

theorem forall_mem_set {p : τ → Prop} {xs : List τ} {place : Nat} {new : τ}
    (h : ∀ x ∈ xs, p x) (hn : p new) : ∀ x ∈ xs.set place new, p x := by
  intro x hx
  rcases List.mem_or_eq_of_mem_set hx with hx | rfl
  · exact h x hx
  · exact hn

theorem forall_mem_of_set {p : τ → Prop} {xs : List τ} {place : Nat} {old new : τ}
    (there : xs[place]? = some old) (h : ∀ x ∈ xs.set place new, p x) (ho : p old) :
    ∀ x ∈ xs, p x := by
  intro x hx
  obtain ⟨i, hi⟩ := List.mem_iff_getElem?.mp hx
  by_cases same : i = place
  · subst same
    rw [there] at hi
    cases hi
    exact ho
  · refine h x (List.mem_iff_getElem?.mpr ⟨i, ?_⟩)
    rw [List.getElem?_set_ne (Ne.symm same), hi]

theorem eq_or_mem_set {xs : List τ} {place : Nat} {old new x : τ} (there : xs[place]? = some old)
    (hx : x ∈ xs) : x = old ∨ x ∈ xs.set place new :=
  forall_mem_of_set there (p := fun x => x = old ∨ x ∈ xs.set place new) (fun _ => .inr) (.inl rfl)
    x hx

end SchedulerLearning

import SchedulerLearning.Decimal.Reader
import SchedulerLearning.Proofs.Outcome
import Mathlib.Data.List.TakeWhile

/-!
# The characters of numbers

A text that is read as a number has no colon in it, so that a colon can end a number.
-/

namespace SchedulerLearning.Decimal

variable {text : List Char}

theorem isDigit_of_digits? {value n : Nat} (h : digits? value text = some n) {c : Char}
    (there : c ∈ text) : c.isDigit := by
  induction text generalizing value with
  | nil => simp at there
  | cons d rest ih =>
    obtain ⟨digit, first, others⟩ := Option.bind_eq_some_iff.mp h
    obtain rfl | there := List.mem_cons.mp there
    · by_contra other
      simp [digit?, other] at first
    · exact ih others there

theorem colon_mem_dropWhile (h : ':' ∈ text) : ':' ∈ text.dropWhile Char.isDigit := by
  rw [← List.takeWhile_append_dropWhile (p := Char.isDigit) (l := text)] at h
  obtain digit | h := List.mem_append.mp h
  · exact absurd (List.mem_takeWhile_imp digit) (by decide)
  · exact h

theorem colon_mem_tail {c : Char} (h : ':' ∈ text) (first : text.head? = some c) (other : c ≠ ':') :
    ':' ∈ text.tail := by
  obtain ⟨rest, rfl⟩ := List.head?_eq_some_iff.mp first
  exact (List.mem_cons.mp h).resolve_left (Ne.symm other)

theorem colon_notMem_of_exponent? {e : Int} (h : exponent? text = some e) : ':' ∉ text := by
  intro there
  cases text with
  | nil => simp at there
  | cons c rest =>
    simp only [exponent?, Option.ite_none_right_eq_some, Option.ite_none_left_eq_some,
      Option.map_eq_some_iff, Option.bind_eq_bind, Option.bind_eq_some_iff] at h
    obtain ⟨letter, -, -, ⟨n, read, -⟩, -⟩ := h
    have behind : ':' ∈ rest := colon_mem_tail there rfl (by rintro rfl; simp at letter)
    have digit : (':').isDigit := by
      refine isDigit_of_digits? read ?_
      split
      · next sign =>
        obtain minus | plus := by simpa using sign
        · exact colon_mem_tail behind minus (by decide)
        · exact colon_mem_tail behind plus (by decide)
      · exact behind
    cases digit

theorem colon_notMem_of_magnitude? {x : Float} (h : magnitude? text = some x) : ':' ∉ text := by
  intro there
  have lower : ':' ∈ text.map Char.toLower := List.mem_map.mpr ⟨':', there, rfl⟩
  have infinite : ¬(text.map Char.toLower = "inf".toList ∨ text.map Char.toLower = "infinity".toList) := by
    rintro (name | name) <;> simp [name] at lower
  have number : text.map Char.toLower ≠ "nan".toList := by
    intro name
    simp [name] at lower
  have rest := colon_mem_dropWhile there
  simp only [magnitude?, if_neg infinite, if_neg number, Option.ite_none_left_eq_some, Option.bind_eq_bind,
    Option.bind_eq_some_iff] at h
  obtain ⟨-, -, -, e, exponent, -⟩ := h
  refine colon_notMem_of_exponent? exponent ?_
  split
  · next point => exact colon_mem_dropWhile (colon_mem_tail rest point (by decide))
  · exact rest

theorem colon_notMem_of_number? {x : Float} (h : number? text = some x) : ':' ∉ text := by
  unfold number? at h
  split at h
  · obtain ⟨y, read, -⟩ := Option.map_eq_some_iff.mp h
    simpa using colon_notMem_of_magnitude? read
  · simpa using colon_notMem_of_magnitude? h
  · exact colon_notMem_of_magnitude? h

end SchedulerLearning.Decimal

import SchedulerLearning.Proofs.FloatOrder
import SchedulerLearning.Proofs.FloatRounding

/-!
# Sums of floating point values

A sum with a term that is no number is no number, and a sum of values that are not below zero is
not below zero. A count added to a positive number gives a positive number: it neither rounds
away nor reaches infinity.
-/

namespace SchedulerLearning.FloatSums

open Float.Model (UnpackedFloat Format)
open Float.Model.UnpackedFloat
open FloatOrder FloatRounding

variable {x y : Float} {u v : UnpackedFloat} {s : Sign}

-- ---------------------------------------------------------------------------
-- Signs
-- ---------------------------------------------------------------------------

def sign? : UnpackedFloat → Option Sign
  | .notANumber => none
  | .infinity s | .zero s | .finite s _ _ _ => some s

theorem sign?_unpack_packComponents {e : BitVec 11} {m : BitVec 52}
    (number : e = -1#_ → m = 0#_) :
    sign? (unpack .binary64 (packComponents .binary64 s e m)) = some s := by
  unfold unpack
  simp only [unpackSign_packComponents, Sign.ofBitVec_toBitVec, unpackExponent_packComponents,
    unpackMantissa_packComponents]
  split
  · next top => rw [if_pos (number top), sign?]
  · split
    · split <;> rfl
    · rfl

/-- Packing may round to infinity or to zero, but keeps the sign and what is no number. -/
theorem sign?_unpack_pack (u : UnpackedFloat) :
    sign? (unpack .binary64 (pack .binary64 u)) = sign? u := by
  cases u with
  | notANumber => rfl
  | infinity s => exact sign?_unpack_packComponents fun _ => rfl
  | zero s => exact sign?_unpack_packComponents nofun
  | finite s m e pos =>
    unfold pack
    dsimp only
    split
    · exact sign?_unpack_packComponents fun _ => rfl
    · next below =>
      split
      · refine sign?_unpack_packComponents fun top => absurd (congrArg BitVec.toNat top) ?_
        simp at below ⊢
        omega
      · exact sign?_unpack_packComponents nofun

theorem sign?_round {m : Nat} {e : Int} : sign? (UnpackedFloat.round .binary64 s m e) = some s := by
  unfold UnpackedFloat.round roundWithAccuracy
  dsimp only
  split <;> rfl

theorem sign?_normalize_ne_none {m e : Int} : sign? (UnpackedFloat.normalize .binary64 m e s) ≠ none := by
  unfold UnpackedFloat.normalize
  split
  · rw [sign?_round]; nofun
  · nofun
  · rw [sign?_round]; nofun

theorem isNaN_iff : x.isNaN ↔ sign? x.toModel.unpack = none := by
  show x.toModel.unpack.isNaN = true ↔ _
  cases x.toModel.unpack <;> simp [UnpackedFloat.isNaN, sign?]

theorem unpack_add (x y : Float) : (x + y).toModel.unpack =
    unpack .binary64 (pack .binary64 (add .binary64 x.toModel.unpack y.toModel.unpack)) := rfl

theorem unpack_sub (x y : Float) : (x - y).toModel.unpack =
    unpack .binary64 (pack .binary64 (sub .binary64 x.toModel.unpack y.toModel.unpack)) := rfl

theorem unpack_neg (x : Float) : (-x).toModel.unpack =
    unpack .binary64 (pack .binary64 x.toModel.unpack.neg) := rfl

-- ---------------------------------------------------------------------------
-- What is no number
-- ---------------------------------------------------------------------------

theorem place?_eq_none : place? u = none ↔ sign? u = none := by
  rcases u with (_ | _) | _ | _ | ⟨_ | _, m, e, _⟩ <;> simp [place?, sign?]

theorem isNaN_iff_place : x.isNaN ↔ place? x.toModel.unpack = none := isNaN_iff.trans place?_eq_none.symm

theorem exists_place (number : ¬x.isNaN) : ∃ i, place? x.toModel.unpack = some i :=
  Option.ne_none_iff_exists'.mp (mt isNaN_iff_place.mpr number)

theorem not_lt_of_isNaN (nan : y.isNaN) : ¬x < y := by
  rw [lt_iff_place]
  rintro ⟨_, j, -, hj, -⟩
  cases hj.symm.trans (isNaN_iff_place.mp nan)

theorem not_isNaN_of_le (le : x ≤ y) : ¬y.isNaN := by
  obtain ⟨_, j, -, hj, -⟩ := le_iff_place.mp le
  rw [isNaN_iff_place, hj]
  nofun

theorem not_lt_iff (number : ¬x.isNaN) (number' : ¬y.isNaN) : ¬x < y ↔ y ≤ x := by
  obtain ⟨i, hi⟩ := exists_place number
  obtain ⟨j, hj⟩ := exists_place number'
  rw [lt_iff_place, le_iff_place, hi, hj]
  simp

theorem isNaN_add (nan : x.isNaN ∨ y.isNaN) : (x + y).isNaN := by
  rw [isNaN_iff, isNaN_iff] at nan
  rw [isNaN_iff, unpack_add, sign?_unpack_pack]
  cases hu : x.toModel.unpack <;> cases hv : y.toModel.unpack <;> simp_all [sign?, UnpackedFloat.add]

theorem isNaN_neg : (-x).isNaN ↔ x.isNaN := by
  rw [isNaN_iff, isNaN_iff, unpack_neg, sign?_unpack_pack]
  cases x.toModel.unpack <;> simp [sign?, UnpackedFloat.neg]

theorem sign?_sub_eq_none (finite : v.isFinite) :
    sign? (UnpackedFloat.sub .binary64 u v) = none ↔ sign? u = none := by
  cases v with
  | notANumber | infinity => cases finite
  | zero s =>
    cases u with
    | zero s' =>
      simp only [UnpackedFloat.sub]
      split <;> simp [sign?]
    | _ => exact .rfl
  | finite s m e pos =>
    cases u with
    | finite => exact iff_of_false sign?_normalize_ne_none (by simp [sign?])
    | _ => simp [UnpackedFloat.sub, sign?]

theorem isNaN_sub (finite : y.isFinite) : (x - y).isNaN ↔ x.isNaN := by
  rw [isNaN_iff, isNaN_iff, unpack_sub, sign?_unpack_pack]
  exact sign?_sub_eq_none finite

-- ---------------------------------------------------------------------------
-- Values that are not negative
-- ---------------------------------------------------------------------------

inductive Nonneg : UnpackedFloat → Prop
  | zero (s : Sign) : Nonneg (.zero s)
  | finite (m : Nat) (e : Int) (pos : 0 < m) : Nonneg (.finite .positive m e pos)
  | infinity : Nonneg (.infinity .positive)

theorem nonneg_of_sign? (positive : sign? u = some .positive) : Nonneg u := by
  cases u <;> cases positive <;> constructor

theorem nonneg_iff : 0 ≤ x ↔ Nonneg x.toModel.unpack := by
  have zero : place? (0 : Float).toModel.unpack = some (toLex (0, toLex (0, 0))) := rfl
  rw [le_iff_place, zero]
  generalize x.toModel.unpack = u
  constructor
  · rintro ⟨i, j, hi, hj, le⟩
    cases hi
    rcases u with (_ | _) | _ | s | ⟨_ | _, m, e, pos⟩ <;> cases hj
    · exact absurd le (by decide)
    · exact .infinity
    · exact .zero s
    · exact absurd le (by simp [Prod.Lex.toLex_le_toLex])
    · exact .finite m e pos
  · intro nonneg
    cases nonneg <;> simp [place?, Prod.Lex.toLex_le_toLex]

theorem Nonneg.unpack_pack (nonneg : Nonneg u) : Nonneg (unpack .binary64 (pack .binary64 u)) := by
  cases nonneg with
  | zero s =>
    show Nonneg (unpack .binary64 (packedZero .binary64 s))
    rw [unpack_packedZero]
    exact .zero s
  | finite m e pos => exact nonneg_of_sign? (sign?_unpack_pack _)
  | infinity => exact nonneg_of_sign? (sign?_unpack_pack _)

theorem Nonneg.add (nonneg : Nonneg u) (nonneg' : Nonneg v) : Nonneg (UnpackedFloat.add .binary64 u v) := by
  cases nonneg with
  | infinity => cases nonneg' <;> exact .infinity
  | zero s =>
    cases nonneg' with
    | zero s' =>
      simp only [UnpackedFloat.add]
      split <;> exact .zero _
    | finite n d pos' => exact .finite n d pos'
    | infinity => exact .infinity
  | finite m e pos =>
    cases nonneg' with
    | zero s' => exact .finite m e pos
    | finite n d pos' => exact nonneg_of_sign? (add_positive pos pos' ▸ sign?_round)
    | infinity => exact .infinity

theorem nonneg_add (nonneg : 0 ≤ x) (nonneg' : 0 ≤ y) : 0 ≤ x + y := by
  rw [nonneg_iff] at nonneg nonneg' ⊢
  exact (nonneg.add nonneg').unpack_pack

theorem not_isNaN_of_nonneg (nonneg : 0 ≤ x) : ¬x.isNaN := not_isNaN_of_le nonneg

-- ---------------------------------------------------------------------------
-- Lists
-- ---------------------------------------------------------------------------

theorem nonneg_foldl {xs : List Float} (start : 0 ≤ x) (nonneg : ∀ y ∈ xs, 0 ≤ y) :
    0 ≤ xs.foldl (· + ·) x := by
  induction xs generalizing x with
  | nil => exact start
  | cons y ys ih =>
    rw [List.forall_mem_cons] at nonneg
    exact ih (nonneg_add start nonneg.1) nonneg.2

theorem isNaN_foldl {xs : List Float} (nan : x.isNaN ∨ ∃ y ∈ xs, y.isNaN) :
    (xs.foldl (· + ·) x).isNaN := by
  induction xs generalizing x with
  | nil => exact nan.resolve_right (by simp)
  | cons y ys ih =>
    rw [List.exists_mem_cons_iff] at nan
    refine ih ?_
    obtain here | here | later := nan
    · exact .inl (isNaN_add (.inl here))
    · exact .inl (isNaN_add (.inr here))
    · exact .inr later

theorem nonneg_sum {xs : List Float} (nonneg : ∀ x ∈ xs, 0 ≤ x) : 0 ≤ Scalar.sum xs :=
  nonneg_foldl (by decide) nonneg

theorem isNaN_sum {xs : List Float} (nan : ∃ x ∈ xs, x.isNaN) : (Scalar.sum xs).isNaN :=
  isNaN_foldl (.inr nan)

theorem isNaN_abs : (Scalar.abs x).isNaN ↔ x.isNaN := by
  unfold Scalar.abs
  split
  · exact isNaN_neg
  · rfl

-- ---------------------------------------------------------------------------
-- Counts
-- ---------------------------------------------------------------------------

/-- Whether a value is a positive number with an exponent up to `top`. -/
def Positive (top : Int) (u : UnpackedFloat) : Prop :=
  ∃ m e pos, u = .finite .positive m e pos ∧ Fits top m e

theorem positive_iff : Positive 971 x.toModel.unpack ↔ 0 < x ∧ x.isFinite := by
  have zero : place? (0 : Float).toModel.unpack = some (toLex (0, toLex (0, 0))) := rfl
  have finite_iff : x.isFinite ↔ x.toModel.unpack.isFinite = true := .rfl
  rw [lt_iff_place, zero, finite_iff]
  constructor
  · rintro ⟨m, e, pos, value, fits⟩
    rw [value]
    exact ⟨⟨_, _, rfl, rfl, by simp [Prod.Lex.toLex_lt_toLex]⟩, rfl⟩
  · rintro ⟨⟨i, j, hi, hj, lt⟩, finite⟩
    cases hi
    rcases value : x.toModel.unpack with (_ | _) | _ | s | ⟨_ | _, m, e, pos⟩ <;> rw [value] at hj finite <;>
      cases hj
    · cases finite
    · cases finite
    · exact absurd lt (by simp)
    · exact absurd lt (by simp [Prod.Lex.toLex_lt_toLex])
    · exact ⟨m, e, pos, rfl, fits_of_unpack value⟩

theorem Positive.unpack_pack {top : Int} (positive : Positive top u) (room : top ≤ 971) :
    Positive top (unpack .binary64 (pack .binary64 u)) := by
  obtain ⟨m, e, pos, rfl, fits⟩ := positive
  exact unpack_pack_fits pos fits room

theorem Positive.mul_one (positive : Positive 12 u) :
    Positive 12 (UnpackedFloat.mul .binary64 u (.finite .positive (2 ^ 52) (-52) (by positivity))) := by
  obtain ⟨m, e, pos, rfl, short, least, most⟩ := positive
  have log := log2_mul_two_pow pos.ne' 52
  refine roundWithAccuracy_fits (by positivity) (by omega) (by omega) (by norm_num) (by omega) ?_
  have room : (12 - (e + -52)).toNat = (12 - e).toNat + 52 := by omega
  rw [room, pow_add, ← mul_assoc, ← mul_assoc]
  have below : 2 * m < (2 ^ 54 - 1) * 2 ^ (12 - e).toNat :=
    calc 2 * m < 2 ^ 54 - 1 := by omega
      _ ≤ (2 ^ 54 - 1) * 2 ^ (12 - e).toNat := Nat.le_mul_of_pos_right _ (by positivity)
  exact Nat.mul_lt_mul_of_pos_right below (by positivity)

theorem positive_normalize {n : Nat} (pos : 0 < n) (below : n < 2 ^ 64) :
    Positive 12 (UnpackedFloat.normalize .binary64 n 0 s) := by
  rw [normalize_eq pos]
  refine round_fits pos (by norm_num) (by norm_num) ?_
  show 2 * n < (2 ^ 54 - 1) * 2 ^ 12
  omega

theorem positive_ofScientific {n : Nat} (pos : 0 < n) (below : n < 2 ^ 64) :
    Positive 12 (UnpackedFloat.ofScientific .binary64 n 0) := by
  have product : UnpackedFloat.ofScientific .binary64 n 0 =
      roundWithAccuracy .binary64 .positive (n * 2 ^ 53) (-53) .exact := by
    have unbounded : (0 : Int) ≤ 2 ^ Format.binary64.exponentBits := by positivity
    unfold UnpackedFloat.ofScientific
    rw [dif_neg pos.ne', if_neg (by norm_num), if_neg (by omega), if_pos le_rfl]
    show roundWithAccuracy .binary64 .positive (n <<< 53 * 1) (-53) .exact = _
    rw [Nat.mul_one, Nat.shiftLeft_eq]
  have log := log2_mul_two_pow pos.ne' 53
  rw [product]
  refine roundWithAccuracy_fits (by positivity) (by omega) (by omega) (by norm_num) (by norm_num) ?_
  show 2 * (n * 2 ^ 53) < (2 ^ 54 - 1) * 2 ^ 65
  omega

/-- A count of at most 53 bits is converted and multiplied by one, a larger one is rounded. -/
theorem positive_ofNat {n : Nat} (pos : 0 < n) (below : n < 2 ^ 64) :
    Positive 12 (Float.ofNat n).toModel.unpack := by
  show Positive 12 (Float.ofScientific n false 0).toModel.unpack
  unfold Float.ofScientific
  split
  · have one : (Float.ofBits 0x3FF0000000000000).toModel.unpack =
        .finite .positive (2 ^ 52) (-52) (by positivity) := rfl
    have exact : n.toUInt64.toNat = n := UInt64.toNat_ofNat_of_lt' below
    have converted : Positive 12 n.toUInt64.toFloat.toModel.unpack := by
      show Positive 12 (unpack .binary64 (pack .binary64
        (UnpackedFloat.normalize .binary64 (n.toUInt64.toNat : Nat) 0 .positive)))
      rw [exact]
      exact (positive_normalize pos below).unpack_pack (by norm_num)
    show Positive 12 (unpack .binary64 (pack .binary64 (UnpackedFloat.mul .binary64
      n.toUInt64.toFloat.toModel.unpack (Float.ofBits 0x3FF0000000000000).toModel.unpack)))
    rw [one]
    exact converted.mul_one.unpack_pack (by norm_num)
  · exact (positive_ofScientific pos below).unpack_pack (by norm_num)

theorem count_add {n : Nat} (below : n < 2 ^ 64) (pos : 0 < x) (finite : x.isFinite) :
    0 < Float.ofNat n + x ∧ (Float.ofNat n + x).isFinite := by
  have positive := positive_iff.mpr ⟨pos, finite⟩
  rw [← positive_iff, unpack_add]
  refine Positive.unpack_pack ?_ le_rfl
  rcases Nat.eq_zero_or_pos n with rfl | counted
  · obtain ⟨m, e, pos, value, fits⟩ := positive
    rw [value]
    exact ⟨m, e, pos, rfl, fits⟩
  · obtain ⟨m, e, pos, value, fits⟩ := positive
    obtain ⟨n', d, pos', value', small⟩ := positive_ofNat counted below
    rw [value, value']
    exact add_fits pos' pos small fits

end SchedulerLearning.FloatSums

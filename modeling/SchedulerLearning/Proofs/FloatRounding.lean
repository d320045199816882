import Mathlib

/-!
# Rounding to floating point

A sum or a product is computed exactly and rounded to the nearest mantissa of 53 bits, ties to
even. Rounding a value below the middle between the largest number and the next one that the
mantissa could write gives a finite number, and packing it into its bits keeps it finite.
-/

namespace SchedulerLearning.FloatRounding

open Float.Model (UnpackedFloat Format totalExponent)
open Float.Model.UnpackedFloat

variable {m e : Nat} {E top : Int} {k N : Nat} {s : Sign}

-- ---------------------------------------------------------------------------
-- Dropping bits
-- ---------------------------------------------------------------------------

/-- A mantissa without its last `k` bits, rounded. -/
def nearest (m k : Nat) : Nat :=
  (ExtendedMantissa.ofMantissaAndAccuracy m .exact >>> k).roundedMantissa

theorem mantissa_shift (x : ExtendedMantissa) (k : Nat) : (x >>> k).mantissa = x.mantissa / 2 ^ k := by
  induction k with
  | zero => exact (Nat.div_one _).symm
  | succ k ih =>
    calc (x >>> (k + 1)).mantissa = (x >>> k).mantissa / 2 := rfl
      _ = x.mantissa / 2 ^ (k + 1) := by rw [ih, Nat.div_div_eq_div_mul, pow_succ]

theorem roundBit_shift (x : ExtendedMantissa) (k : Nat) :
    (x >>> (k + 1)).roundBit = (x.mantissa / 2 ^ k % 2 != 0) := by
  rw [← mantissa_shift]
  rfl

theorem le_roundedMantissa (x : ExtendedMantissa) : x.mantissa ≤ x.roundedMantissa := by
  rcases x with ⟨m, _ | _, _ | _⟩ <;>
    simp [ExtendedMantissa.roundedMantissa, ExtendedMantissa.accuracy, Accuracy.roundToNearestEven]

theorem roundedMantissa_le (x : ExtendedMantissa) : x.roundedMantissa ≤ x.mantissa + x.roundBit.toNat := by
  rcases x with ⟨m, _ | _, _ | _⟩ <;>
    simp [ExtendedMantissa.roundedMantissa, ExtendedMantissa.accuracy, Accuracy.roundToNearestEven]
  omega

theorem div_le_nearest (m k : Nat) : m / 2 ^ k ≤ nearest m k := by
  have exact : ExtendedMantissa.mantissa (.ofMantissaAndAccuracy m .exact) = m := rfl
  calc m / 2 ^ k = (ExtendedMantissa.ofMantissaAndAccuracy m .exact >>> k).mantissa := by
        rw [mantissa_shift, exact]
    _ ≤ nearest m k := le_roundedMantissa _

@[simp] theorem nearest_zero (m : Nat) : nearest m 0 = m := rfl

theorem nearest_le (below : 2 * m < (2 * N + 1) * 2 ^ k) : nearest m k ≤ N := by
  cases k with
  | zero =>
    rw [nearest_zero]
    omega
  | succ k =>
    have kept := roundedMantissa_le (ExtendedMantissa.ofMantissaAndAccuracy m .exact >>> (k + 1))
    rw [mantissa_shift, roundBit_shift] at kept
    -- The quotient by `2 ^ k` still has the bit that decides the rounding.
    have quotient : m / 2 ^ k < 2 * N + 1 := by
      rw [Nat.div_lt_iff_lt_mul (by positivity)]
      rw [pow_succ] at below
      linarith
    have halved : m / 2 ^ (k + 1) = m / 2 ^ k / 2 := by rw [Nat.div_div_eq_div_mul, pow_succ]
    refine kept.trans ?_
    show m / 2 ^ (k + 1) + (m / 2 ^ k % 2 != 0).toNat ≤ N
    rw [halved]
    rcases Nat.mod_two_eq_zero_or_one (m / 2 ^ k) with even | odd
    · rw [even]
      show m / 2 ^ k / 2 + 0 ≤ N
      omega
    · rw [odd]
      show m / 2 ^ k / 2 + 1 ≤ N
      omega

-- ---------------------------------------------------------------------------
-- Roundings
-- ---------------------------------------------------------------------------

/-- A nonzero value of so many bits at most, with an exponent up to `top`. -/
structure Fits (top : Int) (m : Nat) (e : Int) : Prop where
  short : m < 2 ^ 53
  least : -1074 ≤ e
  most : e ≤ top

theorem targetExponent_eq (m : Nat) (e : Int) :
    Format.binary64.targetExponent (totalExponent m e) = max (m.log2 + e - 52) (-1074) := by
  show max (↑m.log2 + 1 + e - 53) (-1074) = max (↑m.log2 + e - 52) (-1074)
  congr 1
  omega

theorem shiftToTargetExponent_eq {e : Int}
    (amount : (max (m.log2 + e - 52) (-1074) - e).toNat = k) :
    shiftToTargetExponent .binary64 m e .exact =
      (ExtendedMantissa.ofMantissaAndAccuracy m .exact >>> k, e + k) := by
  subst amount
  rw [← targetExponent_eq]
  rfl

/-- A rounding drops the bits below the exponent it is due, and writes a carry out of the
mantissa as one more in the exponent. -/
theorem roundWithAccuracy_eq {e : Int} (pos : 0 < nearest m k) (short : nearest m k ≤ 2 ^ 53)
    (due : max (m.log2 + e - 52) (-1074) = e + k) :
    ∃ m' e' pos', roundWithAccuracy .binary64 s m e .exact = .finite s m' e' pos' ∧
      (m' = nearest m k ∧ m' < 2 ^ 53 ∧ e' = e + k ∨
        nearest m k = 2 ^ 53 ∧ m' = 2 ^ 52 ∧ e' = e + k + 1) := by
  have first := shiftToTargetExponent_eq (m := m) (e := e) (k := k) (by omega)
  have least : -1074 ≤ e + k := due ▸ le_max_right _ _
  unfold roundWithAccuracy
  rw [first]
  show ∃ m' e' pos', (match shiftToTargetExponent .binary64 (nearest m k) (e + k) .exact with
    | (x, e'') => if h : x.mantissa = 0 then UnpackedFloat.zero s
        else .finite s x.mantissa e'' (Nat.pos_of_ne_zero h)) = .finite s m' e' pos' ∧ _
  rcases short.lt_or_eq with small | carry
  · have log : (nearest m k).log2 < 53 := (Nat.log2_lt pos.ne').mpr small
    rw [shiftToTargetExponent_eq (k := 0) (by omega)]
    refine ⟨nearest m k, e + k, pos, ?_, .inl ⟨rfl, small, rfl⟩⟩
    show (if h : nearest m k = 0 then _ else _) = _
    rw [dif_neg pos.ne']
    congr 1
    exact add_zero _
  · have log : (nearest m k).log2 = 53 := by rw [carry]; exact Nat.log2_two_pow
    rw [shiftToTargetExponent_eq (k := 1) (by omega)]
    refine ⟨2 ^ 52, e + k + 1, by positivity, ?_, .inr ⟨carry, rfl, rfl⟩⟩
    have halved : nearest m k / 2 = 2 ^ 52 := by rw [carry]; rfl
    show (if h : nearest m k / 2 = 0 then _ else _) = _
    rw [dif_neg (by rw [halved]; positivity)]
    congr 1

theorem roundWithAccuracy_fits (pos : 0 < m) (least : -1074 ≤ m.log2 + E)
    (aligned : E ≤ max (m.log2 + E - 52) (-1074)) (room : -1074 ≤ top) (most : E ≤ top)
    (below : 2 * m < (2 ^ 54 - 1) * 2 ^ (top - E).toNat) :
    ∃ m' e' pos', roundWithAccuracy .binary64 s m E .exact = .finite s m' e' pos' ∧ Fits top m' e' := by
  obtain ⟨k, due⟩ : ∃ k : Nat, max (m.log2 + E - 52) (-1074) = E + k :=
    ⟨(max (m.log2 + E - 52) (-1074) - E).toNat, by omega⟩
  have log_lt : m.log2 < 53 + (top - E).toNat := by
    rw [Nat.log2_lt pos.ne', pow_add]
    omega
  have short : m < 2 ^ (53 + k) := by
    rw [← Nat.log2_lt pos.ne']
    omega
  have at_most : nearest m k ≤ 2 ^ 53 := by
    refine nearest_le ?_
    rw [pow_add] at short
    linarith
  have kept : 0 < nearest m k := by
    have writable : 2 ^ k ≤ m := (Nat.le_log2 pos.ne').mp (by omega)
    exact (Nat.div_pos writable (by positivity)).trans_le (div_le_nearest m k)
  obtain ⟨m', e', pos', rounded, ⟨rfl, small, rfl⟩ | ⟨carry, rfl, rfl⟩⟩ :=
    roundWithAccuracy_eq (s := s) kept at_most due
  · exact ⟨_, _, pos', rounded, small, by omega, by omega⟩
  · refine ⟨_, _, pos', rounded, by norm_num, by omega, ?_⟩
    by_contra beyond
    have all : (top - E).toNat = k := by omega
    have under : nearest m k ≤ 2 ^ 53 - 1 := nearest_le (all ▸ below)
    omega

theorem log2_mul_two_pow (nonzero : m ≠ 0) (j : Nat) : (m * 2 ^ j).log2 = m.log2 + j := by
  induction j with
  | zero => rw [pow_zero, mul_one, add_zero]
  | succ j ih =>
    rw [pow_succ', mul_left_comm, Nat.log2_two_mul (by positivity), ih, add_assoc]

/-- Bits that are missing below are added first, which moves neither the value nor its bound. -/
theorem round_fits (pos : 0 < m) (least : -1074 ≤ E) (most : E ≤ top)
    (below : 2 * m < (2 ^ 54 - 1) * 2 ^ (top - E).toNat) :
    ∃ m' e' pos', UnpackedFloat.round .binary64 s m E = .finite s m' e' pos' ∧ Fits top m' e' := by
  obtain ⟨j, added⟩ : ∃ j : Nat, j = (E - max (m.log2 + E - 52) (-1074)).toNat := ⟨_, rfl⟩
  have log := log2_mul_two_pow pos.ne' j
  have shifted : UnpackedFloat.round .binary64 s m E =
      roundWithAccuracy .binary64 s (m * 2 ^ j) (E - j) .exact := by
    rw [added, ← Nat.shiftLeft_eq, ← targetExponent_eq]
    rfl
  rw [shifted]
  refine roundWithAccuracy_fits (by positivity) (by omega) (by omega) (by omega) (by omega) ?_
  have room : (top - (E - j)).toNat = (top - E).toNat + j := by omega
  rw [room, pow_add]
  calc 2 * (m * 2 ^ j) = 2 * m * 2 ^ j := (mul_assoc _ _ _).symm
    _ < (2 ^ 54 - 1) * 2 ^ (top - E).toNat * 2 ^ j := Nat.mul_lt_mul_of_pos_right below (by positivity)
    _ = (2 ^ 54 - 1) * (2 ^ (top - E).toNat * 2 ^ j) := mul_assoc _ _ _

theorem normalize_eq {zero : Sign} (pos : 0 < m) :
    UnpackedFloat.normalize .binary64 m E zero = UnpackedFloat.round .binary64 .positive m E := by
  have order : compare (m : Int) 0 = .gt := compare_gt_iff_gt.mpr (by exact_mod_cast pos)
  unfold UnpackedFloat.normalize
  rw [order]
  rfl

theorem add_positive {m n : Nat} {e d : Int} (pos : 0 < m) (pos' : 0 < n) :
    add .binary64 (.finite .positive m e pos) (.finite .positive n d pos') =
      UnpackedFloat.round .binary64 .positive
        (m * 2 ^ (e - min e d).toNat + n * 2 ^ (d - min e d).toNat) (min e d) := by
  rw [← Nat.shiftLeft_eq, ← Nat.shiftLeft_eq]
  exact normalize_eq (by simp only [Nat.shiftLeft_eq]; positivity)

theorem add_fits {m n : Nat} {e d : Int} (pos : 0 < m) (pos' : 0 < n) (small : Fits 12 m e)
    (fits : Fits 971 n d) : ∃ m' e' pos'',
      add .binary64 (.finite .positive m e pos) (.finite .positive n d pos') =
        .finite .positive m' e' pos'' ∧ Fits 971 m' e' := by
  obtain ⟨a, left⟩ : ∃ a : Nat, a = (e - min e d).toNat := ⟨_, rfl⟩
  obtain ⟨b, right⟩ : ∃ b : Nat, b = (d - min e d).toNat := ⟨_, rfl⟩
  obtain ⟨c, room⟩ : ∃ c : Nat, c = (971 - min e d).toNat := ⟨_, rfl⟩
  have := small.least
  have := small.most
  have := fits.least
  have := fits.most
  rw [add_positive, ← left, ← right]
  refine round_fits (by positivity) (by omega) (by omega) ?_
  rw [← room]
  have low : 2 * (m * 2 ^ a) < 2 ^ c :=
    calc 2 * (m * 2 ^ a) < 2 * (2 ^ 53 * 2 ^ a) := by
          have := small.short
          gcongr
      _ = 2 ^ (a + 54) := by ring
      _ ≤ 2 ^ c := Nat.pow_le_pow_right (by norm_num) (by omega)
  have high : n * 2 ^ b ≤ (2 ^ 53 - 1) * 2 ^ c :=
    Nat.mul_le_mul (Nat.le_pred_of_lt fits.short) (Nat.pow_le_pow_right (by norm_num) (by omega))
  omega

-- ---------------------------------------------------------------------------
-- Bits
-- ---------------------------------------------------------------------------

theorem unpack_eq_finite {b : BitVec Format.binary64.numBits} {e : Int} {pos : 0 < m} :
    unpack .binary64 b = .finite s m e pos ↔ s = Sign.ofBitVec (unpackSign b) ∧
      ((unpackExponent b).toNat = 0 ∧ m = (unpackMantissa b).toNat ∧ e = -1074 ∨
        0 < (unpackExponent b).toNat ∧ (unpackExponent b).toNat < 2047 ∧
          m = 2 ^ 52 + (unpackMantissa b).toNat ∧ e = (unpackExponent b).toNat - 1075) := by
  have bias : (Format.binary64.exponentBias : Int) + (52 : Nat) = 1075 := rfl
  have greatest : unpackExponent b = -1#_ ↔ (unpackExponent b).toNat = 2047 := BitVec.toNat_inj.symm
  have least : unpackExponent b = 0#_ ↔ (unpackExponent b).toNat = 0 := BitVec.toNat_inj.symm
  have exponent_lt : (unpackExponent b).toNat < 2 ^ 11 := (unpackExponent b).isLt
  have implicit : (1#1 ++ unpackMantissa b).toNat = 2 ^ 52 + (unpackMantissa b).toNat := by
    have set := Nat.two_pow_add_eq_or_of_lt (unpackMantissa b).isLt 1
    rw [mul_one] at set
    rw [BitVec.toNat_append]
    exact set.symm
  unfold unpack
  dsimp only
  rw [bias]
  split
  · next top =>
    rw [greatest] at top
    split <;> simp [top]
  · next below =>
    rw [greatest] at below
    split
    · next subnormal =>
      rw [least] at subnormal
      split
      · next zero => simp [zero, subnormal]; omega
      · rw [UnpackedFloat.finite.injEq, eq_comm]
        exact and_congr_right' (by omega)
    · next normal =>
      rw [least] at normal
      rw [UnpackedFloat.finite.injEq, implicit, eq_comm]
      exact and_congr_right' (by omega)

theorem fits_of_unpack {b : BitVec Format.binary64.numBits} {e : Int} {pos : 0 < m}
    (value : unpack .binary64 b = .finite s m e pos) : Fits 971 m e := by
  have mantissa_lt : (unpackMantissa b).toNat < 2 ^ 52 := (unpackMantissa b).isLt
  obtain ⟨-, ⟨-, rfl, rfl⟩ | ⟨above, below, rfl, rfl⟩⟩ := unpack_eq_finite.mp value
  · exact ⟨by omega, by omega, by omega⟩
  · exact ⟨by omega, by omega, by omega⟩

theorem unpack_pack_fits {e : Int} (pos : 0 < m) (fits : Fits top m e) (room : top ≤ 971) :
    ∃ m' e' pos', unpack .binary64 (pack .binary64 (.finite s m e pos)) = .finite s m' e' pos' ∧
      Fits top m' e' := by
  have := fits.least
  have := fits.most
  have := fits.short
  obtain ⟨biased, bias⟩ : ∃ biased : Nat,
      (e + (Format.binary64.exponentBias : Int) + (52 : Nat)).toNat = biased := ⟨_, rfl⟩
  have shifted : (biased : Int) = e + 1075 := by
    have exact : (Format.binary64.exponentBias : Int) = 1023 := rfl
    omega
  unfold pack
  dsimp only
  rw [bias, if_neg (by norm_num; omega)]
  split
  · refine ⟨2 ^ 52 + m % 2 ^ 52, e, by positivity, ?_, by omega, by omega, by omega⟩
    have kept : biased % 2 ^ 11 = biased := Nat.mod_eq_of_lt (by omega)
    simp only [unpack_eq_finite, unpackSign_packComponents, Sign.ofBitVec_toBitVec,
      unpackExponent_packComponents, unpackMantissa_packComponents, BitVec.toNat_ofNat, kept]
    exact ⟨trivial, .inr ⟨by omega, by omega, trivial, by omega⟩⟩
  · next subnormal =>
    have short : m < 2 ^ 52 := by
      rw [← Nat.log2_lt pos.ne']
      have log : m.log2 < 53 := (Nat.log2_lt pos.ne').mpr fits.short
      have apart : m.log2 + 1 ≠ 53 := subnormal
      omega
    refine ⟨m, -1074, pos, ?_, by omega, by omega, by omega⟩
    simp only [unpack_eq_finite, unpackSign_packComponents, Sign.ofBitVec_toBitVec,
      unpackExponent_packComponents, unpackMantissa_packComponents, BitVec.toNat_ofNat]
    exact ⟨trivial, .inl ⟨trivial, (Nat.mod_eq_of_lt short).symm, trivial⟩⟩

end SchedulerLearning.FloatRounding

import BindOnce.Number.Arithmetic
import BindOnce.Proofs.Rounding

/-!
# Numbers without a fraction

`Number.truncated` clears the bits of a fraction.  What is left has an integer for its value, the
whole part of the number: the integer next to it on the side of zero.

A whole number of moderate size goes from a number to a machine word and back without loss.  In the
one direction bits are shifted out that have been cleared before; in the other the word has no more
bits than a significand has room for, so that rounding changes nothing.

## What is here

* `Number.wholePart`, `Number.value_truncated` — the whole part of a number.
* `Number.toNat_toUInt64` — from a number to a machine word.
* `Number.value_toFloat_word` — from a machine word to a number.
-/

set_option autoImplicit false
namespace BindOnce

open Float.Model (Format totalExponent)
open Float.Model.UnpackedFloat (Sign ExtendedMantissa)

namespace Binary64

/-- The whole part of the number `m * 2 ^ e`. -/
def whole (m : Nat) (e : Int) : Nat := m * Nat.pow 2 e.toNat / Nat.pow 2 (-e).toNat

/-! ## The whole part -/

section Whole

variable {m : Nat} {e : Int}

theorem floor_value (m : Nat) (e : Int) : ⌊(m * 2 ^ e : ℚ)⌋ = whole m e := by
  rw [← div_eq_value, Rat.floor_natCast_div_natCast, whole, Int.natCast_div]

theorem truncated_mul_zpow (m : Nat) (e : Int) :
    ((m / Nat.pow 2 (-e).toNat * Nat.pow 2 (-e).toNat : ℕ) : ℚ) * 2 ^ e = whole m e := by
  rcases le_total 0 e with h | h
  · lift e to ℕ using h
    simp [whole]
  · obtain ⟨k, rfl⟩ : ∃ k : ℕ, e = -k := ⟨e.natAbs, by omega⟩
    simp [whole]

theorem ofFloat_toFloat_truncated (h : Stored m e) (negative : Bool) :
    ∃ m' e', ofFloat (truncated (.finite negative m e)).toFloat = .finite negative m' e' ∧
      (m' * 2 ^ e' : ℚ) = whole m e := by
  have hvalue := truncated_mul_zpow m e
  rw [truncated]
  generalize hm' : m / Nat.pow 2 (-e).toNat * Nat.pow 2 (-e).toNat = m' at *
  rcases m'.eq_zero_or_pos with rfl | hpos
  · refine ⟨0, minExponent, ?_, by simpa using hvalue⟩
    have hstored : Stored 0 minExponent := ⟨by decide, le_rfl, by decide, .inr rfl⟩
    have hbits : toBits (.finite negative 0 e) = toBits (.finite negative 0 minExponent) := by
      rw [toBits, toBits]
    rw [toFloat, hbits, ← toFloat]
    exact ofFloat_toFloat (x := .finite negative 0 minExponent) hstored
  · refine ⟨m', e, ofFloat_toFloat (x := .finite negative m' e) ?_, hvalue⟩
    have hle : m' ≤ m := hm' ▸ Nat.div_mul_le_self _ _
    refine ⟨hle.trans_lt h.significand_lt, h.minExponent_le, h.le_maxExponent, ?_⟩
    refine h.normal.imp_left fun hn => ?_
    have hhidden : hiddenBit = Nat.pow 2 52 := by decide
    generalize (-e).toNat = k at *
    rcases le_or_gt k 52 with hk | hk
    · -- the hidden bit is not part of the fraction
      have hsplit : hiddenBit = Nat.pow 2 (52 - k) * Nat.pow 2 k := by
        rw [hhidden, Nat.pow_eq, Nat.pow_eq, Nat.pow_eq, ← pow_add, Nat.sub_add_cancel hk]
      rw [← hm', hsplit]
      refine Nat.mul_le_mul_right _ ((Nat.le_div_iff_mul_le (Nat.pow_pos two_pos)).2 ?_)
      exact hsplit ▸ hn
    · have hlt : m < Nat.pow 2 k := by
        calc m < 2 * hiddenBit := h.significand_lt
          _ = Nat.pow 2 53 := by decide
          _ ≤ Nat.pow 2 k := Nat.pow_le_pow_right two_pos hk
      rw [Nat.div_eq_of_lt hlt, zero_mul] at hm'
      omega

end Whole

/-! ## Conversions -/

section Conversion

theorem mantissa_shiftRight (em : ExtendedMantissa) (k : Nat) :
    (em >>> k).mantissa = em.mantissa / Nat.pow 2 k := by
  induction k with
  | zero => exact (Nat.div_one _).symm
  | succ k ih =>
    change (em >>> k).mantissa / 2 = _
    rw [ih, Nat.div_div_eq_div_mul]
    rfl

theorem roundToInt_eq (s : Sign) (m : Nat) (e : Int) :
    Float.Model.UnpackedFloat.roundToInt s m e = s.apply (whole m e) := by
  have hshift : (0 - (e - (e - 0).toNat)).toNat = (-e).toNat := by omega
  simp only [Float.Model.UnpackedFloat.roundToInt, Float.Model.UnpackedFloat.decreaseExponent,
    Float.Model.UnpackedFloat.shiftToExponent, mantissa_shiftRight, hshift]
  rw [Nat.shiftLeft_eq, sub_zero]
  rfl

theorem toNat_ofNatClamp {n : Nat} (h : n < 2 ^ 64) : (UInt64.ofNatClamp n).toNat = n := by
  rw [UInt64.ofNatClamp, dif_pos (show n < UInt64.size from h)]
  rfl

/-- The conversion to a machine word drops the fraction, and nothing else. -/
theorem toNat_toUInt64 {x : Float} {negative : Bool} {m : Nat} {e : Int}
    (hx : ofFloat x = .finite negative m e) (hsign : negative = false ∨ m = 0)
    (hlt : whole m e < 2 ^ 64) : x.toUInt64.toNat = whole m e := by
  have hword : x.toUInt64 = (ofFloat x).unpacked.toUInt64 := by rw [← unpack_toModel]; rfl
  rw [hword, hx, unpacked]
  split
  · rename_i hm
    obtain rfl := hsign.resolve_right hm.ne'
    rw [Float.Model.UnpackedFloat.toUInt64, Float.Model.UnpackedFloat.toInt, roundToInt_eq]
    exact toNat_ofNatClamp hlt
  · rename_i hm
    rw [whole, Nat.eq_zero_of_not_pos hm, zero_mul, Nat.zero_div]
    exact toNat_ofNatClamp (n := 0) (by decide)

theorem targetExponent_le {m : Nat} {e : Int} (h : Stored m e) (hm : 0 < m) :
    Format.binary64.targetExponent (totalExponent m e) ≤ e := by
  have hlog : m.log2 < 53 := (Nat.log2_lt hm.ne').2 h.significand_lt
  have hmin : minExponent ≤ e := h.minExponent_le
  have hbits : (Format.binary64.mantissaBits : ℤ) = 53 := rfl
  have hleast : Format.binary64.minExponent = minExponent := rfl
  rw [Format.targetExponent, totalExponent, hbits, hleast]
  omega

theorem shiftToTargetExponent_of_stored {m : Nat} {e : Int} (h : Stored m e) (hm : 0 < m) :
    Float.Model.UnpackedFloat.shiftToTargetExponent .binary64 m e .exact = (⟨m, false, false⟩, e) := by
  have hshift : (Format.binary64.targetExponent (totalExponent m e) - e).toNat = 0 := by
    have := targetExponent_le h hm
    omega
  simp only [Float.Model.UnpackedFloat.shiftToTargetExponent,
    Float.Model.UnpackedFloat.shiftToExponent, hshift, Nat.cast_zero, add_zero]
  rfl

/-- Rounding leaves a number of the format as it is. -/
theorem roundWithAccuracy_of_stored {m : Nat} {e : Int} (h : Stored m e) (hm : 0 < m)
    (negative : Bool) :
    Float.Model.UnpackedFloat.roundWithAccuracy .binary64 (sign negative) m e .exact =
      unpacked (.finite negative m e) := by
  have hround : ExtendedMantissa.roundedMantissa ⟨m, false, false⟩ = m := rfl
  simp only [Float.Model.UnpackedFloat.roundWithAccuracy, shiftToTargetExponent_of_stored h hm,
    hround]
  rw [dif_neg hm.ne', unpacked, dif_pos hm]

theorem stored_shiftLeft {n : Nat} (hn : 0 < n) (hlt : n < 2 * hiddenBit) :
    Stored (n <<< (52 - n.log2)) (-(52 - n.log2 : ℕ)) := by
  have hlog : n.log2 ≤ 52 := Nat.lt_succ_iff.1 ((Nat.log2_lt hn.ne').2 hlt)
  have hlow : 2 ^ n.log2 ≤ n := Nat.log2_self_le hn.ne'
  have hhigh : n < 2 ^ (n.log2 + 1) := Nat.lt_log2_self
  have hhidden : hiddenBit = 2 ^ n.log2 * 2 ^ (52 - n.log2) := by
    rw [← pow_add, Nat.add_sub_cancel' hlog]
    rfl
  rw [Nat.shiftLeft_eq]
  refine ⟨?_, ?_, ?_, .inl ?_⟩
  · rw [hhidden, ← mul_assoc, ← Nat.pow_succ']
    exact Nat.mul_lt_mul_of_pos_right hhigh (by positivity)
  · rw [minExponent]
    omega
  · rw [maxExponent]
    omega
  · rw [hhidden]
    exact Nat.mul_le_mul_right _ hlow

theorem normalize_natCast {n : Nat} (hn : 0 < n) (hlt : n < 2 * hiddenBit) :
    Float.Model.UnpackedFloat.normalize .binary64 n 0 .positive =
      unpacked (.finite false (n <<< (52 - n.log2)) (-(52 - n.log2 : ℕ))) := by
  have hlog : n.log2 ≤ 52 := Nat.lt_succ_iff.1 ((Nat.log2_lt hn.ne').2 hlt)
  have hstored := stored_shiftLeft hn hlt
  have htarget : Format.binary64.targetExponent (totalExponent n 0) = -(52 - n.log2 : ℕ) := by
    have hbits : (Format.binary64.mantissaBits : ℤ) = 53 := rfl
    have hleast : Format.binary64.minExponent = -1074 := rfl
    rw [Format.targetExponent, totalExponent, hbits, hleast]
    omega
  have hcompare : compare (n : ℤ) 0 = .gt := compare_gt_iff_gt.2 (by omega)
  simp only [Float.Model.UnpackedFloat.normalize, hcompare, Float.Model.UnpackedFloat.round,
    Int.toNat_natCast, htarget, Float.Model.UnpackedFloat.decreaseExponent, zero_sub, neg_neg]
  refine roundWithAccuracy_of_stored hstored ?_ false
  rw [Nat.shiftLeft_eq]
  positivity

/-- The conversion from a machine word is exact up to `2 ^ 53`. -/
theorem ofFloat_toFloat_word {n : UInt64} (hlt : n.toNat < 2 * hiddenBit) :
    ∃ m e, ofFloat n.toFloat = .finite false m e ∧ (m * 2 ^ e : ℚ) = n.toNat := by
  have hword : n.toFloat =
      .ofModel (.pack (Float.Model.UnpackedFloat.normalize .binary64 n.toNat 0 .positive)) := rfl
  rw [hword]
  generalize n.toNat = n at *
  rcases n.eq_zero_or_pos with rfl | hpos
  · refine ⟨0, minExponent, ?_, by simp⟩
    exact ofFloat_pack (x := .finite false 0 minExponent) ⟨by decide, le_rfl, by decide, .inr rfl⟩
  · have hstored := stored_shiftLeft hpos hlt
    refine ⟨n <<< (52 - n.log2), -(52 - n.log2 : ℕ), ?_, ?_⟩
    · rw [normalize_natCast hpos hlt]
      exact ofFloat_pack (x := .finite false _ _) hstored
    · rw [Nat.shiftLeft_eq, zpow_neg, zpow_natCast]
      push_cast
      field_simp

end Conversion

end Binary64

/-! ## The whole part of a number -/

namespace Number

open Binary64 (ofFloat whole signed)

section WholePart

variable {x : Float} {negative : Bool} {m : Nat} {e : Int}

/-- The number without its fraction, as an integer; what is not finite counts as zero. -/
def wholePart (x : Float) : ℤ := if 0 ≤ value x then ⌊value x⌋ else ⌈value x⌉

theorem wholePart_of_finite (hx : ofFloat x = .finite negative m e) :
    wholePart x = signed negative (whole m e) := by
  have hfloor := Binary64.floor_value m e
  have hnonneg : (0 : ℚ) ≤ m * 2 ^ e := by positivity
  rw [wholePart, value, hx, Binary64.value_finite]
  cases negative with
  | false =>
    simp only [signed, if_neg Bool.false_ne_true, Int.cast_natCast]
    rw [if_pos hnonneg, hfloor]
  | true =>
    simp only [signed, if_true, Int.cast_neg, Int.cast_natCast, neg_mul]
    split
    · rename_i h
      have hzero : (m * 2 ^ e : ℚ) = 0 := by linarith
      rw [hzero, Int.floor_zero] at hfloor
      rw [hzero, ← hfloor, neg_zero, Int.floor_zero, neg_zero]
    · rw [Int.ceil_neg, hfloor]

theorem ofFloat_truncated_of_finite (hx : ofFloat x = .finite negative m e) :
    ∃ m' e', ofFloat (truncated x) = .finite negative m' e' ∧
      (m' * 2 ^ e' : ℚ) = whole m e := by
  have hs := Binary64.isStored_ofFloat x
  rw [hx] at hs
  rw [truncated, hx]
  exact Binary64.ofFloat_toFloat_truncated hs negative

theorem isInf_truncated (x : Float) : (truncated x).isInf = x.isInf := by
  rw [Bool.eq_iff_iff, isInf_iff, isInf_iff]
  cases hx : ofFloat x with
  | finite negative m e =>
    obtain ⟨m', e', hx', -⟩ := ofFloat_truncated_of_finite hx
    simp [hx']
  | nan =>
    have hx' : ofFloat (truncated x) = .nan := by
      rw [truncated, hx]
      exact Binary64.ofFloat_toFloat (x := .nan) trivial
    simp [hx']
  | infinite negative =>
    have hx' : ofFloat (truncated x) = .infinite negative := by
      rw [truncated, hx]
      exact Binary64.ofFloat_toFloat (x := .infinite negative) trivial
    simp [hx']

theorem isFinite_truncated (hx : x.isFinite = true) : (truncated x).isFinite = true := by
  obtain ⟨negative, m, e, hx⟩ := isFinite_iff.1 hx
  obtain ⟨m', e', hx', -⟩ := ofFloat_truncated_of_finite hx
  exact isFinite_iff.2 ⟨_, _, _, hx'⟩

/-- The number that is left has the whole part as its value. -/
theorem value_truncated (hx : x.isFinite = true) : value (truncated x) = wholePart x := by
  obtain ⟨negative, m, e, hx⟩ := isFinite_iff.1 hx
  obtain ⟨m', e', hx', hvalue⟩ := ofFloat_truncated_of_finite hx
  rw [wholePart_of_finite hx, value, hx', Binary64.value_finite]
  cases negative <;> simp [signed, hvalue]

theorem wholePart_truncated (hx : x.isFinite = true) : wholePart (truncated x) = wholePart x := by
  have hvalue := value_truncated hx
  rw [wholePart, hvalue, Int.floor_intCast, Int.ceil_intCast, ite_self]

theorem value_toFloat_word {n : UInt64} (hlt : n.toNat < 2 * Binary64.hiddenBit) :
    n.toFloat.isFinite = true ∧ value n.toFloat = n.toNat := by
  obtain ⟨m, e, hn, hvalue⟩ := Binary64.ofFloat_toFloat_word hlt
  refine ⟨isFinite_iff.2 ⟨_, _, _, hn⟩, ?_⟩
  rw [value, hn, Binary64.value_finite, signed, if_neg Bool.false_ne_true, ← hvalue]
  rfl

/-- A whole part that fits a machine word is converted without loss. -/
theorem toNat_toUInt64 (hx : x.isFinite = true) (hnonneg : 0 ≤ value x)
    (hlt : wholePart x < 2 ^ 64) : x.toUInt64.toNat = wholePart x := by
  obtain ⟨negative, m, e, hx⟩ := isFinite_iff.1 hx
  have hsign : negative = false ∨ m = 0 := by
    cases negative with
    | false => exact .inl rfl
    | true =>
      refine .inr (Nat.eq_zero_of_not_pos fun hm => ?_)
      rw [value, hx] at hnonneg
      exact (Binary64.value_neg hm e).not_ge hnonneg
  have hwhole : wholePart x = whole m e := by
    rw [wholePart_of_finite hx]
    rcases hsign with rfl | rfl
    · rfl
    · cases negative <;> simp [signed, whole]
  rw [hwhole] at hlt ⊢
  exact_mod_cast Binary64.toNat_toUInt64 hx hsign (by exact_mod_cast hlt)

theorem toNat_toUInt64_truncated (hx : x.isFinite = true) (hnonneg : 0 ≤ wholePart x)
    (hlt : wholePart x < 2 ^ 64) : (truncated x).toUInt64.toNat = wholePart x := by
  rw [toNat_toUInt64 (isFinite_truncated hx), wholePart_truncated hx]
  · rw [value_truncated hx]
    exact_mod_cast hnonneg
  · rwa [wholePart_truncated hx]

end WholePart

end Number

end BindOnce

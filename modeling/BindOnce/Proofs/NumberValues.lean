import BindOnce.Number.Numeral
import Mathlib

/-!
# The exact value of a number

Every finite number is a whole significand times a power of two, so it has an exact value, a rational
one.  The machine compares numbers by their bits and not by their values; this module shows that the
two come to the same.

`Binary64` reads a number off its bits, and the logic of `Float` unpacks the same bits in a form of
its own.  The two readings agree (`Binary64.unpack_eq`), and packing undoes unpacking
(`Binary64.ofFloat_pack`).  A comparison of unpacked numbers looks at the exponents first.  That is
sound because of the way in which the format stores numbers, `Binary64.Stored`: of two numbers the
one with the larger exponent is larger.

## What is here

* `Binary64.Stored`, `Binary64.isStored_ofFloat` — significand and exponent as the format has them.
* `Binary64.ofFloat_toFloat`, `Binary64.ofFloat_abs` — numbers that are written back.
* `Number.value`, `Number.extended` — the exact value of a finite number; of any number that is one.
* `Number.lt_iff`, `Number.le_iff`, `Number.beq_iff` — comparison is comparison of exact values.
* `Number.beq_symm`, `Number.beq_trans`, `Number.beq_self_iff` — what equality of numbers has of an
  equivalence.
* `Number.eq_or_zero_of_beq` — only zero has two numbers.
-/

set_option autoImplicit false
namespace BindOnce

open Float.Model (UnpackedFloat Format)
open Float.Model.UnpackedFloat (Sign)

namespace Binary64

/-! ## What the format stores -/

/-- The greatest exponent of the format. -/
def maxExponent : Int := 971

/-- Significand and exponent of a finite number as the format stores it: there are 53 bits for the
significand, and the hidden one is only missing at the least exponent. -/
structure Stored (m : Nat) (e : Int) : Prop where
  significand_lt : m < 2 * hiddenBit
  minExponent_le : minExponent ≤ e
  le_maxExponent : e ≤ maxExponent
  normal : hiddenBit ≤ m ∨ e = minExponent

/-- A finite number is as the format stores it; to all else this says nothing. -/
def IsStored : Binary64 → Prop
  | .finite _ m e => Stored m e
  | _ => True

theorem isStored_ofBits (bits : Nat) : (ofBits bits).IsStored := by
  have hexp : bits / hiddenBit % (topExponent + 1) < topExponent + 1 := Nat.mod_lt _ (by decide)
  have hfrac : bits % hiddenBit < hiddenBit := Nat.mod_lt _ (by decide)
  rw [ofBits]
  split
  · split <;> trivial
  · split
    · exact ⟨by omega, le_rfl, by decide, .inr rfl⟩
    · refine ⟨by omega, ?_, ?_, .inl (Nat.le_add_right _ _)⟩ <;>
        simp only [minExponent, maxExponent, topExponent] at * <;> omega

theorem isStored_ofFloat (x : Float) : (ofFloat x).IsStored := isStored_ofBits _

/-! ## Unpacking and packing -/

/-- The sign of an unpacked number. -/
def sign (negative : Bool) : Sign := if negative then .negative else .positive

/-- The number in the unpacked form of the logic, in which zero is apart from the finite numbers. -/
def unpacked : Binary64 → UnpackedFloat
  | .nan => .notANumber
  | .infinite negative => .infinity (sign negative)
  | .finite negative m e =>
    if h : 0 < m then .finite (sign negative) m e h else .zero (sign negative)

section Fields

variable (b : BitVec Format.binary64.numBits)

theorem toNat_unpackExponent :
    (UnpackedFloat.unpackExponent b).toNat = b.toNat / hiddenBit % (topExponent + 1) := by
  simp [UnpackedFloat.unpackExponent, BitVec.extractLsb, Nat.shiftRight_eq_div_pow, hiddenBit,
    topExponent]

theorem toNat_unpackMantissa :
    (UnpackedFloat.unpackMantissa b).toNat = b.toNat % hiddenBit := by
  simp [UnpackedFloat.unpackMantissa, BitVec.extractLsb, hiddenBit]

theorem toNat_unpackSign : (UnpackedFloat.unpackSign b).toNat = b.toNat / signBit % 2 := by
  simp [UnpackedFloat.unpackSign, BitVec.extractLsb, Nat.shiftRight_eq_div_pow, signBit]

theorem ofBitVec_eq_sign (v : BitVec 1) : Sign.ofBitVec v = sign (decide (v.toNat = 1)) := by
  obtain rfl | rfl := BitVec.eq_zero_or_eq_one v <;> rfl

theorem toNat_hidden_append (v : BitVec Format.binary64.mantissaBitsWithoutImplicit) :
    (1#1 ++ v).toNat = hiddenBit + v.toNat := by
  rw [BitVec.toNat_append, ← Nat.shiftLeft_add_eq_or_of_lt v.isLt]
  rfl

/-- The two readings of a bit pattern agree. -/
theorem unpack_eq : UnpackedFloat.unpack .binary64 b = (ofBits b.toNat).unpacked := by
  have hbias : Format.binary64.exponentBias = 1023 := rfl
  have htop : (-1#11).toNat = topExponent := rfl
  rw [UnpackedFloat.unpack, ofBits, ofBitVec_eq_sign, toNat_unpackSign]
  simp only [← BitVec.toNat_inj, toNat_unpackExponent, toNat_unpackMantissa, BitVec.toNat_zero,
    htop, hbias]
  split
  · split <;> rfl
  · split
    · split
      · rw [unpacked, dif_neg (by omega)]
      · rw [unpacked, dif_pos (by omega)]
        congr 1
        rw [minExponent]
        omega
    · rw [unpacked, dif_pos (Nat.add_pos_left (by decide) _), minExponent]
      congr 1
      · rw [toNat_hidden_append, toNat_unpackMantissa]
      · omega

end Fields

theorem unpack_toModel (x : Float) : x.toModel.unpack = (ofFloat x).unpacked := unpack_eq _

theorem toBits.sign_eq (negative : Bool) : sign negative = negative.toNat * signBit := by
  cases negative <;> simp [sign]

theorem normalize_of_stored {m : Nat} {e : Int} (h : Stored m e) (steps : Nat) :
    normalize steps m e = (m, e) := by
  cases steps with
  | zero => rfl
  | succ steps =>
    rw [normalize, if_pos]
    exact h.normal.imp_right le_of_eq

theorem toBits_of_stored {m : Nat} {e : Int} (h : Stored m e) (negative : Bool) :
    toBits (.finite negative m e) = negative.toNat * signBit +
      if m < hiddenBit then m else (e - minExponent).toNat * hiddenBit + m := by
  rw [← toBits.sign_eq]
  cases m with
  | zero => rfl
  | succ m => rw [toBits, normalize_of_stored h]; nofun

/-- A bit pattern put together from its three fields. -/
theorem ofBits_fields (negative : Bool) {exponent fraction : Nat} (he : exponent < topExponent)
    (hf : fraction < hiddenBit) :
    ofBits (negative.toNat * signBit + (exponent * hiddenBit + fraction)) =
      if exponent = 0 then .finite negative fraction minExponent
      else .finite negative (hiddenBit + fraction) (minExponent + exponent - 1) := by
  have hneg : negative.toNat < 2 := negative.toNat_lt
  have hsign : (negative.toNat * signBit + (exponent * hiddenBit + fraction)) / signBit % 2 =
      negative.toNat := by
    simp only [signBit, hiddenBit, topExponent] at *
    omega
  have hexp : (negative.toNat * signBit + (exponent * hiddenBit + fraction)) / hiddenBit %
      (topExponent + 1) = exponent := by
    simp only [signBit, hiddenBit, topExponent] at *
    omega
  have hfrac : (negative.toNat * signBit + (exponent * hiddenBit + fraction)) % hiddenBit =
      fraction := by
    simp only [signBit, hiddenBit, topExponent] at *
    omega
  rw [ofBits, hsign, hexp, hfrac]
  simp only [if_neg he.ne, Bool.toNat_eq_one, Bool.decide_eq_true]

theorem ofBits_toBits_finite {m : Nat} {e : Int} (h : Stored m e) (negative : Bool) :
    ofBits (toBits (.finite negative m e)) = .finite negative m e := by
  rw [toBits_of_stored h]
  obtain ⟨hm, hmin, hmax, hn⟩ := h
  by_cases hlt : m < hiddenBit
  · obtain rfl := hn.resolve_left (not_le.2 hlt)
    have hbits : m = 0 * hiddenBit + m := by rw [Nat.zero_mul, Nat.zero_add]
    rw [if_pos hlt, hbits, ofBits_fields negative (by decide) hlt, if_pos rfl, ← hbits]
  · have hfraction : hiddenBit + (m - hiddenBit) = m := by omega
    have hexponent : minExponent + ((e - minExponent).toNat + 1 : Nat) - 1 = e := by omega
    have hbits : (e - minExponent).toNat * hiddenBit + m =
        ((e - minExponent).toNat + 1) * hiddenBit + (m - hiddenBit) := by
      rw [Nat.succ_mul]
      omega
    have htop : (e - minExponent).toNat + 1 < topExponent := by
      rw [minExponent, maxExponent] at *
      rw [topExponent]
      omega
    rw [if_neg hlt, hbits, ofBits_fields negative htop (by omega), if_neg (Nat.succ_ne_zero _),
      hfraction, hexponent]

theorem ofBits_toBits {x : Binary64} (h : x.IsStored) : ofBits x.toBits = x := by
  cases x with
  | nan => decide
  | infinite negative => cases negative <;> decide
  | finite negative m e => exact ofBits_toBits_finite h negative

theorem toNat_packComponents (negative : Bool) (e : BitVec 11) (m : BitVec 52) :
    (UnpackedFloat.packComponents .binary64 (sign negative) e m).toNat =
      negative.toNat * signBit + e.toNat * hiddenBit + m.toNat := by
  have hsign : (sign negative).toBitVec.toNat = negative.toNat := by cases negative <;> rfl
  rw [UnpackedFloat.packComponents, BitVec.toNat_append, BitVec.toNat_append,
    ← Nat.shiftLeft_add_eq_or_of_lt m.isLt, ← Nat.shiftLeft_add_eq_or_of_lt e.isLt,
    Nat.shiftLeft_eq, Nat.shiftLeft_eq, hsign, signBit, hiddenBit]
  omega

/-- Packing writes the same bits as `Binary64.toBits`. -/
theorem toNat_pack {x : Binary64} (h : x.IsStored) :
    (UnpackedFloat.pack .binary64 x.unpacked).toNat = x.toBits := by
  have hbias : Format.binary64.exponentBias = 1023 := rfl
  cases x with
  | nan => rfl
  | infinite negative => cases negative <;> rfl
  | finite negative m e =>
    rw [toBits_of_stored h, unpacked]
    obtain ⟨hm, hmin, hmax, hn⟩ := h
    split
    · rename_i hpos
      have hfits : ¬ 2 ^ 11 ≤ (e + (1023 : Nat) + (52 : Nat)).toNat + 1 := by
        rw [minExponent, maxExponent] at *
        omega
      simp only [UnpackedFloat.pack, hbias]
      rw [if_neg hfits]
      by_cases hlt : m < hiddenBit
      · have hlog : ¬ m.log2 + 1 = Format.binary64.mantissaBits := by
          have : m.log2 < 52 := (Nat.log2_lt hpos.ne').2 hlt
          change ¬ m.log2 + 1 = 53
          omega
        rw [if_neg hlog, if_pos hlt, toNat_packComponents]
        simp only [BitVec.toNat_ofNat]
        rw [Nat.mod_eq_of_lt (show m < 2 ^ 52 from hlt)]
        omega
      · have hlog : m.log2 + 1 = Format.binary64.mantissaBits :=
          congrArg (· + 1) ((Nat.log2_eq_iff hpos.ne').2 ⟨not_lt.1 hlt, hm⟩)
        rw [if_pos hlog, if_neg hlt, toNat_packComponents]
        simp only [BitVec.toNat_ofNat]
        rw [minExponent, maxExponent, hiddenBit] at *
        omega
    · rename_i hzero
      rw [Nat.eq_zero_of_not_pos hzero, if_pos (by decide), UnpackedFloat.pack,
        UnpackedFloat.packedZero, toNat_packComponents]
      simp

theorem toBits_lt {x : Binary64} (h : x.IsStored) : x.toBits < 2 ^ 64 :=
  toNat_pack h ▸ BitVec.isLt _

/-- A bit pattern that stands for a number is written back as it was. -/
theorem toBits_ofBits {bits : Nat} (hlt : bits < 2 ^ 64) (h : ofBits bits ≠ .nan) :
    (ofBits bits).toBits = bits := by
  have hstored := isStored_ofBits bits
  have hsign : (decide (bits / signBit % 2 = 1)).toNat = bits / signBit % 2 := by
    rcases Nat.mod_two_eq_zero_or_one (bits / signBit) with h | h <;> simp [h]
  have hfields : bits = bits / signBit % 2 * signBit +
      bits / hiddenBit % (topExponent + 1) * hiddenBit + bits % hiddenBit := by
    simp only [signBit, hiddenBit, topExponent]
    omega
  have hfraction : bits % hiddenBit < hiddenBit := Nat.mod_lt _ (by decide)
  rw [ofBits] at h hstored ⊢
  split at hstored
  · rename_i hexp
    rw [if_pos hexp] at h ⊢
    split at h
    · rename_i hfrac
      rw [if_pos hfrac, toBits, toBits.sign_eq, hsign]
      rw [hexp, hfrac] at hfields
      omega
    · exact absurd rfl h
  · rename_i htop
    rw [if_neg htop]
    split at hstored
    · rename_i hexp
      rw [if_pos hexp, toBits_of_stored hstored, if_pos hfraction, hsign]
      rw [hexp] at hfields
      omega
    · rename_i hexp
      have hexponent : (minExponent + (bits / hiddenBit % (topExponent + 1) : Nat) - 1 -
          minExponent).toNat = bits / hiddenBit % (topExponent + 1) - 1 := by omega
      rw [if_neg hexp, toBits_of_stored hstored, if_neg (by omega), hsign, hexponent]
      rw [Nat.sub_one_mul]
      have := Nat.le_mul_of_pos_left hiddenBit (Nat.pos_of_ne_zero hexp)
      omega

/-! ## Numbers that are written back -/

theorem ofFloat_injective {x y : Float} (hx : ofFloat x ≠ .nan) (h : ofFloat x = ofFloat y) :
    x = y := by
  have hbits : x.toBits.toNat = y.toBits.toNat := by
    have hy : ofFloat y ≠ .nan := h ▸ hx
    rw [← toBits_ofBits x.toBits.toNat_lt hx, ← toBits_ofBits y.toBits.toNat_lt hy]
    exact congrArg toBits h
  obtain ⟨⟨bits, _⟩⟩ := x
  obtain ⟨⟨bits', _⟩⟩ := y
  obtain rfl : bits = bits' := UInt64.toNat_inj.1 hbits
  rfl

theorem ofFloat_pack {x : Binary64} (h : x.IsStored) :
    ofFloat (.ofModel (.pack x.unpacked)) = x := by
  have hbits : ((Float.ofModel (.pack x.unpacked)).toBits).toNat = x.toBits := toNat_pack h
  rw [ofFloat, hbits, ofBits_toBits h]

theorem ofFloat_ofBits (bits : UInt64) : ofFloat (.ofBits bits) = ofBits bits.toNat := by
  have h := ofFloat_pack (isStored_ofBits bits.toNat)
  rwa [← UInt64.toNat_toBitVec, ← unpack_eq] at h

theorem ofFloat_toFloat {x : Binary64} (h : x.IsStored) : ofFloat x.toFloat = x := by
  rw [toFloat, ofFloat_ofBits, UInt64.toNat_ofNat_of_lt' (toBits_lt h), ofBits_toBits h]

/-- The number without its sign. -/
def magnitude : Binary64 → Binary64
  | .nan => .nan
  | .infinite _ => .infinite false
  | .finite _ m e => .finite false m e

theorem ofFloat_abs (x : Float) : ofFloat x.abs = (ofFloat x).magnitude := by
  have hstored : (ofFloat x).magnitude.IsStored := by
    have h := isStored_ofFloat x
    cases hx : ofFloat x with
    | finite negative m e => rwa [hx] at h
    | _ => trivial
  have habs : (ofFloat x).unpacked.abs = (ofFloat x).magnitude.unpacked := by
    cases ofFloat x with
    | finite negative m e =>
      simp only [unpacked, magnitude]
      split <;> rfl
    | _ => rfl
  rw [← ofFloat_pack hstored, ← habs, ← unpack_toModel]
  rfl

/-! ## Values -/

/-- The exact value of a finite number; what is not finite counts as zero. -/
def value : Binary64 → ℚ
  | .finite negative m e => (if negative then -1 else 1) * (m * 2 ^ e)
  | _ => 0

/-- The exact value of a finite number, and the two infinities below and above all values. -/
def extended : Binary64 → Option (WithBot (WithTop ℚ))
  | .nan => none
  | .infinite negative => some (if negative then ⊥ else (⊤ : WithTop ℚ))
  | .finite negative m e => some ((value (.finite negative m e) : WithTop ℚ) : WithBot (WithTop ℚ))

/-- A number as a quotient of whole numbers. -/
theorem div_eq_value (m : Nat) (e : Int) :
    ((m * Nat.pow 2 e.toNat : ℕ) : ℚ) / (Nat.pow 2 (-e).toNat : ℕ) = m * 2 ^ e := by
  rw [Nat.pow_eq, Nat.pow_eq]
  push_cast
  rcases le_total 0 e with h | h
  · lift e to ℕ using h
    simp
  · obtain ⟨k, rfl⟩ : ∃ k : ℕ, e = -k := ⟨e.natAbs, by omega⟩
    simp [div_eq_mul_inv]

theorem value_zero (negative : Bool) (e : Int) : value (.finite negative 0 e) = 0 := by
  simp [value]

theorem value_pos {m : Nat} (hm : 0 < m) (e : Int) : 0 < value (.finite false m e) := by
  rw [value, if_neg Bool.false_ne_true, one_mul]
  positivity

theorem value_neg {m : Nat} (hm : 0 < m) (e : Int) : value (.finite true m e) < 0 := by
  rw [value, if_pos rfl, neg_one_mul, neg_lt_zero]
  positivity

theorem value_eq_zero_iff {negative : Bool} {m : Nat} {e : Int} :
    value (.finite negative m e) = 0 ↔ m = 0 := by
  have hpow : (2 : ℚ) ^ e ≠ 0 := zpow_ne_zero e two_ne_zero
  cases negative <;> simp [value, hpow]

theorem value_magnitude (x : Binary64) : x.magnitude.value = |x.value| := by
  cases x with
  | finite negative m e =>
    have : (0 : ℚ) ≤ m * 2 ^ e := by positivity
    cases negative <;> simp [value, magnitude, abs_of_nonneg this]
  | _ => simp [value, magnitude]

section Order

variable {m m' : Nat} {e e' : Int}

/-- A larger exponent makes a larger number. -/
theorem lt_of_exponent_lt (h : Stored m e) (h' : Stored m' e') (hlt : e < e') :
    (m * 2 ^ e : ℚ) < m' * 2 ^ e' := by
  have hn : hiddenBit ≤ m' := h'.normal.resolve_right (h.minExponent_le.trans_lt hlt).ne'
  calc (m * 2 ^ e : ℚ) < (2 * hiddenBit : ℕ) * 2 ^ e := by
        gcongr
        exact h.significand_lt
    _ = hiddenBit * 2 ^ (e + 1) := by
        rw [zpow_add_one₀ two_ne_zero]
        push_cast
        ring
    _ ≤ m' * 2 ^ e' := by
        gcongr
        · exact one_le_two
        · exact hlt

theorem compare_eq_cmp (h : Stored m e) (h' : Stored m' e') :
    (compare e e').then (compare m m') = cmp (m * 2 ^ e : ℚ) (m' * 2 ^ e') := by
  rcases lt_trichotomy e e' with hlt | rfl | hgt
  · rw [compare_lt_iff_lt.2 hlt, (cmp_eq_lt_iff _ _).2 (lt_of_exponent_lt h h' hlt)]
    rfl
  · have hpos : (0 : ℚ) < 2 ^ e := by positivity
    rw [compare_eq_iff_eq.2 rfl, Ordering.eq_then, cmp_mul_pos_right hpos,
      (Nat.strictMono_cast (α := ℚ)).cmp_map_eq, cmp_eq_compare]
  · rw [compare_gt_iff_gt.2 hgt, (cmp_eq_gt_iff _ _).2 (lt_of_exponent_lt h' h hgt)]
    rfl

/-- The value of a number settles its significand and its exponent. -/
theorem Stored.eq_of_value_eq (h : Stored m e) (h' : Stored m' e')
    (heq : (m * 2 ^ e : ℚ) = m' * 2 ^ e') : m = m' ∧ e = e' := by
  have hcmp := compare_eq_cmp h h'
  rw [heq, cmp_self_eq_eq, Ordering.then_eq_eq, compare_eq_iff_eq, compare_eq_iff_eq] at hcmp
  exact hcmp.symm

theorem compare_unpacked_finite (h : Stored m e) (h' : Stored m' e') (negative negative' : Bool) :
    (unpacked (.finite negative m e)).compare (unpacked (.finite negative' m' e')) =
      some (cmp (value (.finite negative m e)) (value (.finite negative' m' e'))) := by
  rcases m.eq_zero_or_pos with rfl | hm <;> rcases m'.eq_zero_or_pos with rfl | hm'
  · rw [value_zero, value_zero, cmp_self_eq_eq]
    rfl
  · rw [unpacked, unpacked, dif_neg (lt_irrefl 0), dif_pos hm', value_zero]
    cases negative'
    · rw [(cmp_eq_lt_iff _ _).2 (value_pos hm' e')]
      rfl
    · rw [(cmp_eq_gt_iff _ _).2 (value_neg hm' e')]
      rfl
  · rw [unpacked, unpacked, dif_neg (lt_irrefl 0), dif_pos hm, value_zero]
    cases negative
    · rw [(cmp_eq_gt_iff _ _).2 (value_pos hm e)]
      rfl
    · rw [(cmp_eq_lt_iff _ _).2 (value_neg hm e)]
      rfl
  · rw [unpacked, unpacked, dif_pos hm, dif_pos hm']
    cases negative <;> cases negative'
    · simp only [sign, UnpackedFloat.compare, value, compare_eq_cmp h h',
        if_neg Bool.false_ne_true, one_mul]
    · rw [(cmp_eq_gt_iff _ _).2 ((value_neg hm' e').trans (value_pos hm e))]
      rfl
    · rw [(cmp_eq_lt_iff _ _).2 ((value_neg hm e).trans (value_pos hm' e'))]
      rfl
    · simp only [sign, UnpackedFloat.compare, value, compare_eq_cmp h h', if_true, neg_one_mul,
        cmp_swap]
      simp only [cmp, cmpUsing, neg_lt_neg_iff]

theorem compare_unpacked {x y : Binary64} (hx : x.IsStored) (hy : y.IsStored) :
    x.unpacked.compare y.unpacked = Option.map₂ cmp x.extended y.extended := by
  cases x with
  | nan => rfl
  | infinite negative =>
    cases y with
    | nan => cases negative <;> rfl
    | infinite negative' => cases negative <;> cases negative' <;> rfl
    | finite negative' m' e' =>
      rw [unpacked, unpacked]
      cases negative <;> split <;> rfl
  | finite negative m e =>
    cases y with
    | nan =>
      simp only [unpacked]
      split <;> rfl
    | infinite negative' =>
      rw [unpacked, unpacked]
      cases negative' <;> split <;> rfl
    | finite negative' m' e' =>
      rw [compare_unpacked_finite hx hy, extended, extended, Option.map₂_some_some,
        (WithBot.coe_strictMono (α := WithTop ℚ)).cmp_map_eq,
        (WithTop.coe_strictMono (α := ℚ)).cmp_map_eq]

/-- The exact value settles the number, but for the sign of zero. -/
theorem eq_or_zero_of_extended_eq {x y : Binary64} (hx : x.IsStored) (hy : y.IsStored)
    (h : x.extended = y.extended) :
    x = y ∨ (∃ negative e, x = .finite negative 0 e) ∧ ∃ negative e, y = .finite negative 0 e := by
  cases x with
  | nan =>
    cases y with
    | nan => exact .inl rfl
    | _ => exact absurd h nofun
  | infinite negative =>
    cases y with
    | nan => exact absurd h nofun
    | infinite negative' =>
      cases negative <;> cases negative' <;>
        first | exact .inl rfl | exact absurd (Option.some_inj.1 h) nofun
    | finite negative' m' e' => cases negative <;> exact absurd (Option.some_inj.1 h) nofun
  | finite negative m e =>
    cases y with
    | nan => exact absurd h nofun
    | infinite negative' => cases negative' <;> exact absurd (Option.some_inj.1 h) nofun
    | finite negative' m' e' =>
      rw [extended, extended, Option.some_inj, WithBot.coe_inj, WithTop.coe_inj] at h
      have habs := congrArg abs h
      rw [← value_magnitude, ← value_magnitude] at habs
      obtain ⟨rfl, rfl⟩ := Stored.eq_of_value_eq hx hy (by simpa [magnitude, value] using habs)
      rcases m.eq_zero_or_pos with rfl | hm
      · exact .inr ⟨⟨_, _, rfl⟩, ⟨_, _, rfl⟩⟩
      · cases negative <;> cases negative'
        · exact .inl rfl
        · exact absurd h ((value_neg hm e).trans (value_pos hm e)).ne'
        · exact absurd h ((value_neg hm e).trans (value_pos hm e)).ne
        · exact .inl rfl

end Order

end Binary64

/-! ## Comparison of numbers -/

namespace Number

open Binary64 (ofFloat)

/-- The exact value of a finite number; what is not finite counts as zero. -/
def value (x : Float) : ℚ := (ofFloat x).value

/-- The exact value of a finite number, and the two infinities below and above all values; none for
what is not a number. -/
def extended (x : Float) : Option (WithBot (WithTop ℚ)) := (ofFloat x).extended

section Kinds

variable {x : Float}

theorem isNaN_iff : x.isNaN = true ↔ ofFloat x = .nan := by
  have h : x.isNaN = (ofFloat x).unpacked.isNaN := by rw [← Binary64.unpack_toModel]; rfl
  rw [h]
  cases ofFloat x with
  | finite negative m e =>
    rw [Binary64.unpacked]
    split <;> simp [UnpackedFloat.isNaN]
  | _ => simp [Binary64.unpacked, UnpackedFloat.isNaN]

theorem isInf_iff : x.isInf = true ↔ ∃ negative, ofFloat x = .infinite negative := by
  have h : x.isInf = (ofFloat x).unpacked.isInf := by rw [← Binary64.unpack_toModel]; rfl
  rw [h]
  cases ofFloat x with
  | finite negative m e =>
    rw [Binary64.unpacked]
    split <;> simp [UnpackedFloat.isInf]
  | _ => simp [Binary64.unpacked, UnpackedFloat.isInf]

theorem isFinite_iff : x.isFinite = true ↔ ∃ negative m e, ofFloat x = .finite negative m e := by
  have h : x.isFinite = (ofFloat x).unpacked.isFinite := by rw [← Binary64.unpack_toModel]; rfl
  rw [h]
  cases ofFloat x with
  | finite negative m e =>
    rw [Binary64.unpacked]
    split <;> simp [UnpackedFloat.isFinite]
  | _ => simp [Binary64.unpacked, UnpackedFloat.isFinite]

theorem isFinite_iff_not : x.isFinite = true ↔ x.isNaN ≠ true ∧ x.isInf ≠ true := by
  rw [Ne, Ne, isFinite_iff, isNaN_iff, isInf_iff]
  cases ofFloat x <;> simp

theorem extended_eq_none_iff : extended x = none ↔ x.isNaN = true := by
  rw [isNaN_iff, extended]
  cases ofFloat x <;> simp [Binary64.extended]

theorem extended_of_isFinite (h : x.isFinite = true) :
    extended x = some ((value x : WithTop ℚ) : WithBot (WithTop ℚ)) := by
  obtain ⟨negative, m, e, hx⟩ := isFinite_iff.1 h
  rw [extended, value, hx, Binary64.extended]

theorem value_abs (x : Float) : value x.abs = |value x| := by
  rw [value, Binary64.ofFloat_abs, Binary64.value_magnitude, value]

theorem isFinite_abs (x : Float) : x.abs.isFinite = x.isFinite := by
  rw [Bool.eq_iff_iff, isFinite_iff, isFinite_iff, Binary64.ofFloat_abs]
  cases ofFloat x <;> simp [Binary64.magnitude]

end Kinds

section Comparison

variable {x y : Float}

theorem compare_toModel (x y : Float) :
    x.toModel.compare y.toModel = Option.map₂ cmp (extended x) (extended y) := by
  rw [Float.Model.compare, Binary64.unpack_toModel, Binary64.unpack_toModel,
    Binary64.compare_unpacked (Binary64.isStored_ofFloat x) (Binary64.isStored_ofFloat y)]
  rfl

theorem lt_iff : x < y ↔ ∃ v ∈ extended x, ∃ w ∈ extended y, v < w := by
  have h : x < y ↔ x.toModel.compare y.toModel = some .lt := by
    change decide (x.toModel < y.toModel) = true ↔ _
    rw [decide_eq_true_iff]
    change (x.toModel.unpack.compare y.toModel.unpack == some .lt) = true ↔ _
    rw [beq_iff_eq]
    rfl
  rw [h, compare_toModel]
  simp [Option.map₂_eq_some_iff, cmp_eq_lt_iff]

theorem le_iff : x ≤ y ↔ ∃ v ∈ extended x, ∃ w ∈ extended y, v ≤ w := by
  have h : x ≤ y ↔ ∃ o, x.toModel.compare y.toModel = some o ∧ o.isLE = true := by
    change decide (x.toModel ≤ y.toModel) = true ↔ _
    rw [decide_eq_true_iff]
    change (x.toModel.unpack.compare y.toModel.unpack).any (·.isLE) = true ↔ _
    rw [Option.any_eq_true]
    rfl
  have hle {v w : WithBot (WithTop ℚ)} : (cmp v w).isLE = true ↔ v ≤ w := by
    rw [← Ordering.ne_gt_iff_isLE, cmp_eq_gt_iff, not_lt]
  rw [h, compare_toModel]
  simp [Option.map₂_eq_some_iff, hle]

/-- Two numbers are equal if they are numbers and have the same value. -/
theorem beq_iff : (x == y) = true ↔ ∃ v ∈ extended x, v ∈ extended y := by
  have h : (x == y) = true ↔ x.toModel.compare y.toModel = some .eq := by
    change (x.toModel.unpack.compare y.toModel.unpack == some .eq) = true ↔ _
    rw [beq_iff_eq]
    rfl
  rw [h, compare_toModel]
  simp [Option.map₂_eq_some_iff, cmp_eq_eq_iff]

theorem beq_symm (h : (x == y) = true) : (y == x) = true := by
  obtain ⟨v, hx, hy⟩ := beq_iff.1 h
  exact beq_iff.2 ⟨v, hy, hx⟩

theorem beq_trans {z : Float} (h : (x == y) = true) (h' : (y == z) = true) : (x == z) = true := by
  obtain ⟨v, hx, hy⟩ := beq_iff.1 h
  obtain ⟨w, hy', hz⟩ := beq_iff.1 h'
  obtain rfl := Option.mem_unique hy hy'
  exact beq_iff.2 ⟨v, hx, hz⟩

theorem beq_self_iff : (x == x) = true ↔ x.isNaN = false := by
  rw [beq_iff, ← Bool.not_eq_true, ← extended_eq_none_iff, ← Ne, Option.ne_none_iff_exists']
  simp

theorem lt_iff_of_isFinite (hx : x.isFinite = true) (hy : y.isFinite = true) :
    x < y ↔ value x < value y := by
  simp [lt_iff, extended_of_isFinite hx, extended_of_isFinite hy]

theorem le_iff_of_isFinite (hx : x.isFinite = true) (hy : y.isFinite = true) :
    x ≤ y ↔ value x ≤ value y := by
  simp [le_iff, extended_of_isFinite hx, extended_of_isFinite hy]

theorem beq_iff_of_isFinite (hx : x.isFinite = true) (hy : y.isFinite = true) :
    (x == y) = true ↔ value x = value y := by
  simp only [beq_iff, extended_of_isFinite hx, extended_of_isFinite hy, Option.mem_some_iff,
    exists_eq_left', WithBot.coe_inj, WithTop.coe_inj]
  exact eq_comm

theorem not_isNaN_of_lt (h : x < y) : x.isNaN ≠ true ∧ y.isNaN ≠ true := by
  obtain ⟨v, hv, w, hw, -⟩ := lt_iff.1 h
  rw [Ne, Ne, ← extended_eq_none_iff, ← extended_eq_none_iff]
  exact ⟨fun hx => Option.not_mem_none v (hx ▸ hv), fun hy => Option.not_mem_none w (hy ▸ hw)⟩

/-- What lies between two numbers is finite. -/
theorem isFinite_of_between {low high : Float} (hlow : low < x) (hhigh : x < high) :
    x.isFinite = true := by
  refine isFinite_iff_not.2 ⟨(not_isNaN_of_lt hlow).2, fun hinf => ?_⟩
  obtain ⟨negative, hx⟩ := isInf_iff.1 hinf
  obtain ⟨v, -, w, hw, hvw⟩ := lt_iff.1 hlow
  obtain ⟨w', hw', v', -, hwv'⟩ := lt_iff.1 hhigh
  rw [extended, hx] at hw hw'
  cases negative with
  | true =>
    obtain rfl := Option.some_inj.1 hw
    exact not_lt_bot hvw
  | false =>
    obtain rfl := Option.some_inj.1 hw'
    exact not_top_lt hwv'

theorem beq_zero_iff : (x == 0) = true ↔ ∃ negative e, ofFloat x = .finite negative 0 e := by
  have hzero : ofFloat 0 = .finite false 0 (-1074) := by decide
  constructor
  · intro h
    obtain ⟨v, hv, hv'⟩ := beq_iff.1 h
    rw [extended, hzero, Binary64.extended, Binary64.value_zero, Option.mem_some_iff] at hv'
    rw [extended, ← hv', Option.mem_def] at hv
    cases hx : ofFloat x with
    | nan =>
      rw [hx] at hv
      exact absurd hv nofun
    | infinite negative =>
      rw [hx] at hv
      cases negative <;> exact absurd (Option.some_inj.1 hv) nofun
    | finite negative m e =>
      rw [hx, Binary64.extended, Option.some_inj, WithBot.coe_inj, WithTop.coe_inj,
        Binary64.value_eq_zero_iff] at hv
      exact ⟨negative, e, by rw [hv]⟩
  · rintro ⟨negative, e, hx⟩
    rw [beq_iff_of_isFinite (isFinite_iff.2 ⟨_, _, _, hx⟩) (isFinite_iff.2 ⟨_, _, _, hzero⟩), value,
      value, hx, hzero, Binary64.value_zero, Binary64.value_zero]

/-- Equal numbers are one number, or they are two zeros. -/
theorem eq_or_zero_of_beq (h : (x == y) = true) :
    x = y ∨ (x == 0) = true ∧ (y == 0) = true := by
  obtain ⟨v, hv, hv'⟩ := beq_iff.1 h
  have heq : (ofFloat x).extended = (ofFloat y).extended := hv.trans hv'.symm
  rcases Binary64.eq_or_zero_of_extended_eq (Binary64.isStored_ofFloat x)
    (Binary64.isStored_ofFloat y) heq with heq | ⟨hx, hy⟩
  · refine .inl (Binary64.ofFloat_injective (fun hx => ?_) heq)
    rw [extended, hx] at hv
    exact absurd hv nofun
  · exact .inr ⟨beq_zero_iff.2 hx, beq_zero_iff.2 hy⟩

end Comparison

end Number
end BindOnce

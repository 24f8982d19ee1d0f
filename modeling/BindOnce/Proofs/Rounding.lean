import BindOnce.Proofs.NumberValues

/-!
# Rounding to the nearest number

A rational number is rounded to the number of the format next to it.  If two are equally near, the
one with the even significand is taken.  The largest number has no neighbour above it in the format;
to see which rational numbers still round to it, the format is thought of as going on for ever:
`Binary64.Representable` sets no bound to the exponent.  What would be rounded to a number beyond
the largest overflows, and rounds to none.

`Number.RoundsTo` states this without saying how one rounds.  The rational numbers that round to a
given positive number lie between the midpoints to its two neighbours.  `Binary64.Between` says so,
in quarters of the unit of the significand: the upper midpoint is two quarters away, the lower one
as many as `Decimal.lowerGap` says.

## What is here

* `Number.RoundsTo` — rounding to the nearest number, ties to the even significand.
* `Number.RoundsTo.eq` — there is at most one such number.
* `Binary64.Between.nearest` — a number is nearest to what lies between its midpoints.
* `Number.roundsTo_of_between`, `Number.roundsTo_zero` — what rounds to a given number.
-/

set_option autoImplicit false
namespace BindOnce

namespace Binary64

/-! ## The format without a greatest exponent -/

/-- The numbers of the format, if it had no greatest exponent. -/
def Representable (q : ℚ) : Prop :=
  ∃ k e : ℤ, |k| < 2 * hiddenBit ∧ minExponent ≤ e ∧ q = k * 2 ^ e

/-- The significand of a finite number. -/
def significand : Binary64 → Nat
  | .finite _ m _ => m
  | _ => 0

/-- Whether a finite number carries the minus sign, which zero may. -/
def isNegative : Binary64 → Bool
  | .finite negative _ _ => negative
  | _ => false

/-- The significand with the sign of the number. -/
def signed (negative : Bool) (m : Nat) : ℤ := if negative then -m else m

theorem value_finite (negative : Bool) (m : Nat) (e : Int) :
    value (.finite negative m e) = signed negative m * 2 ^ e := by
  cases negative <;> simp [value, signed]

theorem abs_signed (negative : Bool) (m : Nat) : |signed negative m| = m := by
  cases negative <;> simp [signed]

theorem abs_value_finite (negative : Bool) (m : Nat) (e : Int) :
    |value (.finite negative m e)| = m * 2 ^ e := by
  rw [value_finite, abs_mul, ← Int.cast_abs, abs_signed, abs_of_pos (by positivity)]
  rfl

theorem Representable.neg {q : ℚ} (h : Representable q) : Representable (-q) := by
  obtain ⟨k, e, hk, he, rfl⟩ := h
  exact ⟨-k, e, by rwa [abs_neg], he, by push_cast; ring⟩

theorem Stored.representable {m : Nat} {e : Int} (h : Stored m e) (negative : Bool) :
    Representable (value (.finite negative m e)) := by
  refine ⟨signed negative m, e, ?_, h.minExponent_le, value_finite negative m e⟩
  rw [abs_signed]
  exact_mod_cast h.significand_lt

/-- A multiple of a unit is a multiple of every smaller unit. -/
theorem mul_zpow_of_le (k : ℤ) {e f : ℤ} (h : e ≤ f) :
    (k * 2 ^ f : ℚ) = (k * 2 ^ (f - e).toNat : ℤ) * 2 ^ e := by
  push_cast
  rw [mul_assoc, ← zpow_natCast, ← zpow_add₀ two_ne_zero, Int.toNat_of_nonneg (by omega),
    sub_add_cancel]

/-! ## Two even significands are not neighbours -/

/-- Between two even multiples of a unit there is another multiple, and it is nearer to the midpoint
than they are. -/
theorem exists_nearer_multiple {q u : ℚ} {k l : ℤ} (hu : 0 < u) (hk : k % 2 = 0) (hl : l % 2 = 0)
    (hne : k ≠ l) (hq : |q - k * u| = |q - l * u|) :
    ∃ j : ℤ, |j| ≤ |k| + 1 ∧ |q - j * u| < |q - k * u| := by
  have hmid : q = (k + l) / 2 * u := by
    rcases abs_eq_abs.1 hq with h | h
    · have : (k : ℚ) * u = l * u := by linarith
      exact absurd (by exact_mod_cast mul_right_cancel₀ hu.ne' this) hne
    · linarith
  have hdist (j : ℤ) : |q - j * u| = |((k + l - 2 * j : ℤ) : ℚ)| / 2 * u := by
    rw [hmid, ← abs_of_pos hu, ← abs_of_pos (two_pos (α := ℚ)), ← abs_div, ← abs_mul, abs_of_pos hu]
    congr 1
    rw [abs_of_pos (two_pos (α := ℚ))]
    push_cast
    ring
  have hcloser (j : ℤ) (h : |k + l - 2 * j| < |k + l - 2 * k|) : |q - j * u| < |q - k * u| := by
    rw [hdist, hdist]
    gcongr
    exact_mod_cast h
  rcases lt_or_gt_of_ne hne with hlt | hgt
  · refine ⟨k + 1, (abs_add_le k 1).trans_eq (by simp), hcloser _ ?_⟩
    rw [abs_of_nonneg (by omega), abs_of_nonneg (by omega)]
    omega
  · refine ⟨k - 1, (abs_sub k 1).trans_eq (by simp), hcloser _ ?_⟩
    rw [abs_of_nonpos (by omega), abs_of_nonpos (by omega)]
    omega

theorem exists_nearer {q : ℚ} {negative negative' : Bool} {m m' : Nat} {e e' : Int}
    (h : Stored m e) (he : e ≤ e') (hm : m % 2 = 0) (hm' : m' % 2 = 0)
    (hne : value (.finite negative m e) ≠ value (.finite negative' m' e'))
    (hq : |q - value (.finite negative m e)| = |q - value (.finite negative' m' e')|) :
    ∃ y, Representable y ∧ |q - y| < |q - value (.finite negative m e)| := by
  rw [value_finite] at *
  rw [value_finite, mul_zpow_of_le _ he] at hne hq
  have hk : signed negative m % 2 = 0 := by cases negative <;> simp [signed] <;> omega
  have hl : signed negative' m' * 2 ^ (e' - e).toNat % 2 = 0 := by
    have : (2 : ℤ) ∣ signed negative' m' := by cases negative' <;> simp [signed] <;> omega
    exact Int.emod_eq_zero_of_dvd (this.mul_right _)
  obtain ⟨j, hj, hlt⟩ :=
    exists_nearer_multiple (by positivity) hk hl (fun h => hne (by rw [h])) hq
  refine ⟨j * 2 ^ e, ⟨j, e, hj.trans_lt ?_, h.minExponent_le, rfl⟩, hlt⟩
  have hsig := h.significand_lt
  rw [abs_signed]
  rw [hiddenBit] at *
  omega

/-! ## Between the midpoints -/

/-- The rational number lies between the midpoints from the positive number `m * 2 ^ e` to its two
neighbours.  A midpoint itself counts if the significand is even. -/
def Between (m : Nat) (e : Int) (q : ℚ) : Prop :=
  let low : ℚ := (4 * m - Decimal.lowerGap m e : ℕ) * 2 ^ (e - 2)
  let high : ℚ := (4 * m + 2 : ℕ) * 2 ^ (e - 2)
  if m % 2 = 0 then low ≤ q ∧ q ≤ high else low < q ∧ q < high

section Between

variable {m : Nat} {e : Int} {q r s y : ℚ}

/-- What lies between two numbers that lie between the midpoints lies there too. -/
theorem Between.convex (hq : Between m e q) (hs : Between m e s) (hqr : q ≤ r) (hrs : r ≤ s) :
    Between m e r := by
  simp only [Between] at *
  split_ifs at *
  · exact ⟨hq.1.trans hqr, hrs.trans hs.2⟩
  · exact ⟨hq.1.trans_le hqr, hrs.trans_lt hs.2⟩

theorem lowerGap_pos (m : Nat) (e : Int) : 0 < Decimal.lowerGap m e := by
  rw [Decimal.lowerGap]
  split <;> decide

theorem lowerGap_le (m : Nat) (e : Int) : Decimal.lowerGap m e ≤ 2 := by
  rw [Decimal.lowerGap]
  split <;> decide

theorem zpow_eq_quarters (e : Int) : (2 : ℚ) ^ e = 4 * 2 ^ (e - 2) := by
  rw [zpow_sub₀ two_ne_zero]
  ring

theorem zpow_eq_halves (e : Int) : (2 : ℚ) ^ (e - 1) = 2 * 2 ^ (e - 2) := by
  rw [zpow_sub₀ two_ne_zero, zpow_sub₀ two_ne_zero]
  ring

theorem value_eq_quarters (m : Nat) (e : Int) : (m * 2 ^ e : ℚ) = 4 * m * 2 ^ (e - 2) := by
  rw [zpow_eq_quarters]
  ring

/-- The two midpoints, seen from the number. -/
theorem between_iff (hm : 0 < m) :
    Between m e q ↔
      if m % 2 = 0 then
        (m * 2 ^ e : ℚ) - Decimal.lowerGap m e * 2 ^ (e - 2) ≤ q ∧ q ≤ m * 2 ^ e + 2 * 2 ^ (e - 2)
      else (m * 2 ^ e : ℚ) - Decimal.lowerGap m e * 2 ^ (e - 2) < q ∧
        q < m * 2 ^ e + 2 * 2 ^ (e - 2) := by
  have hgap : Decimal.lowerGap m e ≤ 4 * m := (lowerGap_le m e).trans (by omega)
  have hlow : ((4 * m - Decimal.lowerGap m e : ℕ) : ℚ) * 2 ^ (e - 2) =
      m * 2 ^ e - Decimal.lowerGap m e * 2 ^ (e - 2) := by
    rw [value_eq_quarters m e, Nat.cast_sub hgap]
    push_cast
    ring
  have hhigh : ((4 * m + 2 : ℕ) : ℚ) * 2 ^ (e - 2) = m * 2 ^ e + 2 * 2 ^ (e - 2) := by
    rw [value_eq_quarters m e]
    push_cast
    ring
  simp only [Between, hlow, hhigh]

theorem Between.bounds (hm : 0 < m) (hq : Between m e q) :
    (m * 2 ^ e : ℚ) - Decimal.lowerGap m e * 2 ^ (e - 2) ≤ q ∧
      q ≤ m * 2 ^ e + 2 * 2 ^ (e - 2) ∧
      (m % 2 ≠ 0 → (m * 2 ^ e : ℚ) - Decimal.lowerGap m e * 2 ^ (e - 2) < q ∧
        q < m * 2 ^ e + 2 * 2 ^ (e - 2)) := by
  rw [between_iff hm] at hq
  split_ifs at hq with heven
  · exact ⟨hq.1, hq.2, fun h => absurd heven h⟩
  · exact ⟨hq.1.le, hq.2.le, fun _ => hq⟩

/-- What is nearer than the lower midpoint, the nearer of the two, lies between them. -/
theorem between_of_abs_lt (hm : 0 < m)
    (hq : |q - m * 2 ^ e| < Decimal.lowerGap m e * 2 ^ (e - 2)) : Between m e q := by
  have hgap : (Decimal.lowerGap m e : ℚ) * 2 ^ (e - 2) ≤ 2 * 2 ^ (e - 2) := by
    gcongr
    exact_mod_cast lowerGap_le m e
  obtain ⟨hlow, hhigh⟩ := abs_lt.1 hq
  rw [between_iff hm]
  split
  · exact ⟨by linarith, by linarith⟩
  · exact ⟨by linarith, by linarith⟩

/-- A number lies between the midpoints to its neighbours. -/
theorem between_self (hm : 0 < m) (e : Int) : Between m e (m * 2 ^ e) := by
  have hgap : (0 : ℚ) < Decimal.lowerGap m e := by exact_mod_cast lowerGap_pos m e
  refine between_of_abs_lt hm ?_
  rw [sub_self, abs_zero]
  positivity

theorem Between.pos (hm : 0 < m) (hq : Between m e q) : 0 < q := by
  have hgap : (Decimal.lowerGap m e : ℚ) ≤ 2 := by exact_mod_cast lowerGap_le m e
  have hm' : (1 : ℚ) ≤ m := by exact_mod_cast hm
  have hunit : (0 : ℚ) < 2 ^ (e - 2) := by positivity
  have hlow := (hq.bounds hm).1
  rw [value_eq_quarters m e] at hlow
  nlinarith

/-- With a smaller exponent a number of the format does not come close. -/
theorem le_of_exponent_lt {k f : ℤ} (hk : |k| < 2 * hiddenBit) (hlt : f < e) :
    (k * 2 ^ f : ℚ) ≤ (2 * hiddenBit - 1) * 2 ^ (e - 1) := by
  have hk' : (|k| : ℚ) ≤ 2 * hiddenBit - 1 := by
    have : |k| + 1 ≤ 2 * hiddenBit := hk
    have : ((|k| + 1 : ℤ) : ℚ) ≤ (2 * hiddenBit : ℤ) := by exact_mod_cast this
    push_cast at this
    linarith
  calc (k * 2 ^ f : ℚ) ≤ |(k : ℚ)| * 2 ^ f := by
        gcongr
        exact le_abs_self _
    _ ≤ (2 * hiddenBit - 1) * 2 ^ (e - 1) := by
        have : (1 : ℚ) ≤ 2 := one_le_two
        have : (0 : ℚ) ≤ 2 * hiddenBit - 1 := (abs_nonneg _).trans hk'
        gcongr
        omega

/-- The next number above is one unit away. -/
theorem add_unit_le (h : Stored m e) (hy : Representable y) (hlt : (m * 2 ^ e : ℚ) < y) :
    m * 2 ^ e + 4 * 2 ^ (e - 2) ≤ y := by
  obtain ⟨k, f, hk, hf, rfl⟩ := hy
  have hunit : (0 : ℚ) < 2 ^ (e - 2) := by positivity
  have h4 := zpow_eq_quarters e
  have h2 := zpow_eq_halves e
  by_cases hef : e ≤ f
  · rw [mul_zpow_of_le k hef] at hlt ⊢
    have : ((m : ℤ) : ℚ) < (k * 2 ^ (f - e).toNat : ℤ) := by
      exact lt_of_mul_lt_mul_right (by exact_mod_cast hlt) (by positivity)
    have : ((m + 1 : ℤ) : ℚ) ≤ (k * 2 ^ (f - e).toNat : ℤ) := by exact_mod_cast this
    push_cast at this
    rw [h4]
    push_cast
    nlinarith
  · have hn : hiddenBit ≤ m := h.normal.resolve_right (by omega)
    have hn' : (hiddenBit : ℚ) ≤ m := by exact_mod_cast hn
    have hle := le_of_exponent_lt hk (not_le.1 hef)
    rw [h2] at hle
    rw [h4] at hlt
    nlinarith

/-- The next number below is twice as far as the lower midpoint. -/
theorem le_sub_gap (h : Stored m e) (hy : Representable y) (hlt : y < (m * 2 ^ e : ℚ)) :
    y ≤ m * 2 ^ e - 2 * (Decimal.lowerGap m e * 2 ^ (e - 2)) := by
  obtain ⟨k, f, hk, hf, rfl⟩ := hy
  have hunit : (0 : ℚ) < 2 ^ (e - 2) := by positivity
  have hgap : (Decimal.lowerGap m e : ℚ) ≤ 2 := by exact_mod_cast lowerGap_le m e
  have h4 := zpow_eq_quarters e
  have h2 := zpow_eq_halves e
  by_cases hef : e ≤ f
  · rw [mul_zpow_of_le k hef] at hlt ⊢
    have : ((k * 2 ^ (f - e).toNat : ℤ) : ℚ) < (m : ℤ) := by
      exact lt_of_mul_lt_mul_right (by exact_mod_cast hlt) (by positivity)
    have : ((k * 2 ^ (f - e).toNat + 1 : ℤ) : ℚ) ≤ (m : ℤ) := by exact_mod_cast this
    push_cast at this
    rw [h4]
    push_cast
    nlinarith
  · have hlt' : minExponent < e := by omega
    have hn : hiddenBit ≤ m := h.normal.resolve_right hlt'.ne'
    have hle := le_of_exponent_lt hk (not_le.1 hef)
    rw [h2] at hle
    rw [h4]
    by_cases heq : m = hiddenBit
    · rw [Decimal.lowerGap, if_pos ⟨heq, hlt'⟩, heq]
      push_cast
      nlinarith
    · have hn' : (hiddenBit + 1 : ℚ) ≤ m := by exact_mod_cast (show hiddenBit + 1 ≤ m by omega)
      nlinarith

/-- A number is nearest to what lies between its midpoints. -/
theorem Between.nearest (h : Stored m e) (hm : 0 < m) (hq : Between m e q) (hy : Representable y)
    (hne : y ≠ m * 2 ^ e) :
    |q - m * 2 ^ e| ≤ |q - y| ∧ (|q - m * 2 ^ e| = |q - y| → m % 2 = 0) := by
  obtain ⟨hlow, hhigh, hodd⟩ := hq.bounds hm
  have hunit : (0 : ℚ) < 2 ^ (e - 2) := by positivity
  have hgap : (Decimal.lowerGap m e : ℚ) * 2 ^ (e - 2) ≤ 2 * 2 ^ (e - 2) := by
    gcongr
    exact_mod_cast lowerGap_le m e
  rcases lt_or_gt_of_ne hne with hlt | hgt
  · have hfar := le_sub_gap h hy hlt
    rw [abs_of_nonneg (show 0 ≤ q - y by linarith)]
    constructor
    · exact abs_le.2 ⟨by linarith, by linarith⟩
    · intro heq
      by_contra hm2
      have := hodd hm2
      rcases abs_cases (q - m * 2 ^ e) with h | h <;> linarith
  · have hfar := add_unit_le h hy hgt
    rw [abs_of_nonpos (show q - y ≤ 0 by linarith)]
    constructor
    · exact abs_le.2 ⟨by linarith, by linarith⟩
    · intro heq
      by_contra hm2
      have := hodd hm2
      rcases abs_cases (q - m * 2 ^ e) with h | h <;> linarith

end Between

end Binary64

namespace Number

open Binary64 (ofFloat Stored Representable)

/-- The finite number `x` is the number nearest to `q`.  Where another number is equally near, the
significand of `x` is even, and `x` carries the minus sign exactly if `q` does. -/
structure RoundsTo (q : ℚ) (x : Float) : Prop where
  finite : x.isFinite = true
  negative : (ofFloat x).isNegative = true ↔ q < 0
  nearest : ∀ y, Representable y → |q - value x| ≤ |q - y|
  even : ∀ y, Representable y → y ≠ value x → |q - value x| = |q - y| →
    (ofFloat x).significand % 2 = 0

section RoundsTo

variable {q : ℚ} {x y : Float}

theorem representable_value (h : x.isFinite = true) : Representable (value x) := by
  obtain ⟨negative, m, e, hx⟩ := isFinite_iff.1 h
  have hs := Binary64.isStored_ofFloat x
  rw [hx] at hs
  rw [value, hx]
  exact hs.representable negative

theorem RoundsTo.value_eq (hx : RoundsTo q x) (hy : RoundsTo q y) : value x = value y := by
  by_contra hne
  have hq : |q - value x| = |q - value y| :=
    le_antisymm (hx.nearest _ (representable_value hy.finite))
      (hy.nearest _ (representable_value hx.finite))
  have hm := hx.even _ (representable_value hy.finite) (Ne.symm hne) hq
  have hm' := hy.even _ (representable_value hx.finite) hne hq.symm
  have hnear := hx.nearest
  have hnear' := hy.nearest
  obtain ⟨negative, m, e, hx⟩ := isFinite_iff.1 hx.finite
  obtain ⟨negative', m', e', hy⟩ := isFinite_iff.1 hy.finite
  have hs := Binary64.isStored_ofFloat x
  have hs' := Binary64.isStored_ofFloat y
  simp only [value, hx, hy] at hs hs' hm hm' hne hq hnear hnear'
  -- the one with the smaller exponent has a multiple of its unit on the way to the other
  rcases le_total e e' with he | he
  · obtain ⟨z, hz, hlt⟩ := Binary64.exists_nearer hs he hm hm' hne hq
    exact (hnear z hz).not_gt hlt
  · obtain ⟨z, hz, hlt⟩ := Binary64.exists_nearer hs' he hm' hm (Ne.symm hne) hq.symm
    exact (hnear' z hz).not_gt hlt

/-- What a rational number rounds to is settled. -/
theorem RoundsTo.eq (hx : RoundsTo q x) (hy : RoundsTo q y) : x = y := by
  have hv := hx.value_eq hy
  have hsign := hx.negative.trans hy.negative.symm
  obtain ⟨negative, m, e, hfx⟩ := isFinite_iff.1 hx.finite
  obtain ⟨negative', m', e', hfy⟩ := isFinite_iff.1 hy.finite
  have hs := Binary64.isStored_ofFloat x
  have hs' := Binary64.isStored_ofFloat y
  rw [hfx] at hs
  rw [hfy] at hs'
  simp only [hfx, hfy, Binary64.isNegative, ← Bool.eq_iff_iff] at hsign
  obtain ⟨rfl, rfl⟩ := hs.eq_of_value_eq hs' <| by
    rw [← Binary64.abs_value_finite negative, ← Binary64.abs_value_finite negative', ← hfx, ← hfy]
    exact congrArg _ hv
  exact Binary64.ofFloat_injective (by rw [hfx]; nofun) (by rw [hfx, hfy, hsign])

theorem roundsTo_zero : RoundsTo 0 0 := by
  have hzero : ofFloat 0 = .finite false 0 (-1074) := by decide
  have hv : value 0 = 0 := by rw [value, hzero, Binary64.value_zero]
  refine ⟨isFinite_iff.2 ⟨_, _, _, hzero⟩, ?_, fun y _ => ?_, fun y _ _ _ => ?_⟩
  · rw [hzero]
    simp [Binary64.isNegative]
  · rw [hv, sub_zero, abs_zero]
    exact abs_nonneg _
  · rw [hzero]
    rfl

/-- What lies between the midpoints rounds to the number, under the sign of the number. -/
theorem roundsTo_of_between {negative : Bool} {m : Nat} {e : Int}
    (hx : ofFloat x = .finite negative m e) (hm : 0 < m) (hq : Binary64.Between m e q) :
    RoundsTo (if negative then -q else q) x := by
  have hs := Binary64.isStored_ofFloat x
  rw [hx] at hs
  have hfinite : x.isFinite = true := isFinite_iff.2 ⟨_, _, _, hx⟩
  have hsig : (ofFloat x).significand = m := by rw [hx]; rfl
  have hpos : 0 < q := hq.pos hm
  cases negative with
  | false =>
    have hv : value x = m * 2 ^ e := by simp [value, hx, Binary64.value]
    rw [if_neg Bool.false_ne_true]
    refine ⟨hfinite, ?_, fun y hy => ?_, fun y hy hne heq => ?_⟩
    · simp [hx, Binary64.isNegative, hpos.le]
    · by_cases hne : y = value x
      · rw [hne]
      · rw [hv] at hne ⊢
        exact (hq.nearest hs hm hy hne).1
    · rw [hv] at hne heq
      rw [hsig]
      exact (hq.nearest hs hm hy hne).2 heq
  | true =>
    have hv : value x = -(m * 2 ^ e) := by simp [value, hx, Binary64.value]
    have hflip (a b : ℚ) : |-a - b| = |a - -b| := by rw [← abs_neg]; congr 1; ring
    rw [if_pos rfl]
    refine ⟨hfinite, ?_, fun y hy => ?_, fun y hy hne heq => ?_⟩
    · simp [hx, Binary64.isNegative, hpos]
    · by_cases hne : y = value x
      · rw [hne]
      · rw [hflip, hflip, hv, neg_neg]
        refine (hq.nearest hs hm hy.neg fun h => hne ?_).1
        rw [hv, ← h, neg_neg]
    · rw [hflip, hflip, hv, neg_neg] at heq
      rw [hsig]
      refine (hq.nearest hs hm hy.neg fun h => hne ?_).2 heq
      rw [hv, ← h, neg_neg]

end RoundsTo

end Number
end BindOnce

import BindOnce.Proofs.Rounding

/-!
# The fewest digits that read back

`Decimal.shortest` looks for the digits of a number on one grid after the other, the coarsest first.
This module shows that it finds what it is after: digits that read back (`Decimal.between_shortest`),
and no decimal with fewer of them does (`Decimal.digitCount_shortest_le`).

On one grid only the two points next to the number need a look, since whatever lies between a point
that reads back and the number reads back as well.  On the seventeenth grid one of the two does, as
half of its step is less than the way to the nearer midpoint.  The last digit is never a zero, for a
number that ends in one stands on a coarser grid, where it would have been found.

## What is here

* `Decimal.magnitude_bounds` — where the leading digit of a number stands.
* `Decimal.nearestOnGrid?_cases` — what is taken from one grid.
* `Decimal.shortest_eq` — the first grid from which anything is taken.
* `Decimal.between_shortest`, `Decimal.digitCount_shortest_le`,
  `Decimal.coefficient_shortest_mod_ten`, `Decimal.shortest_bounds` — what the digits are.
-/

set_option autoImplicit false
namespace BindOnce

namespace Decimal

open Binary64 (Between Stored div_eq_value)

/-- The exact value of a decimal. -/
def value (d : Decimal) : ℚ := d.coefficient * 10 ^ d.exponent

/-! ## Where the leading digit stands -/

section Digits

theorem digitCount_pos (n : Nat) : 0 < digitCount n := Nat.length_toDigits_pos

theorem lt_ten_pow_digitCount (n : Nat) : n < 10 ^ digitCount n :=
  (Nat.length_toDigits_le_iff (by decide) (digitCount_pos n)).1 le_rfl

theorem ten_pow_digitCount_le {n : Nat} (hn : 0 < n) : 10 ^ (digitCount n - 1) ≤ n := by
  rcases Nat.eq_zero_or_pos (digitCount n - 1) with h | h
  · rw [h]
    exact hn
  · by_contra hlt
    have := (Nat.length_toDigits_le_iff (by decide) h).2 (not_le.1 hlt)
    have := digitCount_pos n
    rw [digitCount] at *
    omega

end Digits

section Magnitude

variable {m : Nat} {e : Int}

theorem one_le_value_iff (m : Nat) (e : Int) :
    Nat.pow 2 (-e).toNat ≤ m * Nat.pow 2 e.toNat ↔ (1 : ℚ) ≤ m * 2 ^ e := by
  rw [← div_eq_value, one_le_div (by rw [Nat.pow_eq]; positivity), Nat.cast_le]

/-- The bounds of a quotient of whole numbers that is at least one. -/
theorem digitCount_div {n k : Nat} (hk : 0 < k) (h : k ≤ n) :
    ((10 : ℚ) ^ ((digitCount (n / k) : ℤ) - 1) ≤ n / k) ∧
      ((n : ℚ) / k < 10 ^ (digitCount (n / k) : ℤ)) := by
  have hk' : (0 : ℚ) < k := by exact_mod_cast hk
  constructor
  · calc (10 : ℚ) ^ ((digitCount (n / k) : ℤ) - 1) = (10 ^ (digitCount (n / k) - 1) : ℕ) := by
          have := digitCount_pos (n / k)
          rw [← Nat.cast_pred this]
          push_cast
          rfl
      _ ≤ (n / k : ℕ) := by exact_mod_cast ten_pow_digitCount_le (Nat.div_pos h hk)
      _ ≤ n / k := Nat.cast_div_le
  · rw [div_lt_iff₀ hk', zpow_natCast]
    have := lt_ten_pow_digitCount (n / k)
    exact_mod_cast (Nat.div_lt_iff_lt_mul hk).1 this

theorem magnitude_bounds (hm : 0 < m) (e : Int) :
    (10 : ℚ) ^ (magnitude m e - 1) ≤ m * 2 ^ e ∧ (m * 2 ^ e : ℚ) ≤ 10 ^ magnitude m e ∧
      ((1 : ℚ) ≤ m * 2 ^ e → (m * 2 ^ e : ℚ) < 10 ^ magnitude m e) := by
  have hden : 0 < Nat.pow 2 (-e).toNat := Nat.pow_pos two_pos
  have hnum : 0 < m * Nat.pow 2 e.toNat := Nat.mul_pos hm (Nat.pow_pos two_pos)
  rw [← one_le_value_iff, ← div_eq_value]
  simp only [magnitude]
  split
  · rename_i h
    obtain ⟨hlow, hhigh⟩ := digitCount_div hden h
    exact ⟨hlow, hhigh.le, fun _ => hhigh⟩
  · rename_i h
    obtain ⟨hlow, hhigh⟩ := digitCount_div hnum (not_le.1 h).le
    have hpos : (0 : ℚ) < (m * Nat.pow 2 e.toNat : ℕ) / (Nat.pow 2 (-e).toNat : ℕ) := by
      have : (0 : ℚ) < (m * Nat.pow 2 e.toNat : ℕ) := by exact_mod_cast hnum
      have : (0 : ℚ) < (Nat.pow 2 (-e).toNat : ℕ) := by exact_mod_cast hden
      positivity
    rw [← inv_div] at hlow hhigh
    refine ⟨?_, ?_, fun h' => absurd h' h⟩
    · have := (inv_lt_inv₀ (by positivity) (inv_pos.2 hpos)).2 hhigh
      rw [inv_inv, ← zpow_neg] at this
      rw [sub_sub_cancel_left]
      exact this.le
    · have := (inv_le_inv₀ (inv_pos.2 hpos) (by positivity)).2 hlow
      rw [inv_inv, ← zpow_neg, neg_sub] at this
      exact this

end Magnitude

/-! ## One grid -/

section Grid

variable {m : Nat} {e g : Int}

theorem zpow_mul_pow_toNat {b : ℚ} (hb : b ≠ 0) (k : Int) :
    b ^ k * b ^ (-k).toNat = b ^ k.toNat := by
  rw [← zpow_natCast, ← zpow_natCast, ← zpow_add₀ hb]
  congr 1
  omega

/-- The numerator and the scale bring a decimal and a number of quarters to a common denominator. -/
theorem common_denominator (e g : Int) :
    ∃ d : ℚ, 0 < d ∧
      ((Nat.pow 2 (e - 2).toNat * Nat.pow 10 (-g).toNat : ℕ) : ℚ) = 2 ^ (e - 2) * d ∧
      ((Nat.pow 2 (2 - e).toNat * Nat.pow 10 g.toNat : ℕ) : ℚ) = 10 ^ g * d := by
  refine ⟨2 ^ (2 - e).toNat * 10 ^ (-g).toNat, by positivity, ?_, ?_⟩
  · have := zpow_mul_pow_toNat (two_ne_zero (α := ℚ)) (e - 2)
    rw [neg_sub] at this
    rw [← mul_assoc, this]
    push_cast [Nat.pow_eq]
    rfl
  · have := zpow_mul_pow_toNat (show (10 : ℚ) ≠ 0 by norm_num) g
    rw [mul_left_comm, this]
    push_cast [Nat.pow_eq]
    rfl

theorem readsBack_iff (c : Nat) :
    readsBack m e (Nat.pow 2 (e - 2).toNat * Nat.pow 10 (-g).toNat)
      (Nat.pow 2 (2 - e).toNat * Nat.pow 10 g.toNat) c = true ↔ Between m e (c * 10 ^ g) := by
  obtain ⟨d, hd, hnum, hscale⟩ := common_denominator e g
  generalize Nat.pow 2 (e - 2).toNat * Nat.pow 10 (-g).toNat = numerator at *
  generalize Nat.pow 2 (2 - e).toNat * Nat.pow 10 g.toNat = scale at *
  have hle (a : ℕ) : a * numerator ≤ c * scale ↔ (a * 2 ^ (e - 2) : ℚ) ≤ c * 10 ^ g := by
    rw [← Nat.cast_le (α := ℚ), Nat.cast_mul, Nat.cast_mul, hnum, hscale, ← mul_assoc, ← mul_assoc,
      mul_le_mul_iff_of_pos_right hd]
  have hge (a : ℕ) : c * scale ≤ a * numerator ↔ (c * 10 ^ g : ℚ) ≤ a * 2 ^ (e - 2) := by
    rw [← Nat.cast_le (α := ℚ), Nat.cast_mul, Nat.cast_mul, hnum, hscale, ← mul_assoc, ← mul_assoc,
      mul_le_mul_iff_of_pos_right hd]
  simp only [readsBack, Between]
  split
  · simp only [Bool.and_eq_true, decide_eq_true_eq, hle, hge]
  · simp only [Bool.and_eq_true, decide_eq_true_eq, ← not_le, hle, hge]

/-- Over a common denominator, division finds the point of the grid below a number. -/
theorem quotient_bounds {numerator scale : ℕ} {d : ℚ} (hd : 0 < d)
    (hnum : (numerator : ℚ) = 2 ^ (e - 2) * d) (hscale : (scale : ℚ) = 10 ^ g * d)
    (hscale_pos : 0 < scale) :
    ((4 * m * numerator / scale : ℕ) * 10 ^ g : ℚ) ≤ m * 2 ^ e ∧
      (m * 2 ^ e : ℚ) < (4 * m * numerator / scale + 1 : ℕ) * 10 ^ g ∧
        (((4 * m * numerator / scale : ℕ) * 10 ^ g : ℚ) = m * 2 ^ e →
          4 * m * numerator % scale = 0) := by
  set c := 4 * m * numerator / scale
  have hvalue : (m * 2 ^ e : ℚ) * d = (4 * m * numerator : ℕ) := by
    rw [Binary64.value_eq_quarters]
    push_cast
    rw [hnum]
    ring
  have hpoint (j : ℕ) : (j * 10 ^ g : ℚ) * d = (j * scale : ℕ) := by
    push_cast
    rw [hscale]
    ring
  refine ⟨?_, ?_, fun heq => ?_⟩
  · refine le_of_mul_le_mul_right ?_ hd
    rw [hvalue, hpoint]
    exact_mod_cast Nat.div_mul_le_self _ _
  · refine lt_of_mul_lt_mul_right ?_ hd.le
    rw [hvalue, hpoint]
    exact_mod_cast Nat.lt_mul_of_div_lt (Nat.lt_succ_self c) hscale_pos
  · have : (c * scale : ℕ) = 4 * m * numerator := by
      rw [← heq, hpoint] at hvalue
      exact_mod_cast hvalue
    rw [← this, Nat.mul_mod_left]

/-- The two points of the grid next to a number, and which of them is taken. -/
theorem nearestOnGrid?_cases (hm : 0 < m) (e g : Int) :
    ∃ c : ℕ, (c * 10 ^ g : ℚ) ≤ m * 2 ^ e ∧ (m * 2 ^ e : ℚ) < (c + 1 : ℕ) * 10 ^ g ∧
      ((Between m e (c * 10 ^ g) ∧ nearestOnGrid? m e g = some c) ∨
        (Between m e ((c + 1 : ℕ) * 10 ^ g) ∧ (c * 10 ^ g : ℚ) ≠ m * 2 ^ e ∧
          nearestOnGrid? m e g = some (c + 1)) ∨
        (¬ Between m e (c * 10 ^ g) ∧ ¬ Between m e ((c + 1 : ℕ) * 10 ^ g) ∧
          nearestOnGrid? m e g = none)) := by
  obtain ⟨d, hd, hnum, hscale⟩ := common_denominator e g
  have hback (c : ℕ) := readsBack_iff (m := m) (e := e) (g := g) c
  have hscale_pos : 0 < Nat.pow 2 (2 - e).toNat * Nat.pow 10 g.toNat :=
    Nat.mul_pos (Nat.pow_pos (by decide)) (Nat.pow_pos (by decide))
  obtain ⟨hlow, hhigh, hexact⟩ := quotient_bounds (m := m) hd hnum hscale hscale_pos
  simp only [nearestOnGrid?]
  generalize Nat.pow 2 (e - 2).toNat * Nat.pow 10 (-g).toNat = numerator at *
  generalize Nat.pow 2 (2 - e).toNat * Nat.pow 10 g.toNat = scale at *
  refine ⟨_, hlow, hhigh, ?_⟩
  split
  · rename_i hc hc'
    rw [← Bool.not_eq_true, hback] at hc hc'
    exact .inr (.inr ⟨hc, hc', rfl⟩)
  · rename_i hc hc'
    exact .inl ⟨(hback _).1 hc, rfl⟩
  · rename_i hc hc'
    rw [← Bool.not_eq_true, hback] at hc
    exact .inr (.inl ⟨(hback _).1 hc', fun heq => hc (heq ▸ Binary64.between_self hm e), rfl⟩)
  · rename_i hc hc'
    split
    · exact .inl ⟨(hback _).1 hc, rfl⟩
    · rename_i hrest
      refine .inr (.inl ⟨(hback _).1 hc', fun heq => hrest ?_, rfl⟩)
      rwa [hexact heq]

/-- What is taken reads back, and is less than one step of the grid away. -/
theorem nearestOnGrid?_eq_some {c : ℕ} (hm : 0 < m) (h : nearestOnGrid? m e g = some c) :
    Between m e (c * 10 ^ g) ∧ (m * 2 ^ e : ℚ) < (c + 1) * 10 ^ g ∧
      ((c : ℚ) - 1) * 10 ^ g < m * 2 ^ e := by
  have hstep : (0 : ℚ) < 10 ^ g := by positivity
  obtain ⟨b, hlow, hhigh, hcase | hcase | hcase⟩ := nearestOnGrid?_cases hm e g
  · obtain rfl : b = c := Option.some_inj.1 (hcase.2.symm.trans h)
    push_cast at hhigh
    exact ⟨hcase.1, hhigh, by linarith⟩
  · obtain rfl : b + 1 = c := Option.some_inj.1 (hcase.2.2.symm.trans h)
    refine ⟨hcase.1, hhigh.trans (by linarith), ?_⟩
    push_cast
    rw [add_sub_cancel_right]
    exact lt_of_le_of_ne hlow hcase.2.1
  · exact absurd (hcase.2.2.symm.trans h) nofun

/-- If a point of the grid reads back then one is taken, because one next to the number reads
back. -/
theorem isSome_nearestOnGrid? {j : ℕ} (hm : 0 < m) (h : Between m e (j * 10 ^ g)) :
    (nearestOnGrid? m e g).isSome = true := by
  obtain ⟨c, hlow, hhigh, hcase | hcase | ⟨hc, hc', -⟩⟩ := nearestOnGrid?_cases hm e g
  · rw [hcase.2, Option.isSome_some]
  · rw [hcase.2.2, Option.isSome_some]
  · have hself := Binary64.between_self hm e
    rcases le_or_gt j c with hj | hj
    · refine absurd (h.convex hself ?_ hlow) hc
      gcongr
    · refine absurd (hself.convex h hhigh.le ?_) hc'
      gcongr
      exact hj

end Grid

/-! ## Seventeen digits -/

section Seventeen

variable {m : Nat} {e : Int}

theorem exists_between {g : Int} (h : Stored m e) (hm : 0 < m)
    (hg : (10 : ℚ) ^ g * 10 ^ 16 ≤ m * 2 ^ e) : ∃ j : ℕ, Between m e (j * 10 ^ g) := by
  have hstep : (0 : ℚ) < 10 ^ g := by positivity
  have hunit : (0 : ℚ) < 2 ^ (e - 2) := by positivity
  have hvalue := Binary64.value_eq_quarters m e
  set j := ⌊(m * 2 ^ e : ℚ) / 10 ^ g + 1 / 2⌋₊ with hj
  have hlow : (j : ℚ) * 10 ^ g ≤ m * 2 ^ e + 10 ^ g / 2 := by
    have : (j : ℚ) ≤ m * 2 ^ e / 10 ^ g + 1 / 2 := Nat.floor_le (by positivity)
    calc (j : ℚ) * 10 ^ g ≤ (m * 2 ^ e / 10 ^ g + 1 / 2) * 10 ^ g := by gcongr
      _ = m * 2 ^ e + 10 ^ g / 2 := by field_simp
  have hhigh : m * 2 ^ e - 10 ^ g / 2 < (j : ℚ) * 10 ^ g := by
    have : (m * 2 ^ e / 10 ^ g + 1 / 2 : ℚ) < j + 1 := Nat.lt_floor_add_one _
    calc (m * 2 ^ e - 10 ^ g / 2 : ℚ) = (m * 2 ^ e / 10 ^ g - 1 / 2) * 10 ^ g := by field_simp
      _ < j * 10 ^ g := by
        gcongr
        linarith
  refine ⟨j, Binary64.between_of_abs_lt hm (lt_of_le_of_lt (b := (10 : ℚ) ^ g / 2) ?_ ?_)⟩
  · exact abs_le.2 ⟨by linarith, by linarith⟩
  -- the step is less than twice the way to the lower midpoint, which is why sixteen would not do
  rw [hvalue] at hg
  rw [lowerGap]
  split
  · rename_i hlow
    rw [hlow.1, Binary64.hiddenBit] at hg
    norm_num at hg ⊢
    linarith
  · have hsig : (m : ℚ) < (2 * Binary64.hiddenBit : ℕ) := by exact_mod_cast h.significand_lt
    have : (4 * m * 2 ^ (e - 2) : ℚ) ≤ 4 * (2 * Binary64.hiddenBit : ℕ) * 2 ^ (e - 2) := by gcongr
    rw [Binary64.hiddenBit] at this
    norm_num at hg this ⊢
    linarith

end Seventeen

/-! ## The first grid that has a point -/

section Shortest

variable {m : Nat} {e : Int}

theorem findSome?_range {α : Type} {f : Nat → Option α} {k n : Nat} (hk : k < n)
    (hnone : ∀ j < k, f j = none) (hsome : (f k).isSome = true) :
    (List.range n).findSome? f = f k := by
  obtain ⟨a, ha⟩ := Option.isSome_iff_exists.1 hsome
  rw [ha, List.findSome?_eq_some_iff]
  refine ⟨List.range k, k, List.range' (k + 1) (n - k - 1), ?_, ha, ?_⟩
  · obtain ⟨r, rfl⟩ : ∃ r, n = k + (r + 1) := ⟨n - k - 1, by omega⟩
    rw [List.range_add, ← List.range'_eq_map_range, List.range'_succ]
    congr 3
    omega
  · simpa using hnone

/-- The digits that are found stand on a grid, and no coarser grid has a point that reads back. -/
theorem shortest_eq (h : Stored m e) (hm : 0 < m) :
    ∃ k c : ℕ, nearestOnGrid? m e (magnitude m e - k - 1) = some c ∧
      (∀ j < k, nearestOnGrid? m e (magnitude m e - j - 1) = none) ∧
      shortest m e = ofGrid c (magnitude m e - k - 1) := by
  have hlast : (nearestOnGrid? m e (magnitude m e - (16 : ℕ) - 1)).isSome = true := by
    obtain ⟨j, hj⟩ := exists_between (g := magnitude m e - (16 : ℕ) - 1) h hm <| by
      refine le_trans (le_of_eq ?_) (magnitude_bounds hm e).1
      rw [← zpow_natCast, ← zpow_add₀ (by norm_num)]
      congr 1
      push_cast
      ring
    exact isSome_nearestOnGrid? hm hj
  have hex : ∃ k : ℕ, (nearestOnGrid? m e (magnitude m e - k - 1)).isSome = true := ⟨16, hlast⟩
  have hfirst (j : ℕ) (hj : j < Nat.find hex) :
      nearestOnGrid? m e (magnitude m e - j - 1) = none :=
    Option.not_isSome_iff_eq_none.1 (Nat.find_min hex hj)
  have hsome := Nat.find_spec hex
  have hlt : Nat.find hex < 17 := Nat.lt_succ_of_le (Nat.find_le hlast)
  obtain ⟨c, hc⟩ := Option.isSome_iff_exists.1 hsome
  refine ⟨Nat.find hex, c, hc, hfirst, ?_⟩
  simp only [shortest]
  rw [findSome?_range hlt (fun j hj => by rw [hfirst j hj]; rfl) (by rw [hc]; rfl), hc]
  rfl

theorem ten_pow_mul (i : ℕ) (g : ℤ) : ((10 ^ i : ℕ) : ℚ) * 10 ^ g = 10 ^ (g + i) := by
  rw [zpow_add₀ (by norm_num), zpow_natCast, mul_comm]
  push_cast
  rfl

section Point

variable {k c : ℕ}

theorem value_ofGrid (c : ℕ) (g : ℤ) : (ofGrid c g).value = c * 10 ^ g := by
  rw [ofGrid]
  split
  · rename_i hc
    obtain ⟨j, rfl⟩ := Nat.dvd_of_mod_eq_zero hc
    rw [value, Nat.mul_div_cancel_left j (by decide), zpow_add_one₀ (by norm_num)]
    push_cast
    ring
  · rfl

/-- On its grid the point that is taken has as many digits as the grid is fine, or is the next power
of ten. -/
theorem point_bounds (hm : 0 < m) (hc : nearestOnGrid? m e (magnitude m e - k - 1) = some c) :
    10 ^ k ≤ c ∧ c ≤ 10 ^ (k + 1) := by
  have hstep : (0 : ℚ) < 10 ^ (magnitude m e - k - 1) := by positivity
  obtain ⟨hlow, hhigh, -⟩ := magnitude_bounds hm e
  obtain ⟨-, hbelow, habove⟩ := nearestOnGrid?_eq_some hm hc
  constructor
  · have : ((10 ^ k : ℕ) : ℚ) < (c + 1 : ℕ) := by
      refine lt_of_mul_lt_mul_right ?_ hstep.le
      rw [ten_pow_mul, show magnitude m e - k - 1 + k = magnitude m e - 1 by ring]
      push_cast
      exact hlow.trans_lt hbelow
    exact Nat.lt_succ_iff.1 (by exact_mod_cast this)
  · have : (c : ℚ) - 1 < (10 ^ (k + 1) : ℕ) := by
      refine lt_of_mul_lt_mul_right ?_ hstep.le
      rw [ten_pow_mul, show magnitude m e - k - 1 + (k + 1 : ℕ) = magnitude m e by push_cast; ring]
      exact habove.trans_le hhigh
    have : (c : ℚ) < (10 ^ (k + 1) + 1 : ℕ) := by
      push_cast at this ⊢
      linarith
    exact Nat.lt_succ_iff.1 (by exact_mod_cast this)

/-- A point of a grid that also stands on a coarser one was found there, so only the ten of the
coarsest grid is a multiple of ten. -/
theorem eq_ten_of_mod_ten (hm : 0 < m)
    (hc : nearestOnGrid? m e (magnitude m e - k - 1) = some c)
    (hfirst : ∀ j < k, nearestOnGrid? m e (magnitude m e - (j : ℕ) - 1) = none)
    (hmod : c % 10 = 0) : k = 0 ∧ c = 10 := by
  have hbounds := point_bounds hm hc
  cases k with
  | zero => exact ⟨rfl, by omega⟩
  | succ i =>
    obtain ⟨j, rfl⟩ := Nat.dvd_of_mod_eq_zero hmod
    have hback := (nearestOnGrid?_eq_some hm hc).1
    have hcoarse : ((10 * j : ℕ) : ℚ) * 10 ^ (magnitude m e - (i + 1 : ℕ) - 1) =
        j * 10 ^ (magnitude m e - i - 1) := by
      rw [show magnitude m e - i - 1 = magnitude m e - (i + 1 : ℕ) - 1 + 1 by push_cast; ring,
        zpow_add_one₀ (by norm_num)]
      push_cast
      ring
    rw [hcoarse] at hback
    have := isSome_nearestOnGrid? hm hback
    rw [hfirst i (Nat.lt_succ_self i)] at this
    exact absurd this nofun

end Point

/-! ## What the digits are -/

/-- The digits read back. -/
theorem between_shortest (h : Stored m e) (hm : 0 < m) : Between m e (shortest m e).value := by
  obtain ⟨k, c, hc, -, heq⟩ := shortest_eq h hm
  rw [heq, value_ofGrid]
  exact (nearestOnGrid?_eq_some hm hc).1

/-- The last digit is not a zero. -/
theorem coefficient_shortest_mod_ten (h : Stored m e) (hm : 0 < m) :
    (shortest m e).coefficient % 10 ≠ 0 := by
  obtain ⟨k, c, hc, hfirst, heq⟩ := shortest_eq h hm
  rw [heq, ofGrid]
  split
  · rename_i hmod
    rw [(eq_ten_of_mod_ten hm hc hfirst hmod).2]
    exact one_ne_zero
  · assumption

/-- The digits stand where the number stands. -/
theorem shortest_bounds (h : Stored m e) (hm : 0 < m) :
    (10 : ℚ) ^ (magnitude m e - 1) ≤ (shortest m e).value ∧
      (shortest m e).value ≤ 10 ^ magnitude m e := by
  obtain ⟨k, c, hc, -, heq⟩ := shortest_eq h hm
  obtain ⟨hlow, hhigh⟩ := point_bounds hm hc
  rw [heq, value_ofGrid]
  constructor
  · rw [show magnitude m e - 1 = magnitude m e - k - 1 + k by ring, ← ten_pow_mul]
    gcongr
  · calc (c * 10 ^ (magnitude m e - k - 1) : ℚ)
        ≤ (10 ^ (k + 1) : ℕ) * 10 ^ (magnitude m e - k - 1) := by gcongr
      _ = 10 ^ magnitude m e := by
        rw [ten_pow_mul]
        congr 1
        push_cast
        ring

theorem digitCount_shortest (hm : 0 < m) {k c : ℕ}
    (hc : nearestOnGrid? m e (magnitude m e - k - 1) = some c)
    (hfirst : ∀ j < k, nearestOnGrid? m e (magnitude m e - (j : ℕ) - 1) = none) :
    digitCount (ofGrid c (magnitude m e - k - 1)).coefficient ≤ k + 1 := by
  rw [ofGrid]
  split
  · rename_i hmod
    rw [(eq_ten_of_mod_ten hm hc hfirst hmod).2]
    have hone : digitCount (10 / 10) = 1 := by decide
    exact hone.trans_le (Nat.le_add_left 1 k)
  · rename_i hmod
    have hpow : 10 ^ (k + 1) % 10 = 0 := by rw [Nat.pow_succ, Nat.mul_mod_left]
    have hne : c ≠ 10 ^ (k + 1) := fun heq => hmod (heq ▸ hpow)
    exact (Nat.length_toDigits_le_iff (by decide) k.succ_pos).2
      (lt_of_le_of_ne (point_bounds hm hc).2 hne)

/-- A decimal that is not below the leading digit stands on the grid of its own number of digits. -/
theorem exists_point {d : Decimal} (hlow : (10 : ℚ) ^ (magnitude m e - 1) ≤ d.value) :
    ∃ j : ℕ, d.value = j * 10 ^ (magnitude m e - (digitCount d.coefficient - 1 : ℕ) - 1) := by
  have hcount := digitCount_pos d.coefficient
  have hlt : d.value < 10 ^ (d.exponent + digitCount d.coefficient) := by
    rw [← ten_pow_mul, value]
    gcongr
    exact lt_ten_pow_digitCount _
  have hexp := (zpow_lt_zpow_iff_right₀ (by norm_num)).1 (hlow.trans_lt hlt)
  set g := magnitude m e - (digitCount d.coefficient - 1 : ℕ) - 1 with hg
  refine ⟨d.coefficient * 10 ^ (d.exponent - g).toNat, ?_⟩
  rw [value, Nat.cast_mul, mul_assoc, ten_pow_mul, Int.toNat_of_nonneg (by omega),
    add_sub_cancel]

/-- No decimal with fewer digits reads back. -/
theorem digitCount_shortest_le (h : Stored m e) (hm : 0 < m) {d : Decimal}
    (hd : Between m e d.value) : digitCount (shortest m e).coefficient ≤ digitCount d.coefficient := by
  obtain ⟨k, c, hc, hfirst, heq⟩ := shortest_eq h hm
  rw [heq]
  refine (digitCount_shortest hm hc hfirst).trans ?_
  have hcount := digitCount_pos d.coefficient
  by_contra hfewer
  rcases le_or_gt ((10 : ℚ) ^ (magnitude m e - 1)) d.value with hlow | hlow
  · obtain ⟨j, hj⟩ := exists_point hlow
    rw [hj] at hd
    have := isSome_nearestOnGrid? hm hd
    rw [hfirst _ (by omega)] at this
    exact absurd this nofun
  · -- then the power of ten in between reads back too, and it has one digit
    have hpower := hd.convex (Binary64.between_self hm e) hlow.le (magnitude_bounds hm e).1
    have := isSome_nearestOnGrid? (j := 1) hm (by rwa [Nat.cast_one, one_mul])
    have hfirst := hfirst 0 (by omega)
    rw [Nat.cast_zero, sub_zero] at hfirst
    rw [hfirst] at this
    exact absurd this nofun

end Shortest

end Decimal
end BindOnce

import BindOnce.Operation
import BindOnce.Proofs.WholeNumbers

/-!
# Repeating a string

Before a string is repeated the program looks at the number that says how often.  It compares numbers:
with the quotient of two whole numbers, rounded down and made a number.  What this comes to is a law
about exact integers, `repetition_law`, with the whole part of the count (`Number.wholePart`) and the
product of that with the size of the string.

The comparison is exact because the quotient is small enough to be a number, and a whole number is
greater than a quotient rounded down exactly if its product with the divisor is greater than the
dividend (`Number.div_lt_truncated_iff`).  Counts that are not finite never get that far, and a count
that passes is small enough to be a machine word.

## What is here

* `repeatText_eq` — repetition by doubling writes the string one time after the other.
* `Number.wholePart_neg_iff`, `Number.div_lt_truncated_iff` — what the checks on the count mean.
* `repeated_eq`, `of_repeated_eq_ok` — what a repetition results in, and what can be said of the count.
* `repetition_law` — the law for the operator.
-/

set_option autoImplicit false
namespace BindOnce

/-! ## The text of a repetition -/

section Text

variable {s : String}

theorem repeatBits_eq {bits n : Nat} (h : n < 2 ^ bits) :
    repeatBits s bits n = String.join (List.replicate n s) := by
  induction bits generalizing n with
  | zero =>
    obtain rfl : n = 0 := by omega
    rfl
  | succ bits ih =>
    rw [repeatBits, ih (by omega)]
    split
    · rename_i hodd
      obtain ⟨half, rfl⟩ : ∃ half, n = half + half + 1 := ⟨n / 2, by omega⟩
      rw [show (half + half + 1) / 2 = half by omega, List.replicate_succ', List.replicate_add,
        String.join_append, String.join_append]
      simp
    · rename_i heven
      obtain ⟨half, rfl⟩ : ∃ half, n = half + half := ⟨n / 2, by omega⟩
      rw [show (half + half) / 2 = half by omega, List.replicate_add, String.join_append]

/-- Doubling comes to the same as writing the string one time after the other. -/
theorem repeatText_eq (s : String) (n : Nat) :
    repeatText s n = String.join (List.replicate n s) :=
  repeatBits_eq Nat.lt_log2_self

theorem utf8ByteSize_join_replicate (s : String) (n : Nat) :
    (String.join (List.replicate n s)).utf8ByteSize = n * s.utf8ByteSize := by
  induction n with
  | zero => simp
  | succ n ih =>
    rw [List.replicate_succ, String.join_cons, String.utf8ByteSize_append, ih, Nat.succ_mul,
      Nat.add_comm]

theorem join_replicate_empty (n : Nat) : String.join (List.replicate n "") = "" := by
  rw [← String.utf8ByteSize_eq_zero_iff, utf8ByteSize_join_replicate]
  rfl

end Text

/-! ## The checks on the count -/

namespace Number

open Binary64 (ofFloat)

section Checks

variable {x : Float}

theorem value_zero : value 0 = 0 := by
  have h : ofFloat 0 = .finite false 0 (-1074) := by decide
  rw [value, h, Binary64.value_zero]

theorem value_neg_one : value (-1) = -1 := by
  have h : ofFloat (-1) = .finite true 4503599627370496 (-52) := by decide +kernel
  rw [value, h]
  norm_num [Binary64.value]

theorem wholePart_neg_iff (hx : x.isFinite = true) : wholePart x < 0 ↔ x ≤ -1 := by
  rw [le_iff_of_isFinite hx (by decide +kernel), value_neg_one, wholePart]
  split
  · rename_i h
    have hfloor : 0 ≤ ⌊value x⌋ := Int.floor_nonneg.2 h
    exact iff_of_false hfloor.not_gt (by linarith)
  · rw [Int.lt_iff_add_one_le, ← le_sub_iff_add_le, Int.ceil_le]
    norm_num

theorem truncated_lt_zero_iff (hx : x.isFinite = true) : truncated x < 0 ↔ wholePart x < 0 := by
  rw [lt_iff_of_isFinite (isFinite_truncated hx) (by decide), value_truncated hx, value_zero]
  exact Int.cast_lt_zero

theorem truncated_beq_zero_iff (hx : x.isFinite = true) :
    (truncated x == 0) = true ↔ wholePart x = 0 := by
  rw [beq_iff_of_isFinite (isFinite_truncated hx) (by decide), value_truncated hx, value_zero]
  exact Int.cast_eq_zero

theorem nonneg_wholePart (h : -1 < x) (hfinite : x.isFinite = true) :
    ¬ x ≤ -1 ∧ 0 ≤ wholePart x := by
  have hlow : ¬ x ≤ -1 := by
    rw [lt_iff_of_isFinite (by decide +kernel) hfinite] at h
    rw [le_iff_of_isFinite hfinite (by decide +kernel)]
    exact h.not_ge
  exact ⟨hlow, not_lt.1 ((wholePart_neg_iff hfinite).not.2 hlow)⟩

theorem wholePart_eq_zero (hlow : -1 < x) (hhigh : x < 1) (hfinite : x.isFinite = true) :
    wholePart x = 0 := by
  have hone : value 1 = 1 := by
    have h : ofFloat 1 = .finite false 4503599627370496 (-52) := by decide +kernel
    rw [value, h]
    norm_num [Binary64.value]
  refine le_antisymm ?_ (nonneg_wholePart hlow hfinite).2
  rw [lt_iff_of_isFinite hfinite (by decide +kernel), hone] at hhigh
  rw [wholePart]
  split
  · exact Int.lt_add_one_iff.1 (Int.floor_lt.2 (by simpa using hhigh))
  · rename_i h
    exact Int.ceil_le.2 (by simpa using (not_le.1 h).le)

/-- The quotient of two whole numbers, rounded down, is a number if the first has no more digits than
numbers have. -/
theorem value_toFloat_div {n : Nat} (hn : n < 2 * Binary64.hiddenBit) (k : Nat) :
    (n / k).toUInt64.toFloat.isFinite = true ∧ value (n / k).toUInt64.toFloat = (n / k : ℕ) := by
  have hlt : n / k < 2 * Binary64.hiddenBit := (Nat.div_le_self n k).trans_lt hn
  have hword : (n / k).toUInt64.toNat = n / k :=
    UInt64.toNat_ofNat_of_lt' (hlt.trans (by decide))
  have hvalue := value_toFloat_word (n := (n / k).toUInt64) (by rwa [hword])
  rwa [hword] at hvalue

/-- The comparison with the quotient decides about the exact product. -/
theorem div_lt_truncated_iff (hx : x.isFinite = true) (hnonneg : 0 ≤ wholePart x) {n k : Nat}
    (hn : n < 2 * Binary64.hiddenBit) (hk : 0 < k) :
    (n / k).toUInt64.toFloat < truncated x ↔ (n : ℤ) < wholePart x * k := by
  obtain ⟨hfinite, hvalue⟩ := value_toFloat_div hn k
  rw [lt_iff_of_isFinite hfinite (isFinite_truncated hx), hvalue, value_truncated hx]
  obtain ⟨times, htimes⟩ := Int.eq_ofNat_of_zero_le hnonneg
  rw [htimes, Int.cast_natCast, Nat.cast_lt, Nat.div_lt_iff_lt_mul hk]
  norm_cast

/-- A count of texts that together are not longer than a word allows is converted without loss. -/
theorem toNat_toUInt64_of_mul_le (hx : x.isFinite = true) (hnonneg : 0 ≤ wholePart x) {n k : Nat}
    (hn : n < 2 ^ 64) (hk : 0 < k) (hle : wholePart x * k ≤ n) :
    ((truncated x).toUInt64.toNat : ℤ) = wholePart x := by
  have : wholePart x ≤ wholePart x * k := le_mul_of_one_le_right hnonneg (by exact_mod_cast hk)
  exact toNat_toUInt64_truncated hx hnonneg ((this.trans hle).trans_lt (by exact_mod_cast hn))

end Checks

end Number

section Law

variable {s : String} {count : Float}

/-- A count that is a finite number is rejected exactly if it is too small, or the text would be too
long. -/
theorem repeated_of_isFinite (hfinite : count.isFinite = true) :
    repeated s count =
      if count ≤ -1 ∨ 0 < s.utf8ByteSize ∧
          maxRepeatBytes < Number.wholePart count * s.utf8ByteSize then
        .error { cause := .invalidRepeatCount count }
      else .ok (.string (String.join (List.replicate (Number.wholePart count).toNat s))) := by
  have hnan := (Number.isFinite_iff_not.1 hfinite).1
  have hinf := (Number.isFinite_iff_not.1 (Number.isFinite_truncated hfinite)).2
  have hneg : Number.truncated count < 0 ↔ count ≤ -1 :=
    (Number.truncated_lt_zero_iff hfinite).trans (Number.wholePart_neg_iff hfinite)
  simp only [repeated, if_neg hnan]
  by_cases hlow : count ≤ -1
  · rw [if_pos (by simp [hneg.2 hlow]), if_pos (.inl hlow)]
  have hnonneg : 0 ≤ Number.wholePart count :=
    not_lt.1 ((Number.wholePart_neg_iff hfinite).not.2 hlow)
  rw [if_neg (by simp [hneg, hlow, hinf])]
  by_cases hempty : s = ""
  · rw [if_pos (by simp [hempty]), if_neg (by simp [hempty, hlow]), hempty, join_replicate_empty]
  have hsize : 0 < s.utf8ByteSize := Nat.pos_of_ne_zero (String.utf8ByteSize_eq_zero_iff.not.2 hempty)
  by_cases hzero : Number.wholePart count = 0
  · rw [if_pos (by simp [Number.truncated_beq_zero_iff hfinite, hzero]), hzero, zero_mul,
      if_neg (by simp [hlow])]
    rfl
  have hguard := Number.div_lt_truncated_iff hfinite hnonneg (n := maxRepeatBytes) (by decide) hsize
  rw [if_neg (by simp [hempty, Number.truncated_beq_zero_iff hfinite, hzero])]
  by_cases hlong : maxRepeatBytes < Number.wholePart count * s.utf8ByteSize
  · rw [if_pos (hguard.2 hlong), if_pos (.inr ⟨hsize, hlong⟩)]
  · rw [if_neg (hguard.not.2 hlong), if_neg (by simp [hlow, hlong]), repeatText_eq]
    have hword := Number.toNat_toUInt64_of_mul_le hfinite hnonneg (by decide) hsize
      (not_lt.1 hlong)
    rw [← hword, Int.toNat_natCast]

/-- What a repetition results in. -/
theorem repeated_eq (s : String) (count : Float) :
    repeated s count =
      if count.isNaN then .ok (.string "")
      else if count.isInf ∨ count ≤ -1 ∨
          0 < s.utf8ByteSize ∧ maxRepeatBytes < Number.wholePart count * s.utf8ByteSize then
        .error { cause := .invalidRepeatCount count }
      else .ok (.string (String.join (List.replicate (Number.wholePart count).toNat s))) := by
  by_cases hnan : count.isNaN = true
  · simp only [repeated, if_pos hnan]
  · rw [if_neg hnan]
    by_cases hinf : count.isInf = true
    · simp only [repeated]
      rw [if_neg hnan, if_pos (by simp [Number.isInf_truncated, hinf]), if_pos (.inl hinf)]
    · rw [repeated_of_isFinite (Number.isFinite_iff_not.2 ⟨hnan, hinf⟩)]
      simp only [hinf, Bool.false_eq_true, false_or]

/-- A repetition that is made has a count in range. -/
theorem of_repeated_eq_ok {v : Value} (h : repeated s count = .ok v) (hnan : count.isNaN ≠ true) :
    count.isFinite = true ∧ 0 ≤ Number.wholePart count ∧
      Number.wholePart count * s.utf8ByteSize ≤ maxRepeatBytes ∧
      v = .string (String.join (List.replicate (Number.wholePart count).toNat s)) := by
  rw [repeated_eq, if_neg hnan] at h
  split at h
  · exact absurd h nofun
  · rename_i hrange
    obtain ⟨hinf, hlow, hlong⟩ : count.isInf ≠ true ∧ ¬ count ≤ -1 ∧
        ¬ (0 < s.utf8ByteSize ∧ maxRepeatBytes < Number.wholePart count * s.utf8ByteSize) := by
      simpa only [not_or] using hrange
    have hfinite := Number.isFinite_iff_not.2 ⟨hnan, hinf⟩
    refine ⟨hfinite, not_lt.1 ((Number.wholePart_neg_iff hfinite).not.2 hlow), ?_,
      (Except.ok.inj h).symm⟩
    rcases s.utf8ByteSize.eq_zero_or_pos with hsize | hsize
    · simp [hsize]
    · exact not_lt.1 fun h => hlong ⟨hsize, h⟩

theorem utf8ByteSize_le_of_repeated {t : String} (h : repeated s count = .ok (.string t)) :
    t.utf8ByteSize ≤ maxRepeatBytes := by
  by_cases hnan : count.isNaN = true
  · rw [repeated_eq, if_pos hnan] at h
    cases h
    exact Nat.zero_le _
  · obtain ⟨-, hnonneg, hlong, htext⟩ := of_repeated_eq_ok h hnan
    cases htext
    rw [utf8ByteSize_join_replicate]
    obtain ⟨times, htimes⟩ := Int.eq_ofNat_of_zero_le hnonneg
    rw [htimes] at hlong ⊢
    exact_mod_cast hlong

/-- Counts between minus one and one are as good as zero. -/
theorem repeated_of_between (hlow : -1 < count) (hhigh : count < 1) :
    repeated s count = .ok (.string "") := by
  have hfinite := Number.isFinite_of_between hlow hhigh
  rw [repeated_of_isFinite hfinite, Number.wholePart_eq_zero hlow hhigh hfinite, zero_mul,
    if_neg (by simp [(Number.nonneg_wholePart hlow hfinite).1])]
  rfl

/-- Of counts with one whole part a failure tells which one it was, and nothing else does. -/
theorem repeated_of_wholePart_eq {count' : Float} (hlow : -1 < count) (hinf : count.isInf = false)
    (hlow' : -1 < count') (hinf' : count'.isInf = false)
    (h : Number.wholePart count = Number.wholePart count') :
    repeated s count' =
      (repeated s count).mapError fun _ => { cause := .invalidRepeatCount count' } := by
  have hfinite := Number.isFinite_iff_not.2 ⟨(Number.not_isNaN_of_lt hlow).2, by rw [hinf]; nofun⟩
  have hfinite' :=
    Number.isFinite_iff_not.2 ⟨(Number.not_isNaN_of_lt hlow').2, by rw [hinf']; nofun⟩
  rw [repeated_of_isFinite hfinite, repeated_of_isFinite hfinite', h]
  simp only [(Number.nonneg_wholePart hlow hfinite).1, (Number.nonneg_wholePart hlow' hfinite').1]
  split <;> rfl

theorem times_string_number (s : String) (count : Float) :
    BinaryOp.mul.apply (.string s) (.number count) = repeated s count := rfl

theorem times_number_string (s : String) (count : Float) :
    BinaryOp.mul.apply (.number count) (.string s) = repeated s count := rfl

/-- **The law of repetition.**  A string times a number, on whichever side the number stands, is the
string written as often as the whole part of the number says.  It is rejected exactly if the number is
infinite or at most minus one, or if the text would be longer than `2 ^ 29` bytes; that is decided
exactly, though the program compares rounded numbers.  So no result is longer than that, the
conversions on the way lose nothing, and but for the count that a failure carries the outcome depends
on the whole part only. -/
theorem repetition_law (s : String) (count : Float) :
    BinaryOp.mul.apply (.string s) (.number count) =
      BinaryOp.mul.apply (.number count) (.string s) ∧
    BinaryOp.mul.apply (.string s) (.number count) =
      (if count.isNaN then .ok (.string "")
      else if count.isInf ∨ count ≤ -1 ∨
          0 < s.utf8ByteSize ∧ 2 ^ 29 < Number.wholePart count * s.utf8ByteSize then
        .error { cause := .invalidRepeatCount count }
      else .ok (.string (String.join (List.replicate (Number.wholePart count).toNat s)))) ∧
    (-1 < count → count < 1 →
      BinaryOp.mul.apply (.string s) (.number count) = .ok (.string "")) ∧
    (∀ t, BinaryOp.mul.apply (.string s) (.number count) = .ok (.string t) →
      t.utf8ByteSize ≤ 2 ^ 29) ∧
    (0 < s.utf8ByteSize →
      Number.value (maxRepeatBytes / s.utf8ByteSize).toUInt64.toFloat =
        (2 ^ 29 / s.utf8ByteSize : ℕ)) ∧
    (count.isNaN = false → 0 < s.utf8ByteSize →
      ∀ v, BinaryOp.mul.apply (.string s) (.number count) = .ok v →
        ((Number.truncated count).toUInt64.toNat : ℤ) = Number.wholePart count) ∧
    (∀ count', -1 < count → count.isInf = false → -1 < count' → count'.isInf = false →
      Number.wholePart count = Number.wholePart count' →
      BinaryOp.mul.apply (.string s) (.number count') =
        (BinaryOp.mul.apply (.string s) (.number count)).mapError
          fun _ => { cause := .invalidRepeatCount count' }) := by
  simp only [times_string_number, times_number_string]
  refine ⟨trivial, repeated_eq s count, repeated_of_between, fun t => utf8ByteSize_le_of_repeated,
    fun _ => (Number.value_toFloat_div (by decide) _).2, fun hnan hsize v hv => ?_,
    fun count' => repeated_of_wholePart_eq⟩
  obtain ⟨hfinite, hnonneg, hlong, -⟩ := of_repeated_eq_ok hv (by rw [hnan]; nofun)
  exact Number.toNat_toUInt64_of_mul_le hfinite hnonneg (by decide) hsize hlong

theorem repetition_law_twice :
    BinaryOp.mul.apply (.string "ab") (.number 0.5) = .ok (.string "") ∧
    "abab".utf8ByteSize ≤ 2 ^ 29 ∧
    Number.value (maxRepeatBytes / "ab".utf8ByteSize).toUInt64.toFloat =
      (2 ^ 29 / "ab".utf8ByteSize : ℕ) ∧
    ((Number.truncated 2.5).toUInt64.toNat : ℤ) = Number.wholePart 2.5 ∧
    BinaryOp.mul.apply (.string "ab") (.number 2.75) =
      (BinaryOp.mul.apply (.string "ab") (.number 2.5)).mapError
        fun _ => { cause := .invalidRepeatCount 2.75 } := by
  have htwice : BinaryOp.mul.apply (.string "ab") (.number 2.5) = .ok (.string "abab") := by
    have htimes : (Number.truncated 2.5).toUInt64.toNat = 2 := by decide +kernel
    simp only [times_string_number, repeated]
    rw [if_neg (by decide +kernel), if_neg (by decide +kernel), if_neg (by decide +kernel),
      if_neg (by decide +kernel), htimes]
    rfl
  have hwhole : Number.wholePart 2.5 = Number.wholePart 2.75 := by
    have h : Binary64.ofFloat 2.5 = .finite false 5629499534213120 (-51) := by decide +kernel
    have h' : Binary64.ofFloat 2.75 = .finite false 6192449487634432 (-51) := by decide +kernel
    rw [Number.wholePart_of_finite h, Number.wholePart_of_finite h']
    decide +kernel
  exact ⟨(repetition_law "ab" 0.5).2.2.1 (by decide +kernel) (by decide +kernel),
    (repetition_law "ab" 2.5).2.2.2.1 "abab" htwice,
    (repetition_law "ab" 2.5).2.2.2.2.1 (by decide),
    (repetition_law "ab" 2.5).2.2.2.2.2.1 (by decide +kernel) (by decide) _ htwice,
    (repetition_law "ab" 2.5).2.2.2.2.2.2 2.75 (by decide +kernel) (by decide +kernel)
      (by decide +kernel) (by decide +kernel) hwhole⟩

end Law

end BindOnce

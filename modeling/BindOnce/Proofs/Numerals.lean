import BindOnce.Proofs.ShortestDigits

/-!
# Numerals

What a program prints for a number is a name, or a numeral that is meant to be read back.  This module
gives the two sides of that a meaning of their own.  `Numeral.positionalForm` and
`Numeral.scientificForm` are the regular expressions of the two layouts, and `Numeral.read?` reads a
numeral as an exact rational number, knowing nothing of how it came about.

Between the two stands `Numeral`: the digits before and after the point, and an exponent, with no
zero too many at either end.  Whatever has these parts is of its form and is read as its value.  So
for `Decimal.positional` and `Decimal.scientific` there is only to show that they write such parts,
and with what value.

## What is here

* `Numeral.readUnsigned?_text` — a numeral is read as its value.
* `Numeral.mem_positionalForm`, `Numeral.mem_scientificForm` — numerals are of their form.
* `Decimal.exists_positional`, `Decimal.exists_scientific` — the layouts are numerals.
* `Number.text_faithful` — what programs see of a number, and that it reads back.
-/

set_option autoImplicit false
namespace BindOnce

/-! ## The forms of a numeral -/

namespace Numeral

open RegularExpression (char star)

/-- Any one of some characters. -/
def oneOf (cs : List Char) : RegularExpression Char := (cs.map char).sum

/-- A part that may be missing. -/
def optional (form : RegularExpression Char) : RegularExpression Char := 1 + form

/-- The form `[0-9]`. -/
def digit : RegularExpression Char := oneOf "0123456789".toList

/-- The form `[1-9]`. -/
def digitNotZero : RegularExpression Char := oneOf "123456789".toList

/-- The form `-?`. -/
def minusForm : RegularExpression Char := optional (char '-')

/-- The form `(\.[0-9]*[1-9])?`. -/
def fractionForm : RegularExpression Char := optional (char '.' * star digit * digitNotZero)

/-- The form `-?(0|[1-9][0-9]*)(\.[0-9]*[1-9])?`. -/
def positionalForm : RegularExpression Char :=
  minusForm * (char '0' + digitNotZero * star digit) * fractionForm

/-- The form `-?[1-9](\.[0-9]*[1-9])?e[+-][1-9][0-9]*`. -/
def scientificForm : RegularExpression Char :=
  minusForm * digitNotZero * fractionForm *
    (char 'e' * oneOf "+-".toList * digitNotZero * star digit)

/-! ## Reading a numeral -/

/-- The value of the digits before and after a point. -/
def mantissa (whole fraction : List Char) : ℚ :=
  Nat.ofDigitChars 10 (whole ++ fraction) 0 * 10 ^ (-(fraction.length : ℤ))

/-- The value of digits that stand alone. -/
def readDigits? (digits : List Char) : Option ℕ :=
  if digits ≠ [] ∧ digits.all Char.isDigit then some (Nat.ofDigitChars 10 digits 0) else none

/-- The exponent that a numeral ends in, which is zero if there is none. -/
def readExponent? : List Char → Option ℤ
  | [] => some 0
  | 'e' :: '+' :: digits => (readDigits? digits).map (↑)
  | 'e' :: '-' :: digits => (readDigits? digits).map (-↑·)
  | _ => none

/-- The digits after the point, and what comes after them. -/
def takeFraction : List Char → List Char × List Char
  | '.' :: text => text.span Char.isDigit
  | text => ([], text)

/-- The exact value of a numeral without a sign. -/
def readUnsigned? (text : List Char) : Option ℚ :=
  let (whole, rest) := text.span Char.isDigit
  let (fraction, rest) := takeFraction rest
  if whole = [] then none else (readExponent? rest).map (mantissa whole fraction * 10 ^ ·)

/-- The exact value of a numeral. -/
def read? (text : String) : Option ℚ :=
  match text.toList with
  | '-' :: text => (readUnsigned? text).map (-·)
  | text => readUnsigned? text

example : read? "-12.50e+3" = some (-12500) := by decide +kernel

end Numeral

/-! ## The parts of a numeral -/

/-- The parts of a numeral without a sign.  There is no zero too many at either end. -/
structure Numeral where
  whole : List Char
  fraction : List Char
  exponent : Option ℤ
  whole_digits : ∀ c ∈ whole, c.isDigit = true
  whole_head : whole = ['0'] ∨ ∃ c rest, whole = c :: rest ∧ c ≠ '0'
  fraction_digits : ∀ c ∈ fraction, c.isDigit = true
  fraction_last : fraction = [] ∨ ∃ first c, fraction = first ++ [c] ∧ c ≠ '0'
  exponent_ne_zero : exponent ≠ some 0

namespace Numeral

/-- The digits after the point with the point, which is left out if there are none. -/
def fractionText : List Char → List Char
  | [] => []
  | fraction => '.' :: fraction

/-- The exponent with its sign. -/
def exponentText : Option ℤ → List Char
  | none => []
  | some e => 'e' :: (if e < 0 then '-' else '+') :: Nat.toDigits 10 e.natAbs

/-- The numeral as it is written. -/
def text (n : Numeral) : List Char :=
  n.whole ++ (fractionText n.fraction ++ exponentText n.exponent)

/-- The value of a numeral. -/
def value (n : Numeral) : ℚ := mantissa n.whole n.fraction * 10 ^ n.exponent.getD 0

section Reading

theorem isDigit_of_mem_toDigits {n : Nat} {c : Char} (hc : c ∈ Nat.toDigits 10 n) :
    c.isDigit = true :=
  Nat.isDigit_of_mem_toDigits (by decide) (by decide) hc

theorem span_append {digits rest : List Char} (hd : ∀ c ∈ digits, c.isDigit = true)
    (hr : ∀ c ∈ rest.head?, c.isDigit = false) :
    (digits ++ rest).span Char.isDigit = (digits, rest) := by
  rw [List.span_eq_takeWhile_dropWhile, List.takeWhile_append_of_pos hd,
    List.dropWhile_append_of_pos hd]
  cases rest with
  | nil => simp
  | cons c rest => simp [hr c rfl]

theorem readDigits?_toDigits (n : Nat) : readDigits? (Nat.toDigits 10 n) = some n := by
  rw [readDigits?, if_pos, Nat.ofDigitChars_toDigits (by decide) (by decide)]
  exact ⟨Nat.toDigits_ne_nil, List.all_eq_true.2 fun c hc => isDigit_of_mem_toDigits hc⟩

theorem readExponent?_exponentText (exponent : Option ℤ) :
    readExponent? (exponentText exponent) = some (exponent.getD 0) := by
  cases exponent with
  | none => rfl
  | some e =>
    rw [exponentText]
    split
    · rw [readExponent?, readDigits?_toDigits, Option.map_some, Option.getD_some]
      congr 1
      omega
    · rw [readExponent?, readDigits?_toDigits, Option.map_some, Option.getD_some]
      congr 1
      omega

theorem head?_exponentText {exponent : Option ℤ} :
    ∀ c ∈ (exponentText exponent).head?, c.isDigit = false := by
  cases exponent <;> simp [exponentText]

theorem takeFraction_text (n : Numeral) :
    takeFraction (fractionText n.fraction ++ exponentText n.exponent) =
      (n.fraction, exponentText n.exponent) := by
  cases hf : n.fraction with
  | nil => cases n.exponent <;> rfl
  | cons c fraction =>
    have hd := n.fraction_digits
    rw [hf] at hd
    exact span_append hd head?_exponentText

theorem head?_fractionText (n : Numeral) :
    ∀ c ∈ (fractionText n.fraction ++ exponentText n.exponent).head?, c.isDigit = false := by
  cases n.fraction with
  | nil => exact head?_exponentText
  | cons c fraction =>
    rintro c ⟨⟩
    rfl

theorem whole_ne_nil (n : Numeral) : n.whole ≠ [] := by
  rcases n.whole_head with h | ⟨c, rest, h, -⟩ <;> rw [h] <;> nofun

/-- A numeral is read as its value. -/
theorem readUnsigned?_text (n : Numeral) : readUnsigned? n.text = some n.value := by
  simp only [readUnsigned?, text, span_append n.whole_digits n.head?_fractionText,
    takeFraction_text, if_neg n.whole_ne_nil, readExponent?_exponentText, Option.map_some, value]

theorem exists_text_eq_cons (n : Numeral) : ∃ c rest, n.text = c :: rest ∧ c.isDigit = true := by
  obtain ⟨c, rest, hwhole⟩ := List.exists_cons_of_ne_nil n.whole_ne_nil
  refine ⟨c, rest ++ (fractionText n.fraction ++ exponentText n.exponent), ?_, ?_⟩
  · rw [text, hwhole, List.cons_append]
  · exact n.whole_digits c (hwhole ▸ List.mem_cons_self)

theorem read?_signText (n : Numeral) (negative : Bool) :
    read? (Number.signText negative ++ .ofList n.text) =
      some (if negative then -n.value else n.value) := by
  obtain ⟨c, rest, htext, hc⟩ := n.exists_text_eq_cons
  rw [read?, String.toList_append, String.toList_ofList]
  cases negative with
  | true =>
    change (readUnsigned? n.text).map (-·) = _
    rw [readUnsigned?_text]
    rfl
  | false =>
    change (match n.text with
      | '-' :: text => (readUnsigned? text).map (-·)
      | text => readUnsigned? text) = _
    split
    · rename_i heq
      obtain ⟨rfl, -⟩ := List.cons.inj (htext.symm.trans heq)
      exact absurd hc (by decide)
    · exact n.readUnsigned?_text

end Reading

/-! ## Numerals are of their form -/

section Form

variable {c : Char} {cs : List Char} {form : RegularExpression Char}

theorem mem_oneOf (hc : c ∈ cs) : [c] ∈ (oneOf cs).matches' := by
  induction cs with
  | nil => exact absurd hc List.not_mem_nil
  | cons c' cs ih =>
    rw [oneOf, List.map_cons, List.sum_cons, RegularExpression.matches'_add, Language.mem_add]
    rcases List.mem_cons.1 hc with rfl | hc
    · exact .inl rfl
    · exact .inr (ih hc)

theorem exists_digitChar (hc : c.isDigit = true) : ∃ n < 10, n.digitChar = c := by
  have hrange : 48 ≤ c.toNat ∧ c.toNat ≤ 57 := by
    rw [Char.isDigit, Bool.and_eq_true, decide_eq_true_iff, decide_eq_true_iff] at hc
    exact ⟨UInt32.le_iff_toNat_le.1 hc.1, UInt32.le_iff_toNat_le.1 hc.2⟩
  refine ⟨c.toNat - 48, by omega, Char.toNat_inj.1 ?_⟩
  rw [Nat.toNat_digitChar_of_lt_ten (by omega)]
  omega

theorem mem_digit (hc : c.isDigit = true) : [c] ∈ digit.matches' := by
  obtain ⟨n, hn, rfl⟩ := exists_digitChar hc
  refine mem_oneOf ?_
  have hall : ∀ n < 10, n.digitChar ∈ "0123456789".toList := by decide
  exact hall n hn

theorem mem_digitNotZero (hc : c.isDigit = true) (hz : c ≠ '0') : [c] ∈ digitNotZero.matches' := by
  obtain ⟨n, hn, rfl⟩ := exists_digitChar hc
  refine mem_oneOf ?_
  have hall : ∀ n < 10, n.digitChar ≠ '0' → n.digitChar ∈ "123456789".toList := by decide
  exact hall n hn hz

theorem mem_star_digit (hcs : ∀ c ∈ cs, c.isDigit = true) : cs ∈ digit.star.matches' := by
  refine Language.mem_kstar.2 ⟨cs.map ([·]), ?_, fun word hword => ?_⟩
  · rw [← List.flatMap_def, List.flatMap_singleton']
  · obtain ⟨c, hc, rfl⟩ := List.mem_map.1 hword
    exact mem_digit (hcs c hc)

theorem nil_mem_optional (form : RegularExpression Char) : [] ∈ (optional form).matches' :=
  .inl rfl

theorem mem_optional (h : cs ∈ form.matches') : cs ∈ (optional form).matches' := .inr h

theorem signText_mem (negative : Bool) :
    (Number.signText negative).toList ∈ minusForm.matches' := by
  cases negative with
  | true => exact mem_optional rfl
  | false => exact nil_mem_optional _

theorem fractionText_mem (n : Numeral) : fractionText n.fraction ∈ fractionForm.matches' := by
  have hd := n.fraction_digits
  rcases n.fraction_last with h | ⟨first, c, h, hc⟩ <;> rw [h] at hd ⊢
  · exact nil_mem_optional _
  · have htext : fractionText (first ++ [c]) = ['.'] ++ first ++ [c] := by cases first <;> rfl
    rw [htext]
    refine mem_optional (Language.append_mem_mul (Language.append_mem_mul rfl ?_) ?_)
    · exact mem_star_digit fun c hc => hd c (List.mem_append_left _ hc)
    · exact mem_digitNotZero (hd c (by simp)) hc

theorem whole_mem (n : Numeral) :
    n.whole ∈ (RegularExpression.char '0' + digitNotZero * digit.star).matches' := by
  have hd := n.whole_digits
  rcases n.whole_head with h | ⟨c, rest, h, hc⟩ <;> rw [h] at hd ⊢
  · exact .inl rfl
  · refine .inr (Language.append_mem_mul (a := [c]) (mem_digitNotZero (hd c (by simp)) hc) ?_)
    exact mem_star_digit fun c hc => hd c (List.mem_cons_of_mem _ hc)

theorem exists_toDigits_eq_cons {n : Nat} (hn : 0 < n) :
    ∃ c rest, Nat.toDigits 10 n = c :: rest ∧ c ≠ '0' := by
  induction n using Nat.strong_induction_on with
  | h n ih =>
    rw [Nat.toDigits_eq_if (by decide)]
    split
    · exact ⟨n.digitChar, [], rfl, by simpa using hn.ne'⟩
    · obtain ⟨c, rest, heq, hc⟩ := ih (n / 10) (by omega) (by omega)
      exact ⟨c, _, by rw [heq, List.cons_append], hc⟩

theorem exponentText_mem {e : ℤ} (he : e ≠ 0) :
    exponentText (some e) ∈ (RegularExpression.char 'e' * oneOf "+-".toList * digitNotZero *
      digit.star).matches' := by
  obtain ⟨c, rest, heq, hc⟩ := exists_toDigits_eq_cons (Int.natAbs_pos.2 he)
  have hd : ∀ c' ∈ c :: rest, c'.isDigit = true :=
    fun c' hc' => isDigit_of_mem_toDigits (heq ▸ hc')
  have htext : exponentText (some e) =
      ['e'] ++ [if e < 0 then '-' else '+'] ++ [c] ++ rest := by
    rw [exponentText, heq]
    rfl
  rw [htext]
  refine Language.append_mem_mul (Language.append_mem_mul (Language.append_mem_mul rfl ?_) ?_) ?_
  · refine mem_oneOf ?_
    split <;> decide
  · exact mem_digitNotZero (hd c List.mem_cons_self) hc
  · exact mem_star_digit fun c' hc' => hd c' (List.mem_cons_of_mem _ hc')

/-- A numeral without an exponent is of the positional form. -/
theorem mem_positionalForm (n : Numeral) (h : n.exponent = none) (negative : Bool) :
    (Number.signText negative ++ .ofList n.text).toList ∈ positionalForm.matches' := by
  rw [String.toList_append, String.toList_ofList, text, h, exponentText, List.append_nil,
    ← List.append_assoc]
  exact Language.append_mem_mul
    (Language.append_mem_mul (signText_mem negative) n.whole_mem) n.fractionText_mem

/-- A numeral with one digit before the point and an exponent is of the scientific form. -/
theorem mem_scientificForm (n : Numeral) {e : ℤ} (h : n.exponent = some e) (hc : n.whole = [c])
    (hz : c ≠ '0') (negative : Bool) :
    (Number.signText negative ++ .ofList n.text).toList ∈ scientificForm.matches' := by
  have hdigit := n.whole_digits c (by rw [hc]; exact List.mem_singleton_self c)
  have hexp : e ≠ 0 := fun he => n.exponent_ne_zero (by rw [h, he])
  rw [String.toList_append, String.toList_ofList, text, h, hc, ← List.append_assoc,
    ← List.append_assoc]
  exact Language.append_mem_mul (Language.append_mem_mul (Language.append_mem_mul
    (signText_mem negative) (mem_digitNotZero hdigit hz)) n.fractionText_mem) (exponentText_mem hexp)

end Form

end Numeral

/-! ## The two layouts -/

namespace Decimal

open Numeral (mantissa)

variable {d : Decimal}

theorem isDigit_of_mem_digits {c : Char} (hc : c ∈ d.digits) : c.isDigit = true :=
  Numeral.isDigit_of_mem_toDigits hc

theorem length_digits_pos (d : Decimal) : 0 < d.digits.length := Nat.length_toDigits_pos

theorem ofDigitChars_digits (d : Decimal) : Nat.ofDigitChars 10 d.digits 0 = d.coefficient :=
  Nat.ofDigitChars_toDigits (by decide) (by decide)

/-- Digits that do not end in a zero. -/
theorem exists_digits_eq_append (h : d.coefficient % 10 ≠ 0) :
    ∃ first c, d.digits = first ++ [c] ∧ c ≠ '0' := by
  have hc : (d.coefficient % 10).digitChar ≠ '0' := by simpa using h
  rw [digits, Nat.toDigits_eq_if (by decide)]
  split
  · rename_i hlt
    exact ⟨[], _, rfl, by rwa [Nat.mod_eq_of_lt hlt] at hc⟩
  · exact ⟨_, _, rfl, hc⟩

/-- The digits with a point set among them, or after them. -/
def split (d : Decimal) (h : d.coefficient % 10 ≠ 0) (whole fraction : List Char)
    (hne : whole ≠ []) (hdigits : whole ++ fraction = d.digits) (exponent : Option ℤ)
    (hexponent : exponent ≠ some 0) : Numeral where
  whole := whole
  fraction := fraction
  exponent := exponent
  whole_digits c hc := isDigit_of_mem_digits (hdigits ▸ List.mem_append_left _ hc)
  whole_head := by
    obtain ⟨c, rest, rfl⟩ := List.exists_cons_of_ne_nil hne
    obtain ⟨c', rest', hhead, hc'⟩ := Numeral.exists_toDigits_eq_cons (n := d.coefficient) (by omega)
    obtain ⟨rfl, -⟩ := List.cons.inj (hdigits.trans hhead)
    exact .inr ⟨_, rest, rfl, hc'⟩
  fraction_digits c hc := isDigit_of_mem_digits (hdigits ▸ List.mem_append_right _ hc)
  fraction_last := by
    rcases List.eq_nil_or_concat' fraction with rfl | ⟨first, c, rfl⟩
    · exact .inl rfl
    · obtain ⟨first', c', hlast, hc'⟩ := exists_digits_eq_append h
      rw [hlast, ← List.append_assoc] at hdigits
      obtain ⟨-, heq⟩ := List.append_inj' hdigits rfl
      exact .inr ⟨first, c, rfl, List.singleton_inj.1 heq ▸ hc'⟩
  exponent_ne_zero := hexponent

/-- The digits after a point, with zeros between them. -/
def belowOne (d : Decimal) (h : d.coefficient % 10 ≠ 0) (zeros : Nat) : Numeral where
  whole := ['0']
  fraction := List.replicate zeros '0' ++ d.digits
  exponent := none
  whole_digits := by simp
  whole_head := .inl rfl
  fraction_digits c hc := by
    rcases List.mem_append.1 hc with hc | hc
    · rw [List.eq_of_mem_replicate hc]
      rfl
    · exact isDigit_of_mem_digits hc
  fraction_last := by
    obtain ⟨first, c, hlast, hc⟩ := exists_digits_eq_append h
    exact .inr ⟨List.replicate zeros '0' ++ first, c, by rw [hlast, List.append_assoc], hc⟩
  exponent_ne_zero := nofun

/-- The digits with zeros after them. -/
def wholeNumber (d : Decimal) (h : 0 < d.coefficient) (zeros : Nat) : Numeral where
  whole := d.digits ++ List.replicate zeros '0'
  fraction := []
  exponent := none
  whole_digits c hc := by
    rcases List.mem_append.1 hc with hc | hc
    · exact isDigit_of_mem_digits hc
    · rw [List.eq_of_mem_replicate hc]
      rfl
  whole_head := by
    obtain ⟨c, rest, hhead, hc⟩ := Numeral.exists_toDigits_eq_cons h
    exact .inr ⟨c, rest ++ List.replicate zeros '0', by rw [digits, hhead, List.cons_append], hc⟩
  fraction_digits := nofun
  fraction_last := .inl rfl
  exponent_ne_zero := nofun

theorem value_split {h : d.coefficient % 10 ≠ 0} {whole fraction : List Char} {hne : whole ≠ []}
    {hdigits : whole ++ fraction = d.digits} {exponent : Option ℤ} {hexponent : exponent ≠ some 0}
    (hplace : exponent.getD 0 = d.exponent + fraction.length) :
    (d.split h whole fraction hne hdigits exponent hexponent).value = d.value := by
  rw [Numeral.value, split, mantissa, hdigits, ofDigitChars_digits, hplace, value, mul_assoc,
    ← zpow_add₀ (by norm_num)]
  congr 2
  ring

theorem value_belowOne {h : d.coefficient % 10 ≠ 0} {zeros : Nat}
    (hplace : d.exponent + d.digits.length = -zeros) : (d.belowOne h zeros).value = d.value := by
  have hdigits : Nat.ofDigitChars 10 (['0'] ++ (List.replicate zeros '0' ++ d.digits)) 0 =
      d.coefficient := by
    rw [Nat.ofDigitChars_append, Nat.ofDigitChars_append, Nat.ofDigitChars_replicate_zero]
    exact d.ofDigitChars_digits
  have hlength : -((List.replicate zeros '0' ++ d.digits).length : ℤ) = d.exponent := by
    rw [List.length_append, List.length_replicate]
    push_cast
    omega
  rw [Numeral.value, belowOne, mantissa, hdigits, hlength, Option.getD_none, zpow_zero, mul_one,
    value]

theorem value_wholeNumber {h : 0 < d.coefficient} {zeros : Nat} (hplace : d.exponent = zeros) :
    (d.wholeNumber h zeros).value = d.value := by
  have hdigits : Nat.ofDigitChars 10 (d.digits ++ List.replicate zeros '0' ++ []) 0 =
      10 ^ zeros * d.coefficient := by
    rw [List.append_nil, Nat.ofDigitChars_append, Nat.ofDigitChars_replicate_zero,
      ofDigitChars_digits]
  rw [Numeral.value, wholeNumber, mantissa, hdigits, value, hplace]
  push_cast
  simp [mul_comm]

/-- What is written without an exponent is a numeral of the same value. -/
theorem exists_positional (h : d.coefficient % 10 ≠ 0) :
    ∃ n : Numeral, d.positional = .ofList n.text ∧ n.exponent = none ∧ n.value = d.value := by
  have hlen := length_digits_pos d
  rw [positional]
  split
  · rename_i hpoint
    set zeros := (-(d.digits.length + d.exponent : ℤ)).toNat with hzeros
    refine ⟨d.belowOne h zeros, ?_, rfl, value_belowOne (by omega)⟩
    obtain ⟨c, rest, hcons⟩ := List.exists_cons_of_ne_nil
      (List.append_ne_nil_of_right_ne_nil (List.replicate zeros '0')
        (List.ne_nil_of_length_pos hlen))
    simp only [Numeral.text, belowOne, hcons, Numeral.fractionText, Numeral.exponentText,
      List.append_nil, List.singleton_append]
  · rename_i hpoint
    split
    · rename_i hexponent
      set place := (d.digits.length + d.exponent : ℤ).toNat with hplace
      have hbefore : d.digits.take place ≠ [] :=
        List.ne_nil_of_length_pos (by rw [List.length_take]; omega)
      obtain ⟨c, rest, hafter⟩ := List.exists_cons_of_ne_nil (l := d.digits.drop place)
        (List.ne_nil_of_length_pos (by rw [List.length_drop]; omega))
      refine ⟨d.split h _ _ hbefore (List.take_append_drop place d.digits) none nofun, ?_, rfl,
        value_split ?_⟩
      · simp only [Numeral.text, Decimal.split, hafter, Numeral.fractionText, Numeral.exponentText,
          List.append_nil]
      · rw [List.length_drop, Option.getD_none]
        omega
    · refine ⟨d.wholeNumber (by omega) d.exponent.toNat, ?_, rfl, value_wholeNumber (by omega)⟩
      simp only [Numeral.text, wholeNumber, Numeral.fractionText, Numeral.exponentText,
        List.append_nil]

theorem ofList_append_exponentText (mantissa : List Char) (e : ℤ) :
    .ofList (mantissa ++ Numeral.exponentText (some e)) =
      (let sign := if e < 0 then "-" else "+"
       s!"{String.ofList mantissa}e{sign}{e.natAbs}") := by
  have hnat : (toString e.natAbs).toList = Nat.toDigits 10 e.natAbs := by
    rw [Nat.toString_eq_ofList_toDigits, String.toList_ofList]
  rw [← String.toList_inj, String.toList_ofList, Numeral.exponentText]
  change _ = (String.ofList mantissa ++ "e" ++ (if e < 0 then "-" else "+") ++
    toString e.natAbs).toList
  rw [String.toList_append, hnat]
  split <;> simp

/-- What is written with an exponent is a numeral of the same value. -/
theorem exists_scientific (h : d.coefficient % 10 ≠ 0)
    (hexponent : d.digits.length + d.exponent - 1 ≠ 0) :
    ∃ n : Numeral, d.scientific = .ofList n.text ∧ (∃ e, n.exponent = some e) ∧
      (∃ c, n.whole = [c] ∧ c ≠ '0') ∧ n.value = d.value := by
  obtain ⟨c, rest, hdigits, hc⟩ := Numeral.exists_toDigits_eq_cons (n := d.coefficient) (by omega)
  have hdigits : d.digits = c :: rest := hdigits
  refine ⟨d.split h [c] rest (List.cons_ne_nil _ _) hdigits.symm
    (some (d.digits.length + d.exponent - 1)) (by simpa using hexponent), ?_, ⟨_, rfl⟩,
    ⟨c, rfl, hc⟩, value_split ?_⟩
  · simp only [scientific, Numeral.text, Decimal.split]
    generalize (d.digits.length + d.exponent - 1 : ℤ) = e
    rw [hdigits]
    cases rest <;> exact (ofList_append_exponentText _ e).symm
  · rw [Option.getD_some, hdigits, List.length_cons]
    push_cast
    ring

/-- The place of the first digit. -/
theorem value_bounds (h : 0 < d.coefficient) :
    (10 : ℚ) ^ (d.digits.length + d.exponent - 1) ≤ d.value ∧
      d.value < 10 ^ (d.digits.length + d.exponent) := by
  constructor
  · have hlen : d.digits.length + d.exponent - 1 =
        d.exponent + (digitCount d.coefficient - 1 : ℕ) := by
      rw [Nat.cast_pred (digitCount_pos _), digits, digitCount]
      ring
    rw [hlen, ← ten_pow_mul, value]
    gcongr
    exact ten_pow_digitCount_le h
  · rw [add_comm, digits, ← digitCount, ← ten_pow_mul, value]
    gcongr
    exact lt_ten_pow_digitCount _

/-- A number that is not near one is not written with the exponent zero. -/
theorem exponent_shortest_ne_zero {m : Nat} {e : Int} (h : Binary64.Stored m e) (hm : 0 < m)
    (hfar : (m * 2 ^ e : ℚ) < 10 ^ (-1 : ℤ) ∨ (10 : ℚ) ^ (1 : ℤ) < m * 2 ^ e) :
    (shortest m e).digits.length + (shortest m e).exponent - 1 ≠ 0 := by
  have hten : (1 : ℚ) < 10 := by norm_num
  have hmod := coefficient_shortest_mod_ten h hm
  obtain ⟨hlow, hhigh⟩ := value_bounds (d := shortest m e) (by omega)
  obtain ⟨hlow', hhigh'⟩ := shortest_bounds h hm
  obtain ⟨hlow'', hhigh'', -⟩ := magnitude_bounds hm e
  intro hzero
  have hmag : 0 ≤ magnitude m e := by
    rw [hzero] at hlow
    exact (zpow_le_zpow_iff_right₀ hten).1 (hlow.trans hhigh')
  have hmag' : magnitude m e - 1 < 1 := by
    have hone : (shortest m e).digits.length + (shortest m e).exponent = 1 := by omega
    rw [hone] at hhigh
    exact (zpow_lt_zpow_iff_right₀ hten).1 (hlow'.trans_lt hhigh)
  rcases hfar with hfar | hfar
  · have := (zpow_lt_zpow_iff_right₀ hten).1 (hlow''.trans_lt hfar)
    omega
  · have := (zpow_lt_zpow_iff_right₀ hten).1 (hfar.trans_le hhigh'')
    omega

end Decimal

/-! ## Numbers as programs see them -/

namespace Number

open Binary64 (ofFloat)

section Text

variable {x y : Float} {negative : Bool} {m : Nat} {e : Int}

theorem text_of_isNaN (hx : x.isNaN = true) : text x = "NaN" := by
  rw [text, isNaN_iff.1 hx]

theorem text_of_infinite (hx : ofFloat x = .infinite negative) :
    text x = signText negative ++ "Infinity" := by
  rw [text, hx]

theorem text_of_zero (hx : (x == 0) = true) : text x = "0" := by
  obtain ⟨negative, e, hx⟩ := beq_zero_iff.1 hx
  rw [text, hx]
  rfl

theorem text_of_finite (hx : ofFloat x = .finite negative m e) (hm : 0 < m) :
    text x = signText negative ++
      if scientificFrom ≤ x.abs || x.abs < positionalFrom then (Decimal.shortest m e).scientific
      else (Decimal.shortest m e).positional := by
  obtain ⟨m, rfl⟩ := Nat.exists_eq_succ_of_ne_zero hm.ne'
  rw [text, hx]
  rfl

theorem value_scientificFrom : value scientificFrom = 10 ^ (21 : ℤ) := by
  have h : ofFloat scientificFrom = .finite false 7629394531250000 17 := by decide +kernel
  rw [value, h]
  norm_num [Binary64.value]

theorem value_positionalFrom_lt : value positionalFrom < 10 ^ (-6 : ℤ) := by
  have h : ofFloat positionalFrom = .finite false 4722366482869645 (-72) := by decide +kernel
  rw [value, h]
  norm_num [Binary64.value]

/-- A finite number other than zero is printed as a numeral that reads back, with an exponent if the
number is large or small. -/
theorem exists_numeral (hx : ofFloat x = .finite negative m e) (hm : 0 < m) :
    ∃ n : Numeral, text x = signText negative ++ .ofList n.text ∧ Binary64.Between m e n.value ∧
      if scientificFrom ≤ x.abs ∨ x.abs < positionalFrom then
        (∃ e, n.exponent = some e) ∧ ∃ c, n.whole = [c] ∧ c ≠ '0'
      else n.exponent = none := by
  have hs := Binary64.isStored_ofFloat x
  rw [hx] at hs
  have hmod := Decimal.coefficient_shortest_mod_ten hs hm
  have hback := Decimal.between_shortest hs hm
  have hfinite : x.abs.isFinite = true := by
    rw [isFinite_abs]
    exact isFinite_iff.2 ⟨_, _, _, hx⟩
  have hvalue : value x.abs = m * 2 ^ e := by
    rw [value_abs, value, hx, Binary64.abs_value_finite]
  rw [text_of_finite hx hm]
  by_cases hfar : scientificFrom ≤ x.abs ∨ x.abs < positionalFrom
  · have hexponent := Decimal.exponent_shortest_ne_zero hs hm <| by
      rw [← hvalue]
      rcases hfar with h | h
      · rw [le_iff_of_isFinite (by decide +kernel) hfinite, value_scientificFrom] at h
        exact .inr (lt_of_lt_of_le (by norm_num) h)
      · rw [lt_iff_of_isFinite hfinite (by decide +kernel)] at h
        exact .inl (h.trans (value_positionalFrom_lt.trans (by norm_num)))
    obtain ⟨n, htext, hexp, hwhole, hn⟩ := Decimal.exists_scientific hmod hexponent
    refine ⟨n, ?_, hn ▸ hback, ?_⟩
    · rw [if_pos (by simpa using hfar), htext]
    · rw [if_pos hfar]
      exact ⟨hexp, hwhole⟩
  · obtain ⟨n, htext, hexp, hn⟩ := Decimal.exists_positional hmod
    refine ⟨n, ?_, hn ▸ hback, ?_⟩
    · rw [if_neg (by simpa using hfar), htext]
    · rwa [if_neg hfar]

/-- Reading what is printed for a finite number, and rounding it, gives the number back. -/
theorem exists_read?_text (hx : x.isFinite = true) :
    ∃ q, Numeral.read? (text x) = some q ∧ RoundsTo q (if x == 0 then 0 else x) := by
  by_cases hzero : (x == 0) = true
  · rw [text_of_zero hzero, if_pos hzero]
    exact ⟨0, by decide +kernel, roundsTo_zero⟩
  · obtain ⟨negative, m, e, hfx⟩ := isFinite_iff.1 hx
    have hm : 0 < m := Nat.pos_of_ne_zero fun hm => hzero (beq_zero_iff.2 ⟨_, _, hm ▸ hfx⟩)
    obtain ⟨n, htext, hn, -⟩ := exists_numeral hfx hm
    rw [htext, if_neg hzero]
    exact ⟨_, n.read?_signText negative, roundsTo_of_between hfx hm hn⟩

/-- Equal numbers are printed alike. -/
theorem text_congr (h : (x == y) = true) : text x = text y := by
  rcases eq_or_zero_of_beq h with rfl | ⟨hx, hy⟩
  · rfl
  · rw [text_of_zero hx, text_of_zero hy]

/-- Only finite numbers are printed as something that reads as a numeral. -/
theorem isFinite_iff_isSome_read? :
    x.isFinite = true ↔ (Numeral.read? (text x)).isSome = true := by
  constructor
  · intro hx
    obtain ⟨q, hq, -⟩ := exists_read?_text hx
    rw [hq, Option.isSome_some]
  · intro h
    cases hx : ofFloat x with
    | nan =>
      rw [text_of_isNaN (isNaN_iff.2 hx)] at h
      exact absurd h (by decide +kernel)
    | infinite negative =>
      rw [text_of_infinite hx] at h
      cases negative <;> exact absurd h (by decide +kernel)
    | finite negative m e => exact isFinite_iff.2 ⟨_, _, _, hx⟩

theorem value_dropSign (x : Float) : value (if x == 0 then 0 else x) = value x := by
  split
  · rename_i hzero
    obtain ⟨negative, e, hx⟩ := beq_zero_iff.1 hzero
    have hzero : ofFloat 0 = .finite false 0 (-1074) := by decide
    rw [value, value, hx, hzero, Binary64.value_zero, Binary64.value_zero]
  · rfl

/-- Numbers that are printed alike are equal. -/
theorem beq_of_text_eq (hx : x.isNaN = false) (h : text x = text y) : (x == y) = true := by
  by_cases hfinite : x.isFinite = true
  · have hfinite' : y.isFinite = true := by
      rwa [isFinite_iff_isSome_read?, ← h, ← isFinite_iff_isSome_read?]
    obtain ⟨q, hq, hround⟩ := exists_read?_text hfinite
    obtain ⟨q', hq', hround'⟩ := exists_read?_text hfinite'
    obtain rfl : q = q' := Option.some_inj.1 (hq.symm.trans (h ▸ hq'))
    rw [beq_iff_of_isFinite hfinite hfinite', ← value_dropSign x, ← value_dropSign y]
    exact congrArg value (hround.eq hround')
  · have hfinite' : y.isFinite ≠ true := by
      rwa [Ne, isFinite_iff_isSome_read?, ← h, ← isFinite_iff_isSome_read?]
    cases hfx : ofFloat x with
    | nan =>
      rw [isNaN_iff.2 hfx] at hx
      exact absurd hx nofun
    | finite negative m e => exact absurd (isFinite_iff.2 ⟨_, _, _, hfx⟩) hfinite
    | infinite negative =>
      rw [text_of_infinite hfx] at h
      cases hfy : ofFloat y with
      | nan =>
        rw [text_of_isNaN (isNaN_iff.2 hfy)] at h
        cases negative <;> exact absurd h (by decide)
      | finite negative' m' e' => exact absurd (isFinite_iff.2 ⟨_, _, _, hfy⟩) hfinite'
      | infinite negative' =>
        rw [text_of_infinite hfy] at h
        obtain rfl : negative = negative' := by
          cases negative <;> cases negative' <;> first | rfl | exact absurd h (by decide)
        exact beq_iff.2 ⟨_, by rw [extended, hfx]; rfl, by rw [extended, hfy]; rfl⟩

theorem lt_zero_iff_of_infinite (hx : ofFloat x = .infinite negative) :
    x < 0 ↔ negative = true := by
  have hzero : ofFloat 0 = .finite false 0 (-1074) := by decide
  simp only [lt_iff, extended, hx, hzero, Binary64.extended, Option.mem_some_iff, exists_eq_left']
  cases negative
  · simp
  · simp

theorem text_of_isInf (h : x.isInf = true) : text x = if x < 0 then "-Infinity" else "Infinity" := by
  obtain ⟨negative, hx⟩ := isInf_iff.1 h
  rw [text_of_infinite hx]
  simp only [lt_zero_iff_of_infinite hx]
  cases negative <;> decide

/-- The bounds between which numbers are printed in the positional form. -/
theorem not_far_iff (hx : x.isFinite = true) :
    ¬ (scientificFrom ≤ x.abs ∨ x.abs < positionalFrom) ↔ 1e-6 ≤ x.abs ∧ x.abs < 1e21 := by
  change _ ↔ positionalFrom ≤ x.abs ∧ x.abs < scientificFrom
  have habs : x.abs.isFinite = true := (isFinite_abs x).trans hx
  have hlow : positionalFrom.isFinite = true := by decide +kernel
  have hhigh : scientificFrom.isFinite = true := by decide +kernel
  rw [le_iff_of_isFinite hhigh habs, lt_iff_of_isFinite habs hlow, not_or, not_le, not_lt,
    le_iff_of_isFinite hlow habs, lt_iff_of_isFinite habs hhigh, and_comm]

/-- The form in which a finite number other than zero is printed. -/
theorem text_mem_form (hfinite : x.isFinite = true) (hne : (x == 0) = false) :
    if 1e-6 ≤ x.abs ∧ x.abs < 1e21 then (text x).toList ∈ Numeral.positionalForm.matches'
    else (text x).toList ∈ Numeral.scientificForm.matches' := by
  obtain ⟨negative, m, e, hx⟩ := isFinite_iff.1 hfinite
  have hm : 0 < m := Nat.pos_of_ne_zero fun hm => by
    rw [beq_zero_iff.2 ⟨_, _, hm ▸ hx⟩] at hne
    exact absurd hne nofun
  obtain ⟨n, htext, -, hform⟩ := exists_numeral hx hm
  rw [htext]
  split at hform
  · rename_i hfar
    obtain ⟨⟨e, hexponent⟩, c, hwhole, hc⟩ := hform
    rw [if_neg fun h => (not_far_iff hfinite).2 h hfar]
    exact n.mem_scientificForm hexponent hwhole hc negative
  · rename_i hnear
    rw [if_pos ((not_far_iff hfinite).1 hnear)]
    exact n.mem_positionalForm hform negative

/-- Every number is printed by its name, as zero, or as a numeral: in the positional form from `1e-6`
up to `1e21`, in the scientific form outside.  Read exactly, and rounded to the nearest number, the
numeral gives the number back, zero without its sign.  So what is printed tells any two numbers apart
that are not equal. -/
theorem text_faithful (x : Float) :
    (x.isNaN = true → text x = "NaN") ∧
    (x.isInf = true → text x = if x < 0 then "-Infinity" else "Infinity") ∧
    ((x == 0) = true → text x = "0") ∧
    (x.isFinite = true → (x == 0) = false →
      if 1e-6 ≤ x.abs ∧ x.abs < 1e21 then (text x).toList ∈ Numeral.positionalForm.matches'
      else (text x).toList ∈ Numeral.scientificForm.matches') ∧
    (x.isFinite = true → ∃ q, Numeral.read? (text x) = some q ∧
      ∀ y, RoundsTo q y ↔ y = if x == 0 then 0 else x) ∧
    (x.isNaN = false → ∀ y, text x = text y ↔ (x == y) = true) := by
  refine ⟨text_of_isNaN, text_of_isInf, text_of_zero, text_mem_form, fun hfinite => ?_,
    fun hx y => ⟨beq_of_text_eq hx, text_congr⟩⟩
  obtain ⟨q, hq, hround⟩ := exists_read?_text hfinite
  refine ⟨q, hq, fun y => ⟨fun h => h.eq hround, ?_⟩⟩
  rintro rfl
  exact hround

theorem text_faithful_at_numbers :
    text (0 / 0) = "NaN" ∧
    text (-1 / 0) = (if (-1 / 0 : Float) < 0 then "-Infinity" else "Infinity") ∧
    text (-0) = "0" ∧
    (if 1e-6 ≤ Float.abs (-1.5e-7) ∧ Float.abs (-1.5e-7) < 1e21 then
        (text (-1.5e-7)).toList ∈ Numeral.positionalForm.matches'
      else (text (-1.5e-7)).toList ∈ Numeral.scientificForm.matches') ∧
    (∃ q, Numeral.read? (text 0.3) = some q ∧
      ∀ y, RoundsTo q y ↔ y = if (0.3 : Float) == 0 then 0 else 0.3) ∧
    (text 0.3 = text (0.1 + 0.2) ↔ (0.3 == (0.1 + 0.2 : Float)) = true) :=
  ⟨(text_faithful (0 / 0)).1 (by decide +kernel),
    (text_faithful (-1 / 0)).2.1 (by decide +kernel),
    (text_faithful (-0)).2.2.1 (by decide +kernel),
    (text_faithful (-1.5e-7)).2.2.2.1 (by decide +kernel) (by decide +kernel),
    (text_faithful 0.3).2.2.2.2.1 (by decide +kernel),
    (text_faithful 0.3).2.2.2.2.2 (by decide +kernel) (0.1 + 0.2)⟩

end Text

end Number

end BindOnce

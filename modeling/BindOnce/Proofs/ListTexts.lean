import BindOnce.Proofs.Holds
import BindOnce.Proofs.Numerals
import BindOnce.Value.Display

/-!
# What the text of a list says

Lists are shown with their strings in quotes, and `Value.display` promises that `["a, b"]` and
`["a", "b"]` can be told apart.  More is true: as long as no functions sit in them, the texts of two
lists are the same only if the lists are, up to the identity of lists and to numbers that have one
text.

A text is read from the front.  Its first character tells a string, a list and everything else
apart.  A string ends at the first quote that is not part of an escape, a list at the bracket that
stands where a further item would, and everything else, in which no delimiter occurs, at the next
delimiter.

## What is here

* `Quoted.unescape` — reading the characters of a quoted string back, one by one;
  `Quoted.unescape_escape`, `Quoted.eq_of_flatMap_escape_eq`.
* `numberChars`, `Number.mem_numberChars` — the few characters that numbers are written with.
* `Value.HoldsNoFunction`, `Value.ShownAlike` — what the theorem assumes and what it concludes.
* `Value.itemText`, `Value.itemsText`, `Value.closingText` — the text of a list by recursion on its
  items.
* `Value.Unambiguous`, `Value.unambiguous` — an item in front of more text: where it ends and what
  it is.
* `equal_list_texts_iff` — lists of one text.
-/

set_option autoImplicit false
namespace BindOnce

/-! ## Reading a quoted string -/

namespace Quoted

/-- The value of a hexadecimal digit. -/
def hexDigit (c : Char) : Nat := "0123456789abcdef".toList.idxOf c

/-- The value of hexadecimal digits. -/
def hexValue (digits : List Char) : Nat := digits.foldl (fun n c => 16 * n + hexDigit c) 0

/-- Read one character of a quoted string, and what comes after it; none at the closing quote. -/
def unescape : List Char → Option (Char × List Char)
  | '\\' :: '0' :: rest => some ('\x00', rest)
  | '\\' :: 't' :: rest => some ('\t', rest)
  | '\\' :: 'r' :: rest => some ('\r', rest)
  | '\\' :: 'n' :: rest => some ('\n', rest)
  | '\\' :: '"' :: rest => some ('"', rest)
  | '\\' :: '\\' :: rest => some ('\\', rest)
  | '\\' :: 'u' :: '\x7b' :: rest =>
    let (digits, rest) := rest.span (· ≠ '\x7d')
    some (.ofNat (hexValue digits), rest.tail)
  | '"' :: _ | [] => none
  | c :: rest => some (c, rest)

theorem hexDigit_digitChar {n : Nat} (h : n < 16) : hexDigit n.digitChar = n := by
  have hall : ∀ n < 16, hexDigit n.digitChar = n := by decide
  exact hall n h

theorem hexValue_toDigits (n : Nat) : hexValue (Nat.toDigits 16 n) = n := by
  induction n using Nat.strong_induction_on with
  | h n ih =>
    rw [Nat.toDigits_eq_if (by decide)]
    split
    · rename_i hlt
      rw [hexValue, List.foldl_cons, List.foldl_nil, hexDigit_digitChar hlt, Nat.mul_zero,
        Nat.zero_add]
    · have hlt : n % 16 < 16 := Nat.mod_lt _ (by decide)
      rw [hexValue, List.foldl_append, ← hexValue, ih (n / 16) (by omega), List.foldl_cons,
        List.foldl_nil, hexDigit_digitChar hlt, Nat.div_add_mod]

theorem ne_brace_of_mem_toDigits {n : Nat} {c : Char} (hc : c ∈ Nat.toDigits 16 n) :
    c ≠ '\x7d' := by
  induction n using Nat.strong_induction_on with
  | h n ih =>
    have hdigit (k : Nat) : k.digitChar ≠ '\x7d' := Nat.digitChar_ne _ (by decide)
    rw [Nat.toDigits_eq_if (by decide)] at hc
    split at hc
    · rw [List.mem_singleton.1 hc]
      exact hdigit n
    · rcases List.mem_append.1 hc with hc | hc
      · exact ih (n / 16) (by omega) hc
      · rw [List.mem_singleton.1 hc]
        exact hdigit _

theorem unescape_codePoint (c : Char) (rest : List Char) :
    unescape (codePoint c ++ rest) = some (c, rest) := by
  have hspan : (Nat.toDigits 16 c.toNat ++ '\x7d' :: rest).span (· ≠ '\x7d') =
      (Nat.toDigits 16 c.toNat, '\x7d' :: rest) := by
    rw [List.span_eq_takeWhile_dropWhile, List.takeWhile_append_of_pos, List.dropWhile_append_of_pos]
    · simp
    · exact fun d hd => decide_eq_true (ne_brace_of_mem_toDigits hd)
    · exact fun d hd => decide_eq_true (ne_brace_of_mem_toDigits hd)
  have htext : codePoint c ++ rest =
      '\\' :: 'u' :: '\x7b' :: (Nat.toDigits 16 c.toNat ++ '\x7d' :: rest) := by
    rw [codePoint, List.cons_append, List.cons_append, List.cons_append, List.append_assoc,
      List.singleton_append]
  rw [htext, unescape, hspan]
  simp [hexValue_toDigits]

theorem unescape_cons {c : Char} (hslash : c ≠ '\\') (hquote : c ≠ '"') (rest : List Char) :
    unescape (c :: rest) = some (c, rest) := by
  rw [unescape.eq_def]
  split <;> simp_all

/-- A character is read as it was written. -/
theorem unescape_escape (c : Char) (rest : List Char) :
    unescape (escape c ++ rest) = some (c, rest) := by
  unfold escape
  split
  case h_7 hquote hslash =>
    split
    · exact unescape_codePoint c rest
    · exact unescape_cons hslash hquote rest
  all_goals rfl

/-- Where a quoted string ends is settled, and what it says. -/
theorem eq_of_flatMap_escape_eq {s t rest rest' : List Char}
    (h : s.flatMap escape ++ '"' :: rest = t.flatMap escape ++ '"' :: rest') :
    s = t ∧ rest = rest' := by
  have hend (rest : List Char) : unescape ('"' :: rest) = none := rfl
  induction s generalizing t with
  | nil =>
    cases t with
    | nil => exact ⟨rfl, (List.cons.inj h).2⟩
    | cons d t =>
      have := congrArg unescape h
      rw [List.flatMap_cons, List.append_assoc, unescape_escape] at this
      exact absurd this nofun
  | cons c s ih =>
    cases t with
    | nil =>
      have := congrArg unescape h
      rw [List.flatMap_cons, List.append_assoc, unescape_escape] at this
      exact absurd this nofun
    | cons d t =>
      have := congrArg unescape h
      rw [List.flatMap_cons, List.flatMap_cons, List.append_assoc, List.append_assoc,
        unescape_escape, unescape_escape, Option.some_inj, Prod.mk.injEq] at this
      obtain ⟨rfl, hrest⟩ := this
      obtain ⟨rfl, rfl⟩ := ih hrest
      exact ⟨rfl, rfl⟩

end Quoted

/-! ## Texts that are not quoted -/

/-- The characters of numbers. -/
def numberChars : List Char := "0123456789.e+-NaInfity".toList

theorem Numeral.mem_numberChars_of_isDigit {c : Char} (hc : c.isDigit = true) :
    c ∈ numberChars := by
  obtain ⟨n, hn, rfl⟩ := exists_digitChar hc
  have hall : ∀ n < 10, n.digitChar ∈ numberChars := by decide
  exact hall n hn

theorem Numeral.mem_numberChars {n : Numeral} {c : Char} (hc : c ∈ n.text) : c ∈ numberChars := by
  have hfraction : ∀ c ∈ fractionText n.fraction, c ∈ numberChars := by
    intro c hc
    have hd := n.fraction_digits
    cases hf : n.fraction with
    | nil =>
      rw [hf] at hc
      exact absurd hc List.not_mem_nil
    | cons d fraction =>
      rw [hf] at hc hd
      rcases List.mem_cons.1 hc with rfl | hc
      · decide
      · exact mem_numberChars_of_isDigit (hd c hc)
  have hexponent : ∀ c ∈ exponentText n.exponent, c ∈ numberChars := by
    intro c hc
    cases he : n.exponent with
    | none =>
      rw [he] at hc
      exact absurd hc List.not_mem_nil
    | some e =>
      rw [he, exponentText] at hc
      rcases List.mem_cons.1 hc with rfl | hc
      · decide
      · rcases List.mem_cons.1 hc with rfl | hc
        · split <;> decide
        · exact mem_numberChars_of_isDigit (isDigit_of_mem_toDigits hc)
  rcases List.mem_append.1 hc with hc | hc
  · exact mem_numberChars_of_isDigit (n.whole_digits c hc)
  · rcases List.mem_append.1 hc with hc | hc
    · exact hfraction c hc
    · exact hexponent c hc

theorem Number.mem_numberChars {x : Float} {c : Char} (hc : c ∈ (text x).toList) :
    c ∈ numberChars := by
  have hsign {negative : Bool} (h : c ∈ (signText negative).toList) : c ∈ numberChars := by
    cases negative with
    | false => exact absurd h List.not_mem_nil
    | true =>
      rw [List.mem_singleton.1 h]
      decide
  cases hx : Binary64.ofFloat x with
  | nan =>
    have hall : "NaN".toList ⊆ numberChars := by decide
    rw [text_of_isNaN (isNaN_iff.2 hx)] at hc
    exact hall hc
  | infinite negative =>
    have hall : "Infinity".toList ⊆ numberChars := by decide
    rw [text_of_infinite hx, String.toList_append] at hc
    exact (List.mem_append.1 hc).elim hsign (hall ·)
  | finite negative m e =>
    rcases m.eq_zero_or_pos with rfl | hm
    · have hall : "0".toList ⊆ numberChars := by decide
      rw [text_of_zero (beq_zero_iff.2 ⟨_, _, hx⟩)] at hc
      exact hall hc
    · obtain ⟨n, htext, -⟩ := exists_numeral hx hm
      rw [htext, String.toList_append, String.toList_ofList] at hc
      exact (List.mem_append.1 hc).elim hsign Numeral.mem_numberChars

theorem Number.text_ne_of_mem {x : Float} {word : String} {c : Char} (hc : c ∈ word.toList)
    (hn : c ∉ numberChars) : text x ≠ word :=
  fun h => hn (mem_numberChars (h ▸ hc))

theorem Number.text_ne_empty (x : Float) : text x ≠ "" := by
  intro h
  by_cases hx : x.isFinite = true
  · rw [isFinite_iff_isSome_read?, h] at hx
    exact absurd hx (by decide +kernel)
  · cases hfx : Binary64.ofFloat x with
    | nan => exact absurd ((text_of_isNaN (isNaN_iff.2 hfx)).symm.trans h) (by decide)
    | infinite negative =>
      have := (text_of_infinite hfx).symm.trans h
      cases negative <;> exact absurd this (by decide)
    | finite negative m e => exact hx (isFinite_iff.2 ⟨_, _, _, hfx⟩)

/-! ## Items of a list -/

namespace Value

/-- The value is no function, and holds none. -/
def HoldsNoFunction (v : Value) : Prop := ∀ f, ¬ v.Holds (.function f)

@[simp]
theorem holdsNoFunction_list_iff {id : ListId} {items : List Value} :
    (Value.list id items).HoldsNoFunction ↔ ∀ v ∈ items, v.HoldsNoFunction := by
  constructor
  · exact fun h v hv f hf => h f (.item hv hf)
  · intro h f hf
    cases hf with
    | item hv hf => exact h _ hv f hf

@[simp]
theorem holdsNoFunction_number (n : Float) : (Value.number n).HoldsNoFunction := nofun

@[simp]
theorem holdsNoFunction_string (s : String) : (Value.string s).HoldsNoFunction := nofun

@[simp]
theorem holdsNoFunction_bool (b : Bool) : (Value.bool b).HoldsNoFunction := nofun

@[simp]
theorem holdsNoFunction_nil : Value.nil.HoldsNoFunction := nofun

/-- Values of one shape, in which strings, truth values and the absent value are the same and numbers
have the same text. -/
inductive ShownAlike : Value → Value → Prop where
  | number {a b : Float} : Number.text a = Number.text b → ShownAlike (.number a) (.number b)
  | string (s : String) : ShownAlike (.string s) (.string s)
  | bool (b : Bool) : ShownAlike (.bool b) (.bool b)
  | nil : ShownAlike .nil .nil
  | list {id id' : ListId} {items items' : List Value} :
    List.Forall₂ ShownAlike items items' → ShownAlike (.list id items) (.list id' items')

/-- The text of a value in a list. -/
def itemText : Value → List Char
  | .string s => (Quoted.quote s).toList
  | v => v.display.toList

/-- The items after the first, and the end of the list. -/
def closingText : List Value → List Char
  | [] => [']']
  | v :: vs => ',' :: ' ' :: (itemText v ++ closingText vs)

/-- The items, and the end of the list. -/
def itemsText : List Value → List Char
  | [] => [']']
  | v :: vs => itemText v ++ closingText vs

theorem map_toList_displayItems (vs : List Value) :
    (displayItems vs).map String.toList = vs.map itemText := by
  induction vs with
  | nil => rfl
  | cons v vs ih => cases v <;> simp only [displayItems, List.map_cons, ih, itemText]

theorem intercalate_append (v : Value) (vs : List Value) :
    [',', ' '].intercalate ((v :: vs).map itemText) ++ [']'] = itemText v ++ closingText vs := by
  induction vs generalizing v with
  | nil => simp [closingText]
  | cons w vs ih =>
    rw [closingText, ← ih]
    simp [List.intercalate]

theorem toList_display_list (id : ListId) (items : List Value) :
    (display (.list id items)).toList = '[' :: itemsText items := by
  have hbegin : "[".toList = ['['] := rfl
  have hend : "]".toList = [']'] := rfl
  have hbetween : ", ".toList = [',', ' '] := rfl
  rw [display, String.toList_append, String.toList_append, String.toList_intercalate,
    map_toList_displayItems, hbegin, hend, hbetween, List.append_assoc, List.singleton_append]
  cases items with
  | nil => rfl
  | cons v vs => rw [intercalate_append, itemsText]

/-- What ends a text that is not quoted. -/
def delimiters : List Char := ['"', '[', ']', ',']

/-- The value is a number, a truth value or absent. -/
inductive Unquoted : Value → Prop where
  | number (n : Float) : Unquoted (.number n)
  | bool (b : Bool) : Unquoted (.bool b)
  | nil : Unquoted .nil

theorem form_cases {v : Value} (hv : v.HoldsNoFunction) :
    (∃ s, v = .string s) ∨ (∃ id items, v = .list id items) ∨ v.Unquoted := by
  cases v with
  | number n => exact .inr (.inr (.number n))
  | string s => exact .inl ⟨s, rfl⟩
  | bool b => exact .inr (.inr (.bool b))
  | nil => exact .inr (.inr .nil)
  | list id items => exact .inr (.inl ⟨id, items, rfl⟩)
  | function f => exact absurd .self (hv f)

section Unquoted

variable {v w : Value}

theorem Unquoted.itemText_eq (hv : v.Unquoted) : itemText v = v.display.toList := by
  cases hv <;> rfl

theorem Unquoted.itemText_ne_nil (hv : v.Unquoted) : itemText v ≠ [] := by
  cases hv with
  | number n => exact fun h => Number.text_ne_empty n (String.toList_inj.1 h)
  | bool b => cases b <;> decide
  | nil => decide

theorem Unquoted.not_mem_delimiters (hv : v.Unquoted) {c : Char} (hc : c ∈ itemText v) :
    c ∉ delimiters := by
  have hall {cs : List Char} (h : cs.all (· ∉ delimiters) = true) (hc : c ∈ cs) : c ∉ delimiters :=
    of_decide_eq_true (List.all_eq_true.1 h c hc)
  cases hv with
  | number n =>
    have hnumber : numberChars.all (· ∉ delimiters) = true := by decide
    exact hall hnumber (Number.mem_numberChars hc)
  | bool b => cases b <;> exact hall (by decide) hc
  | nil => exact hall (by decide) hc

/-- No number looks like a word, and no word like another. -/
theorem Unquoted.shownAlike_of_display_eq (hv : v.Unquoted) (hw : w.Unquoted)
    (h : v.display = w.display) : ShownAlike v w := by
  have hnumber {n : Float} {v : Value} (hv : v.Unquoted) (hn : ∀ m, v ≠ .number m) :
      Number.text n ≠ v.display := by
    cases hv with
    | number m => exact absurd rfl (hn m)
    | bool b => cases b <;> exact Number.text_ne_of_mem (c := 'u') (by decide) (by decide)
    | nil => exact Number.text_ne_of_mem (c := 'w') (by decide) (by decide)
  cases hv with
  | number n =>
    cases hw with
    | number m => exact .number h
    | bool b => exact absurd h (hnumber (.bool b) nofun)
    | nil => exact absurd h (hnumber .nil nofun)
  | bool b =>
    cases hw with
    | number m => exact absurd h.symm (hnumber (.bool b) nofun)
    | bool b' => cases b <;> cases b' <;> first | exact .bool _ | exact absurd h (by decide)
    | nil => cases b <;> exact absurd h (by decide)
  | nil =>
    cases hw with
    | number m => exact absurd h.symm (hnumber .nil nofun)
    | bool b => cases b <;> exact absurd h (by decide)
    | nil => exact .nil

end Unquoted

/-- What comes after an item. -/
def Follows (rest : List Char) : Prop := ∃ c tail, rest = c :: tail ∧ (c = ',' ∨ c = ']')

theorem follows_closingText (vs : List Value) (rest : List Char) :
    Follows (closingText vs ++ rest) := by
  cases vs with
  | nil => exact ⟨_, _, rfl, .inr rfl⟩
  | cons v vs => exact ⟨_, _, rfl, .inl rfl⟩

theorem takeWhile_append_of_follows {cs rest : List Char} (hcs : ∀ c ∈ cs, c ∉ delimiters)
    (hrest : Follows rest) : (cs ++ rest).takeWhile (· ∉ delimiters) = cs := by
  obtain ⟨c, tail, rfl, hc⟩ := hrest
  have hstop : c ∈ delimiters := by rcases hc with rfl | rfl <;> decide
  rw [List.takeWhile_append_of_pos fun c hc => decide_eq_true (hcs c hc),
    List.takeWhile_cons_of_neg (by simpa using hstop), List.append_nil]

/-- An unquoted text ends where the next delimiter comes. -/
theorem eq_of_append_eq {cs cs' rest rest' : List Char} (hcs : ∀ c ∈ cs, c ∉ delimiters)
    (hcs' : ∀ c ∈ cs', c ∉ delimiters) (hrest : Follows rest) (hrest' : Follows rest')
    (h : cs ++ rest = cs' ++ rest') : cs = cs' ∧ rest = rest' := by
  have htext : cs = cs' := by
    rw [← takeWhile_append_of_follows hcs hrest, h, takeWhile_append_of_follows hcs' hrest']
  exact ⟨htext, List.append_cancel_left (htext ▸ h)⟩

theorem itemText_string_append (s : String) (rest : List Char) :
    itemText (.string s) ++ rest = '"' :: (s.toList.flatMap Quoted.escape ++ '"' :: rest) := by
  rw [itemText, Quoted.quote, String.toList_ofList, List.cons_append, List.append_assoc,
    List.singleton_append]

theorem itemText_list_append (id : ListId) (items : List Value) (rest : List Char) :
    itemText (.list id items) ++ rest = '[' :: (itemsText items ++ rest) := by
  have htext : itemText (.list id items) = (display (.list id items)).toList := rfl
  rw [htext, toList_display_list, List.cons_append]

/-- The first character of an item tells which form it has. -/
theorem exists_head_itemText {v : Value} (hv : v.HoldsNoFunction) (rest : List Char) :
    ∃ c tail, itemText v ++ rest = c :: tail ∧
      (c = '"' ∧ (∃ s, v = .string s) ∨ c = '[' ∧ (∃ id items, v = .list id items) ∨
        c ∉ delimiters ∧ v.Unquoted) := by
  rcases form_cases hv with ⟨s, rfl⟩ | ⟨id, items, rfl⟩ | hv
  · exact ⟨_, _, itemText_string_append s rest, .inl ⟨rfl, s, rfl⟩⟩
  · exact ⟨_, _, itemText_list_append id items rest, .inr (.inl ⟨rfl, id, items, rfl⟩)⟩
  · obtain ⟨c, tail, hcons⟩ := List.exists_cons_of_ne_nil hv.itemText_ne_nil
    have hc : c ∉ delimiters := hv.not_mem_delimiters (hcons ▸ List.mem_cons_self)
    exact ⟨c, tail ++ rest, by rw [hcons, List.cons_append], .inr (.inr ⟨hc, hv⟩)⟩

/-- No item begins like the end of a list. -/
theorem itemText_append_ne {v : Value} (hv : v.HoldsNoFunction) (rest tail : List Char) :
    itemText v ++ rest ≠ ']' :: tail := by
  intro h
  obtain ⟨c, tail', hcons, hform⟩ := exists_head_itemText hv rest
  obtain rfl : c = ']' := (List.cons.inj (hcons.symm.trans h)).1
  rcases hform with ⟨hc, -⟩ | ⟨hc, -⟩ | ⟨hc, -⟩
  · exact absurd hc (by decide)
  · exact absurd hc (by decide)
  · exact hc (by decide)

theorem form_cases_of_append_eq {v w : Value} (hv : v.HoldsNoFunction) (hw : w.HoldsNoFunction)
    {rest rest' : List Char} (h : itemText v ++ rest = itemText w ++ rest') :
    (∃ s t, v = .string s ∧ w = .string t) ∨
      (∃ id items id' items', v = .list id items ∧ w = .list id' items') ∨
        v.Unquoted ∧ w.Unquoted := by
  obtain ⟨c, tail, hcons, hv⟩ := exists_head_itemText hv rest
  obtain ⟨c', tail', hcons', hw⟩ := exists_head_itemText hw rest'
  obtain rfl : c = c' := (List.cons.inj (hcons.symm.trans (h.trans hcons'))).1
  rcases hv with ⟨rfl, s, rfl⟩ | ⟨rfl, id, items, rfl⟩ | ⟨hc, hv⟩
  · rcases hw with ⟨-, t, rfl⟩ | ⟨hc', -⟩ | ⟨hc', -⟩
    · exact .inl ⟨s, t, rfl, rfl⟩
    · exact absurd hc' (by decide)
    · exact absurd (by decide) hc'
  · rcases hw with ⟨hc', -⟩ | ⟨-, id', items', rfl⟩ | ⟨hc', -⟩
    · exact absurd hc' (by decide)
    · exact .inr (.inl ⟨id, items, id', items', rfl, rfl⟩)
    · exact absurd (by decide) hc'
  · rcases hw with ⟨rfl, -⟩ | ⟨rfl, -⟩ | ⟨-, hw⟩
    · exact absurd (by decide) hc
    · exact absurd (by decide) hc
    · exact .inr (.inr ⟨hv, hw⟩)

/-- Where the text of an item ends is settled, and what it says. -/
def Unambiguous (v : Value) : Prop :=
  ∀ (w : Value) (rest rest' : List Char), w.HoldsNoFunction → Follows rest → Follows rest' →
    itemText v ++ rest = itemText w ++ rest' → ShownAlike v w ∧ rest = rest'

theorem unambiguous_closingText {items items' : List Value} {rest rest' : List Char}
    (hitems : ∀ v ∈ items, Unambiguous v) (hitems' : ∀ v ∈ items', v.HoldsNoFunction)
    (h : closingText items ++ rest = closingText items' ++ rest') :
    List.Forall₂ ShownAlike items items' ∧ rest = rest' := by
  induction items generalizing items' with
  | nil =>
    cases items' with
    | nil => exact ⟨.nil, (List.cons.inj h).2⟩
    | cons w items' => exact absurd (List.cons.inj h).1 (by decide)
  | cons v items ih =>
    cases items' with
    | nil => exact absurd (List.cons.inj h).1 (by decide)
    | cons w items' =>
      simp only [closingText, List.cons_append, List.append_assoc, List.cons.injEq, true_and] at h
      obtain ⟨hvw, hafter⟩ := hitems v List.mem_cons_self w _ _ (hitems' w List.mem_cons_self)
        (follows_closingText items rest) (follows_closingText items' rest') h
      obtain ⟨hrest, heq⟩ := ih (fun v hv => hitems v (List.mem_cons_of_mem _ hv))
        (fun w hw => hitems' w (List.mem_cons_of_mem _ hw)) hafter
      exact ⟨.cons hvw hrest, heq⟩

theorem unambiguous_itemsText {items items' : List Value} {rest rest' : List Char}
    (hitems : ∀ v ∈ items, v.HoldsNoFunction ∧ Unambiguous v)
    (hitems' : ∀ v ∈ items', v.HoldsNoFunction)
    (h : itemsText items ++ rest = itemsText items' ++ rest') :
    List.Forall₂ ShownAlike items items' ∧ rest = rest' := by
  cases items with
  | nil =>
    cases items' with
    | nil => exact ⟨.nil, (List.cons.inj h).2⟩
    | cons w items' =>
      rw [itemsText, itemsText, List.append_assoc] at h
      exact absurd h.symm (itemText_append_ne (hitems' w List.mem_cons_self) _ _)
  | cons v items =>
    cases items' with
    | nil =>
      rw [itemsText, itemsText, List.append_assoc] at h
      exact absurd h (itemText_append_ne (hitems v List.mem_cons_self).1 _ _)
    | cons w items' =>
      rw [itemsText, itemsText, List.append_assoc, List.append_assoc] at h
      obtain ⟨hvw, hafter⟩ := (hitems v List.mem_cons_self).2 w _ _ (hitems' w List.mem_cons_self)
        (follows_closingText items rest) (follows_closingText items' rest') h
      obtain ⟨hrest, heq⟩ := unambiguous_closingText
        (fun v hv => (hitems v (List.mem_cons_of_mem _ hv)).2)
        (fun w hw => hitems' w (List.mem_cons_of_mem _ hw)) hafter
      exact ⟨.cons hvw hrest, heq⟩

/-- By induction on the value, for the items of lists. -/
theorem unambiguous {v : Value} (hv : v.HoldsNoFunction) : Unambiguous v := by
  induction v using inductionOnItems with
  | step v ih =>
    intro w rest rest' hw hrest hrest' h
    rcases form_cases_of_append_eq hv hw h with
      ⟨s, t, rfl, rfl⟩ | ⟨id, items, id', items', rfl, rfl⟩ | ⟨hv, hw⟩
    · rw [itemText_string_append, itemText_string_append] at h
      obtain ⟨hst, heq⟩ := Quoted.eq_of_flatMap_escape_eq (List.cons.inj h).2
      exact ⟨String.toList_inj.1 hst ▸ .string s, heq⟩
    · rw [holdsNoFunction_list_iff] at hv hw
      rw [itemText_list_append, itemText_list_append] at h
      obtain ⟨hitems, heq⟩ := unambiguous_itemsText
        (fun v hmem => ⟨hv v hmem, ih id items rfl v hmem (hv v hmem)⟩) hw (List.cons.inj h).2
      exact ⟨.list hitems, heq⟩
    · obtain ⟨htext, heq⟩ := eq_of_append_eq (fun _ => hv.not_mem_delimiters)
        (fun _ => hw.not_mem_delimiters) hrest hrest' h
      rw [hv.itemText_eq, hw.itemText_eq] at htext
      exact ⟨hv.shownAlike_of_display_eq hw (String.toList_inj.1 htext), heq⟩

theorem closingText_eq {items items' : List Value}
    (hitems : ∀ v ∈ items, ∀ w, ShownAlike v w → itemText v = itemText w)
    (h : List.Forall₂ ShownAlike items items') : closingText items = closingText items' := by
  induction h with
  | nil => rfl
  | cons hvw _ ih =>
    rw [closingText, closingText, hitems _ List.mem_cons_self _ hvw,
      ih fun v hv => hitems v (List.mem_cons_of_mem _ hv)]

/-- Conversely, values that look alike have one text. -/
theorem ShownAlike.itemText_eq {v w : Value} (h : ShownAlike v w) : itemText v = itemText w := by
  induction v using inductionOnItems generalizing w with
  | step v ih =>
    cases h with
    | number htext => exact String.toList_inj.2 htext
    | string s => rfl
    | bool b => rfl
    | nil => rfl
    | @list id id' items items' hitems =>
      have ih := ih id items rfl
      rw [← List.append_nil (itemText (.list id items)), itemText_list_append,
        ← List.append_nil (itemText (.list id' items')), itemText_list_append]
      cases hitems with
      | nil => rfl
      | cons hvw hrest =>
        rw [itemsText, itemsText, ih _ List.mem_cons_self hvw,
          closingText_eq (fun v hv w => ih v (List.mem_cons_of_mem _ hv)) hrest]

end Value

/-! ## Lists with one text -/

section Lists

variable {id id' : ListId} {items items' : List Value}

/-- The text of a list says how long it and the lists in it are, and all that they hold but the
identities of lists and what numbers of one text differ in.  No string can make it look like another
list, whatever quotes, commas and brackets it contains. -/
theorem equal_list_texts_iff (h : (Value.list id items).HoldsNoFunction)
    (h' : (Value.list id' items').HoldsNoFunction) :
    (Value.list id items).display = (Value.list id' items').display ↔
      Value.ShownAlike (.list id items) (.list id' items') := by
  constructor
  · intro htext
    -- Lists stand in lists as they stand alone, so what comes after the two may be added.
    have hitem : Value.itemText (.list id items) ++ [','] =
        Value.itemText (.list id' items') ++ [','] :=
      congrArg (· ++ [',']) (String.toList_inj.2 htext)
    exact (Value.unambiguous h _ _ _ h' ⟨_, _, rfl, .inl rfl⟩ ⟨_, _, rfl, .inl rfl⟩ hitem).1
  · exact fun halike => String.toList_inj.1 halike.itemText_eq

theorem equal_list_texts_iff_nested :
    Value.HoldsNoFunction (.list 0 [.string "\", [", .list 1 [.number (0 / 0)]]) ∧
    Value.HoldsNoFunction (.list 2 [.string "\", [", .list 3 [.number (0 / 0)]]) ∧
    Value.ShownAlike (.list 0 [.string "\", [", .list 1 [.number (0 / 0)]])
      (.list 2 [.string "\", [", .list 3 [.number (0 / 0)]]) := by
  have h : Value.HoldsNoFunction (.list 0 [.string "\", [", .list 1 [.number (0 / 0)]]) := by
    simp
  have h' : Value.HoldsNoFunction (.list 2 [.string "\", [", .list 3 [.number (0 / 0)]]) := by
    simp
  exact ⟨h, h', (equal_list_texts_iff h h').1 (by simp only [Value.display, Value.displayItems])⟩

example : (Value.list 0 [.string "a", .string "b"]).display ≠
    (Value.list 1 [.string "a\", \"b"]).display := by
  decide +kernel

end Lists

end BindOnce

import BindOnce.Name

/-!
# The table of identifier texts

An `Interner` gives every distinct text one `Name` and gives the text back for the name.  It holds
the texts in the order in which they came, the empty text first, together with an index from texts
to names.

The two halves have to agree, and the type says so: the index knows a text under a name exactly
when the text stands at that name's position.  Whoever holds an `Interner` may therefore use
whichever half is convenient.

## What is here

* `Interner.intern` — the name of a text, entering the text if it is new.  It fails only for a new
  text when all positions are taken.
* `Interner.find?` and `Interner.text` — the two directions of looking up, without changes.
* `Interner.find?_eq_some_iff` — the halves agree; hence `Interner.text_of_find?`.
-/

set_option autoImplicit false
namespace BindOnce

/-- The ways in which entering a text can fail. -/
inductive InternError where
  /-- All positions are taken by the `count` texts already entered. -/
  | full (count : Nat)
  deriving DecidableEq, Repr

/-- The largest position, which doubles as the advertised limit. -/
def maxPosition : Nat := 4294967295

/-- What a developer reads about a failed entry. -/
def InternError.message : InternError → String
  | .full count => s!"interner exceeded capacity: {count} strings, max is {maxPosition}"

/-- The texts entered so far, and where each of them stands. -/
structure Interner where
  /-- The texts by position. -/
  texts : Array String
  /-- The name of each text. -/
  index : Std.TreeMap String Name
  /-- Both halves describe the same table. -/
  index_eq_some_iff : ∀ (s : String) (n : Name), index[s]? = some n ↔ texts[n.raw.toNat]? = some s
  /-- Every position fits in a name. -/
  size_le : texts.size ≤ UInt32.size

namespace Interner

/-- The table that holds the empty text only. -/
def new : Interner where
  texts := #[""]
  index := (∅ : Std.TreeMap String Name).insert "" Name.empty
  index_eq_some_iff s n := by
    rw [Std.TreeMap.getElem?_insert]
    have hn : n.raw.toNat = 0 ↔ Name.empty = n := by
      rw [Name.empty, Name.mk.injEq, ← UInt32.toNat_inj]
      exact eq_comm
    by_cases h0 : n.raw.toNat = 0
    · simp [h0, hn.1 h0]
    · have : Name.empty ≠ n := fun h => h0 (hn.2 h)
      rw [Array.getElem?_eq_none (Nat.pos_of_ne_zero h0)]
      simp [this]
  size_le := by decide

/-- How many texts the table holds, the empty one included. -/
def size (t : Interner) : Nat := t.texts.size

/-- Whether nothing but the empty text has been entered. -/
def isEmpty (t : Interner) : Bool := t.size == 1

/-- The text of a name; a name that this table never issued has the empty text. -/
def text (t : Interner) (n : Name) : String := t.texts[n.raw.toNat]?.getD ""

/-- The name of a text that has been entered. -/
def find? (t : Interner) (s : String) : Option Name := t.index[s]?

/-- The table with one more text, which it did not hold, at the first free position. -/
def push (t : Interner) (s : String) (new : t.index[s]? = none) (room : t.texts.size < UInt32.size) :
    Interner where
  texts := t.texts.push s
  index := t.index.insert s ⟨.ofNat t.texts.size⟩
  index_eq_some_iff u n := by
    have hsize : (UInt32.ofNat t.texts.size).toNat = t.texts.size := UInt32.toNat_ofNat_of_lt' room
    rw [Std.TreeMap.getElem?_insert, Array.getElem?_push]
    by_cases hu : s = u
    · subst hu
      have hold : t.texts[n.raw.toNat]? ≠ some s := fun h => by
        simp [(t.index_eq_some_iff s n).2 h] at new
      simp only [Std.compare_self, reduceIte, Option.some.injEq]
      constructor
      · rintro rfl
        simp [hsize]
      · intro h
        split at h
        · rename_i hn
          cases n
          simp_all [← UInt32.toNat_inj]
        · exact absurd h hold
    · have hcmp : compare s u ≠ .eq := fun h => hu (Std.LawfulEqOrd.eq_of_compare h)
      simp only [hcmp, reduceIte, t.index_eq_some_iff]
      split
      · rename_i hn
        simp [hn, hu]
      · rfl
  size_le := by rw [Array.size_push]; exact room

/-- The name of a text, and the table with that text in it.  A text that the table holds keeps its
name and changes nothing; a new one gets the first free position. -/
def intern (t : Interner) (s : String) : Except InternError (Name × Interner) :=
  match h : t.index[s]? with
  | some n => .ok (n, t)
  | none =>
    if room : t.texts.size < UInt32.size then
      .ok (⟨.ofNat t.texts.size⟩, t.push s h room)
    else
      .error (.full t.texts.size)

/-- The table as a developer sees it. -/
def inspect (t : Interner) : String := s!"StringInterner \x7b len: {t.size} \x7d"

/-! ## The two directions of looking up -/

theorem find?_eq_some_iff {t : Interner} {s : String} {n : Name} :
    t.find? s = some n ↔ t.texts[n.raw.toNat]? = some s :=
  t.index_eq_some_iff s n

theorem text_of_find? {t : Interner} {s : String} {n : Name} (h : t.find? s = some n) :
    t.text n = s := by
  rw [text, find?_eq_some_iff.1 h, Option.getD_some]

/-- Names are equal if their texts are. -/
theorem eq_iff_of_find? {t : Interner} {s u : String} {x y : Name} (hs : t.find? s = some x)
    (hu : t.find? u = some y) : x = y ↔ s = u := by
  constructor
  · rintro rfl
    rw [← text_of_find? hs, text_of_find? hu]
  · rintro rfl
    exact Option.some.inj (hs.symm.trans hu)

/-! ## Entering a text -/

section Intern

variable {t : Interner} {s : String}

theorem intern_of_find? {n : Name} (h : t.find? s = some n) : t.intern s = .ok (n, t) := by
  have hindex : t.index[s]? = some n := h
  rw [intern]
  split
  · next m hm =>
    rw [hindex] at hm
    cases hm
    rfl
  · next hnone =>
    rw [hindex] at hnone
    cases hnone

theorem intern_of_room (h : t.find? s = none) (room : t.size < UInt32.size) :
    t.intern s = .ok (⟨.ofNat t.size⟩, t.push s h room) := by
  have hindex : t.index[s]? = none := h
  rw [intern]
  split
  · next m hm =>
    rw [hindex] at hm
    cases hm
  · exact dif_pos room

theorem intern_of_full (h : t.find? s = none) (full : UInt32.size ≤ t.size) :
    t.intern s = .error (.full t.size) := by
  have hindex : t.index[s]? = none := h
  rw [intern]
  split
  · next m hm =>
    rw [hindex] at hm
    cases hm
  · exact dif_neg (Nat.not_lt.2 full)

end Intern

/-- After a text has been entered, its name leads back to it. -/
theorem text_of_intern {t u : Interner} {s : String} {n : Name} (h : t.intern s = .ok (n, u)) :
    u.text n = s := by
  unfold intern at h
  split at h
  · rename_i hs
    cases h
    exact text_of_find? hs
  · split at h
    · rename_i room
      cases h
      have hsize : (UInt32.ofNat t.texts.size).toNat = t.texts.size :=
        UInt32.toNat_ofNat_of_lt' room
      simp [text, push, hsize]
    · cases h

end Interner
end BindOnce

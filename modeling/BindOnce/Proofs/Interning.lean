import BindOnce.Interner
import Mathlib.Data.Fintype.EquivFin
import Mathlib.Data.List.Infix
import Mathlib.Data.List.Nodup

/-!
# Names over a history of requests

A table starts with the empty text and is asked for the names of texts, one after the other, by users
who can do without a name and by users who cannot.  What it holds after that can be said without the
table: the texts that were asked for, each at the place where it came first, the empty one before all
others, until there is no room left.  The name of a text is its place there.

Texts are only ever added at the end, so a name that was given once stands for its text from then on,
whatever comes later.  Since the table also holds no text twice, two answers are the same name exactly
if they were given for the same text.

## What is here

* `Interner.Request`, `Interner.Answer`, `Interner.serve` — one request.
* `Interner.after` — the table after a history of requests; `Interner.Named` — what was answered.
* `Interner.texts_after` — the texts that it holds.
* `Interner.prefix_serve`, `Interner.prefix_after` — it only grows.
* `names_stand_for_texts` — names and texts over any history.
-/

set_option autoImplicit false
namespace BindOnce
namespace Interner

/-! ## Requests -/

/-- A request for the name of a text. -/
inductive Request where
  /-- The user can do without a name, and is told if there is no room. -/
  | attempt (text : String)
  /-- The user cannot do without one, and is stopped if there is no room. -/
  | demand (text : String)
  deriving DecidableEq, Repr

/-- The text whose name is asked for. -/
def Request.text : Request → String
  | .attempt text | .demand text => text

/-- What a request comes to. -/
inductive Answer where
  | name (n : Name)
  | refused (e : InternError)
  /-- The user is stopped with this message. -/
  | stopped (message : String)
  deriving DecidableEq

/-- What a request comes to for which there is no room. -/
def Request.denied : Request → InternError → Answer
  | .attempt _, e => .refused e
  | .demand _, e => .stopped e.message

/-- The answer to a request, and the table after it. -/
def serve (t : Interner) (r : Request) : Answer × Interner :=
  match t.intern r.text with
  | .ok (n, u) => (.name n, u)
  | .error e => (r.denied e, t)

/-- The table after some requests, which were made one after the other of a new table. -/
def after (history : List Request) : Interner :=
  history.foldl (fun t r => (t.serve r).2) .new

/-- The request number `i` of the history was for the text `s` and got the name `n`. -/
def Named (history : List Request) (i : Nat) (s : String) (n : Name) : Prop :=
  ∃ r, history[i]? = some r ∧ r.text = s ∧ ((after (history.take i)).serve r).1 = .name n

/-- The texts that are to be held after some requests: each where it came first, the empty one before
all others, and no more than there are positions. -/
def heldAfter (history : List Request) : List String :=
  ("" :: history.map Request.text).eraseDups.take UInt32.size

@[simp]
theorem after_nil : after [] = new := rfl

theorem after_concat (history : List Request) (r : Request) :
    after (history ++ [r]) = ((after history).serve r).2 := by
  rw [after, List.foldl_concat, ← after]

/-! ## Distinct members of a list -/

/-- The first so many of the distinct members of a list with one more at its end. -/
theorem take_eraseDups_concat (l : List String) (x : String) (k : Nat) :
    (l ++ [x]).eraseDups.take k =
      if x ∈ l.eraseDups.take k ∨ k ≤ (l.eraseDups.take k).length then l.eraseDups.take k
      else l.eraseDups.take k ++ [x] := by
  by_cases hx : x ∈ l
  · have hsame : (l ++ [x]).eraseDups = l.eraseDups := by
      simp [List.eraseDups_append, List.removeAll, hx]
    have hheld : x ∈ l.eraseDups.take k ∨ k ≤ (l.eraseDups.take k).length := by
      rcases Nat.lt_or_ge l.eraseDups.length k with hlt | hge
      · rw [List.take_of_length_le hlt.le]
        exact .inl (List.mem_eraseDups.2 hx)
      · exact .inr (by rw [List.length_take_of_le hge])
    rw [hsame, if_pos hheld]
  · have hmore : (l ++ [x]).eraseDups = l.eraseDups ++ [x] := by
      simp [List.eraseDups_append, List.removeAll, hx, List.eraseDups_cons]
    have hnew : x ∉ l.eraseDups.take k := fun h => hx (List.mem_eraseDups.1 (List.mem_of_mem_take h))
    rw [hmore]
    -- a new member counts only if fewer than `k` came before it
    rcases Nat.lt_or_ge l.eraseDups.length k with hlt | hge
    · rw [List.take_of_length_le hlt.le] at hnew ⊢
      rw [if_neg (not_or.2 ⟨hnew, Nat.not_le.2 hlt⟩), List.take_of_length_le]
      rw [List.length_append, List.length_singleton]
      exact hlt
    · rw [List.take_append_of_le_length hge, if_pos (.inr (by rw [List.length_take_of_le hge]))]

/-! ## Where texts stand -/

section Places

variable {t u : Interner} {s : String} {n : Name} {i : Nat}

theorem find?_of_getElem? (h : t.texts[i]? = some s) : t.find? s = some ⟨.ofNat i⟩ := by
  obtain ⟨hlt, -⟩ := Array.getElem?_eq_some_iff.1 h
  have hsize : (UInt32.ofNat i).toNat = i := UInt32.toNat_ofNat_of_lt' (hlt.trans_le t.size_le)
  exact find?_eq_some_iff.2 (by rwa [hsize])

theorem find?_eq_none_iff : t.find? s = none ↔ s ∉ t.texts.toList := by
  rw [Array.mem_toList_iff, Array.mem_iff_getElem?]
  constructor
  · rintro h ⟨i, hi⟩
    rw [find?_of_getElem? hi] at h
    cases h
  · intro h
    rw [Option.eq_none_iff_forall_ne_some]
    intro n hn
    exact h ⟨_, find?_eq_some_iff.1 hn⟩

/-- No text stands at two places. -/
theorem nodup_texts (t : Interner) : t.texts.toList.Nodup := by
  rw [List.nodup_iff_getElem?_ne_getElem?]
  intro i j hij hj heq
  rw [Array.length_toList] at hj
  rw [Array.getElem?_toList, Array.getElem?_toList] at heq
  have hget := Array.getElem?_eq_getElem hj
  have hsame := (find?_of_getElem? (heq.trans hget)).symm.trans (find?_of_getElem? hget)
  rw [Option.some.injEq, Name.mk.injEq, ← UInt32.toNat_inj,
    UInt32.toNat_ofNat_of_lt' ((hij.trans hj).trans_le t.size_le),
    UInt32.toNat_ofNat_of_lt' (hj.trans_le t.size_le)] at hsame
  exact hij.ne hsame

theorem text_of_size_le (h : t.size ≤ n.raw.toNat) : t.text n = "" := by
  rw [text, Array.getElem?_eq_none h, Option.getD_none]

/-- A text keeps its name when more texts follow. -/
theorem find?_of_prefix (hbegin : t.texts.toList <+: u.texts.toList) (h : t.find? s = some n) :
    u.find? s = some n := by
  obtain ⟨later, hlater⟩ := hbegin
  rw [find?_eq_some_iff, ← Array.getElem?_toList] at h ⊢
  rw [← hlater, List.getElem?_append_left (List.getElem?_eq_some_iff.1 h).1, h]

end Places

/-! ## One request -/

section Serve

variable {t : Interner} {r : Request} {n : Name}

theorem serve_of_find? (h : t.find? r.text = some n) : t.serve r = (.name n, t) := by
  rw [serve, intern_of_find? h]

theorem serve_of_room (h : t.find? r.text = none) (room : t.size < UInt32.size) :
    ∃ n u, t.serve r = (.name n, u) ∧ n.raw.toNat = t.size ∧ u.texts = t.texts.push r.text := by
  refine ⟨⟨.ofNat t.size⟩, t.push r.text h room, ?_, UInt32.toNat_ofNat_of_lt' room, rfl⟩
  rw [serve, intern_of_room h room]

theorem serve_of_full (h : t.find? r.text = none) (full : t.size = UInt32.size) :
    t.serve r = (r.denied (.full UInt32.size), t) := by
  rw [serve, intern_of_full h full.ge, full]

/-- A request is for a text that the table holds, or for a new one while there is room, or for a new
one when there is none. -/
theorem serve_cases (t : Interner) (r : Request) :
    (∃ n, t.find? r.text = some n ∧ t.serve r = (.name n, t)) ∨
    (t.find? r.text = none ∧ t.size < UInt32.size ∧ ∃ n u, t.serve r = (.name n, u) ∧
      n.raw.toNat = t.size ∧ u.texts = t.texts.push r.text) ∨
    (t.find? r.text = none ∧ t.size = UInt32.size ∧
      t.serve r = (r.denied (.full UInt32.size), t)) := by
  cases hfind : t.find? r.text with
  | some n => exact .inl ⟨n, rfl, serve_of_find? hfind⟩
  | none =>
    rcases t.size_le.lt_or_eq with room | full
    · exact .inr (.inl ⟨rfl, room, serve_of_room hfind room⟩)
    · exact .inr (.inr ⟨rfl, full, serve_of_full hfind full⟩)

/-- A name is given for the text that was asked for. -/
theorem find?_of_serve (h : (t.serve r).1 = .name n) : (t.serve r).2.find? r.text = some n := by
  obtain ⟨m, hfind, hserve⟩ | ⟨-, -, m, u, hserve, hm, hu⟩ | ⟨-, -, hserve⟩ := serve_cases t r
  · rw [hserve] at h ⊢
    cases h
    exact hfind
  · rw [hserve] at h ⊢
    cases h
    rw [find?_eq_some_iff, hu, hm]
    exact Array.getElem?_push_size
  · rw [hserve] at h
    cases r <;> cases h

theorem prefix_serve (t : Interner) (r : Request) : t.texts.toList <+: (t.serve r).2.texts.toList := by
  obtain ⟨n, -, hserve⟩ | ⟨-, -, n, u, hserve, -, hu⟩ | ⟨-, -, hserve⟩ := serve_cases t r
  · rw [hserve]
  · rw [hserve, hu, Array.toList_push]
    exact List.prefix_append _ _
  · rw [hserve]

end Serve

/-! ## Histories -/

section History

variable {history : List Request} {s s' : String} {n n' : Name} {i j : Nat}

theorem prefix_after (history later : List Request) :
    (after history).texts.toList <+: (after (history ++ later)).texts.toList := by
  induction later using List.reverseRecOn with
  | nil => rw [List.append_nil]
  | append_singleton later r ih =>
    rw [← List.append_assoc, after_concat]
    exact ih.trans (prefix_serve _ r)

/-- A name that was given stands for its text in the table from then on. -/
theorem Named.find?_eq (h : Named history i s n) (hij : i < j) :
    (after (history.take j)).find? s = some n := by
  obtain ⟨r, hr, rfl, hname⟩ := h
  -- the table that answered holds the text, and it is a beginning of all later ones
  have hthen : (after (history.take (i + 1))).find? r.text = some n := by
    rw [List.take_add_one, hr, Option.toList_some, after_concat]
    exact find?_of_serve hname
  have hsplit : history.take (i + 1) ++ (history.take j).drop (i + 1) = history.take j := by
    conv_rhs => rw [← List.take_append_drop (i + 1) (history.take j), List.take_take,
      Nat.min_eq_left hij]
  rw [← hsplit]
  exact find?_of_prefix (prefix_after _ _) hthen

theorem Named.eq_iff (h : Named history i s n) (h' : Named history j s' n') :
    n = n' ↔ s = s' :=
  eq_iff_of_find? (h.find?_eq (Nat.lt_succ_of_le (Nat.le_max_left i j)))
    (h'.find?_eq (Nat.lt_succ_of_le (Nat.le_max_right i j)))

/-- A table holds the distinct texts that it was asked for, as far as there is room for them. -/
theorem texts_after (history : List Request) :
    (after history).texts.toList = heldAfter history := by
  induction history using List.reverseRecOn with
  | nil => rfl
  | append_singleton history r ih =>
    have hsize : (after history).size = (heldAfter history).length := by
      rw [← ih, Array.length_toList, size]
    have hmem : (after history).find? r.text = none ↔ r.text ∉ heldAfter history := by
      rw [find?_eq_none_iff, ih]
    rw [heldAfter, List.map_append, List.map_singleton, ← List.cons_append, take_eraseDups_concat,
      ← heldAfter, ← hsize, after_concat]
    obtain ⟨n, hfind, hserve⟩ | ⟨hfind, room, n, u, hserve, -, hu⟩ | ⟨-, full, hserve⟩ :=
      serve_cases (after history) r
    · have hheld : r.text ∈ heldAfter history := by
        by_contra h
        rw [hmem.2 h] at hfind
        cases hfind
      rw [if_pos (.inl hheld), hserve, ih]
    · rw [if_neg (not_or.2 ⟨hmem.1 hfind, Nat.not_le.2 room⟩), hserve, hu, Array.toList_push, ih]
    · rw [if_pos (.inr full.ge), hserve, ih]

theorem text_after_zero (history : List Request) : (after history).texts[0]? = some "" := by
  obtain ⟨later, hlater⟩ := prefix_after [] history
  rw [← Array.getElem?_toList, ← List.nil_append history, ← hlater]
  rfl

/-- However many texts a table holds, there is another one. -/
theorem exists_find?_eq_none (t : Interner) : ∃ s, t.find? s = none := by
  obtain ⟨s, hs⟩ := Infinite.exists_notMem_finset t.texts.toList.toFinset
  exact ⟨s, find?_eq_none_iff.2 (by simpa using hs)⟩

/-- Tables of all sizes come about, the full one included. -/
theorem exists_size_after {k : Nat} (hpos : 0 < k) (hle : k ≤ UInt32.size) :
    ∃ history, (after history).size = k := by
  induction k, hpos using Nat.le_induction with
  | base => exact ⟨[], rfl⟩
  | succ k _ ih =>
    obtain ⟨history, rfl⟩ := ih (by omega)
    obtain ⟨s, hs⟩ := exists_find?_eq_none (after history)
    obtain ⟨n, u, hserve, -, hu⟩ := serve_of_room (r := .attempt s) hs hle
    refine ⟨history ++ [.attempt s], ?_⟩
    rw [after_concat, hserve, size, size, hu, Array.size_push]

end History

/-- **Names stand for texts.**  After any history of requests the table holds every text that was asked
for at one place, the distinct ones in the order in which they came, the empty one first; to ask for
the name of a text and to ask for the text of a name undo each other, and what is no name has the empty
text.  A request for a text that is held changes nothing; a new text gets the first free place, or is
refused when all `2 ^ 32` places are taken, which also changes nothing.  Two answers of the history are
the same name exactly if they were given for the same text, and from the answer on the table gives the
text back for the name. -/
theorem names_stand_for_texts (history : List Request) :
    ((after history).texts.toList = heldAfter history ∧
      (after history).texts.toList.Nodup ∧
      (after history).texts[0]? = some "" ∧
      (after history).size ≤ UInt32.size ∧
      (∀ s n, (after history).find? s = some n ↔ (after history).texts[n.raw.toNat]? = some s) ∧
      ∀ n : Name, (after history).size ≤ n.raw.toNat → (after history).text n = "") ∧
    (∀ r : Request,
      (∀ n, (after history).find? r.text = some n →
        (after history).serve r = (.name n, after history)) ∧
      ((after history).find? r.text = none → (after history).size < UInt32.size →
        ∃ n t, (after history).serve r = (.name n, t) ∧ n.raw.toNat = (after history).size ∧
          t.size = (after history).size + 1 ∧ t.texts = (after history).texts.push r.text) ∧
      ((after history).find? r.text = none → (after history).size = UInt32.size →
        (after history).serve r = (r.denied (.full UInt32.size), after history))) ∧
    (∀ i j s s' n n', Named history i s n → Named history j s' n' → (n = n' ↔ s = s')) ∧
    (∀ i s n, Named history i s n → ∀ j, i < j → (after (history.take j)).text n = s) ∧
    (∀ k, 0 < k → k ≤ UInt32.size → ∃ other, (after other).size = k) := by
  refine ⟨⟨texts_after history, nodup_texts _, text_after_zero history, size_le _,
    fun s n => find?_eq_some_iff, fun n => text_of_size_le⟩,
    fun r => ⟨fun n => serve_of_find?, fun hnew room => ?_, serve_of_full⟩,
    fun i j s s' n n' h h' => h.eq_iff h', fun i s n h j hij => ?_, fun k => exists_size_after⟩
  · obtain ⟨n, t, hserve, hn, ht⟩ := serve_of_room hnew room
    refine ⟨n, t, hserve, hn, ?_, ht⟩
    rw [size, ht, Array.size_push, ← size]
  · exact text_of_find? (h.find?_eq hij)

end Interner
end BindOnce

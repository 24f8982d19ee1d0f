import BindOnce.Proofs.CallLog

/-!
# Operators on lists

`map`, `filter` and `reduce` call a function for the items of a list, in their order.  The function
may do whatever functions do, and what it does in one call is there for the next; but it cannot
change what the operator works on.  Every call finds the environment and the active calls in which
the operator has been applied, so that the calls differ in their arguments and in what has been
printed and numbered meanwhile.

`map` and `filter` make the same calls.  They differ in what they make of the results, and the
results are no truth values, so `filter` looks for the word for truth.

## What is here

* `Callback.accepted_positions` — what `filter` keeps, by position.
* `map_and_filter_make_the_same_calls` — the calls of `map` and `filter`, and what comes of them.
* `reduce_folds_from_the_left` — the calls of `reduce`, and what comes of them.
-/

set_option autoImplicit false
namespace BindOnce

/-! ## What `filter` keeps -/

theorem Value.isTrueWord_iff {v : Value} : v.isTrueWord = true ↔ v = .string trueWord := by
  cases v <;> simp [isTrueWord, string?]

/-- The accepted items are those in the positions where the word for truth is. -/
theorem Callback.accepted_positions : ∀ {items verdicts : List Value},
    verdicts.length = items.length → ∃ positions : List Nat, positions.Pairwise (· < ·) ∧
      (∀ k, k ∈ positions ↔ verdicts[k]? = some (.string trueWord)) ∧
      (accepted items verdicts).map some = positions.map (items[·]?)
  | [], [], _ => ⟨[], .nil, by simp, rfl⟩
  | item :: items, verdict :: verdicts, h => by
    obtain ⟨positions, hordered, hmem, hkept⟩ := accepted_positions (Nat.succ.inj h)
    have hshift : (positions.map (· + 1)).Pairwise (· < ·) :=
      hordered.map _ fun _ _ => Nat.succ_lt_succ
    have hkept' : (accepted items verdicts).map some =
        (positions.map (· + 1)).map ((item :: items)[·]?) := by
      rw [List.map_map]
      exact hkept
    rw [accepted_cons]
    by_cases hverdict : verdict.isTrueWord
    · refine ⟨0 :: positions.map (· + 1), List.pairwise_cons.2 ⟨by simp, hshift⟩, ?_, ?_⟩
      · rintro (_ | k)
        · simp [Value.isTrueWord_iff.1 hverdict]
        · simpa using hmem k
      · rw [if_pos hverdict, List.map_cons, hkept']
        rfl
    · refine ⟨positions.map (· + 1), hshift, ?_, ?_⟩
      · rintro (_ | k)
        · simpa using fun hv => hverdict (Value.isTrueWord_iff.2 hv)
        · simpa using hmem k
      · rw [if_neg hverdict, hkept']

/-! ## `map` and `filter` -/

/-- **`map` and `filter` make the same calls.**  They call the function with every item, its
position and the list, in order and one after the other; every call finds the environment and the
active calls that the operator found.  When a call fails both fail with that failure and make no
further calls.  Otherwise `map` makes a list of the results, which has a result for every item and
no truth value, and `filter` makes a list of the items in the positions where the result is the word
for truth.  Both leave the environment and the active calls as they were. -/
theorem map_and_filter_make_the_same_calls (interner : Interner) (line : Line) (id : ListId)
    (items : List Value) (f : Func) (s : State) :
    let list : Value := .list id items
    let mapped := BinaryOp.map.evaluate (callNow interner) line list (.function f) s
    let filtered := BinaryOp.filter.evaluate (callNow interner) line list (.function f) s
    ∃ (calls : List MadeCall) (r : Except Failure (List Value)) (t : State),
      (BinaryOp.map.plan line list (.function f)).calls interner s = calls ∧
      (BinaryOp.filter.plan line list (.function f)).calls interner s = calls ∧
      CallsInTurn interner s calls r t ∧
      (∀ (k : Nat) (c : MadeCall), calls[k]? = some c → c.func = f ∧ c.line = line ∧
        (∃ item, items[k]? = some item ∧ c.args = [item, .ofIndex k, list]) ∧
        c.before.env = s.env ∧ c.before.stack = s.stack) ∧
      (∀ e, r = .error e → mapped = (.error e, t) ∧ filtered = (.error e, t)) ∧
      (∀ vs, r = .ok vs → calls.length = items.length ∧ calls.map (·.result) = vs.map .ok ∧
        (∀ v ∈ vs, v.kind ≠ .boolean) ∧
        mapped = (.ok (.list t.lists.next vs), { t with lists := ⟨t.lists.next + 1⟩ }) ∧
        ∃ (kept : List Value) (positions : List Nat),
          filtered = (.ok (.list t.lists.next kept), { t with lists := ⟨t.lists.next + 1⟩ }) ∧
          positions.Pairwise (· < ·) ∧
          (∀ k, k ∈ positions ↔ vs[k]? = some (.string "tuod")) ∧
          kept.map some = positions.map (items[·]?)) ∧
      mapped.2.env = s.env ∧ mapped.2.stack = s.stack ∧
      filtered.2.env = s.env ∧ filtered.2.stack = s.stack := by
  intro list mapped filtered
  obtain ⟨calls, r, t, hcalls, hargs, hlength, hnext⟩ :=
    Plan.goesOn_enterEach interner f line list items 0 s
  have hmap := hnext fun vs => .makeList vs .ok
  have hfilter := hnext fun vs => .makeList (Callback.accepted items vs) .ok
  have hmapped : mapped = _ := (congrFun (BinaryOp.runWith_plan ..) s).symm.trans hmap.2
  have hfiltered : filtered = _ :=
    (congrFun (BinaryOp.runWith_plan ..) s).symm.trans hfilter.2
  obtain ⟨hbefore, henv, hstack⟩ := hcalls.frame
  rw [hmapped, hfiltered]
  refine ⟨calls, r, t, hmap.calls_eq_of_silent fun _ => rfl,
    hfilter.calls_eq_of_silent fun _ => rfl, hcalls, fun k c hc => ?_, ?_⟩
  · obtain ⟨hf, hline, hargs⟩ := hargs k c hc
    rw [Nat.zero_add k] at hargs
    exact ⟨hf, hline, hargs, hbefore c (List.mem_of_getElem? hc)⟩
  cases r with
  | error e =>
    refine ⟨?_, nofun, henv, hstack, henv, hstack⟩
    rintro _ ⟨⟩
    exact ⟨rfl, rfl⟩
  | ok vs =>
    refine ⟨nofun, ?_, henv, hstack, henv, hstack⟩
    rintro _ ⟨⟩
    obtain ⟨positions, hpositions⟩ :=
      Callback.accepted_positions (hcalls.length_eq.trans (hlength vs rfl))
    exact ⟨hlength vs rfl, hcalls.results_eq vs rfl, hcalls.kind_ne_boolean vs rfl, rfl, _,
      positions, rfl, hpositions⟩

/-- With a function that hands its argument back, truth comes back as the word. -/
example :
    let f : Func := ⟨⟨0, ⟨⟨1⟩, 1⟩, [⟨⟨2⟩, 1⟩], [.return (.variable ⟨⟨2⟩, 1⟩)]⟩, "f"⟩
    let list : Value := .list 7 [.bool true, .nil, .string "tuod"]
    let s : State := ⟨.empty, { maxDepth := 1 }, .buffer "", {}⟩
    (BinaryOp.map.evaluate (callNow .new) 1 list (.function f) s).1 =
        .ok (.list 0 [.string "tuod", .string "waray", .string "tuod"]) ∧
      (BinaryOp.filter.evaluate (callNow .new) 1 list (.function f) s).1 =
        .ok (.list 0 [.bool true, .string "tuod"]) := ⟨rfl, rfl⟩

/-! ## `reduce` -/

/-- What `reduce` does, as a loop over positions. -/
theorem Callback.reduce_eq_foldlM (interner : Interner) (line : Line) (id : ListId) (first : Value)
    (rest : List Value) (f : Func) :
    reduce (callNow interner) line (.list id (first :: rest)) (.function f) =
      (List.range' 1 rest.length).foldlM (fun acc k => f.run interner
        ([acc, (first :: rest).getD k .nil, .ofIndex k, .list id (first :: rest)].map .value) line)
        first := by
  have hitems : rest.zipIdx 1 =
      (List.range' 1 rest.length).map fun k => ((first :: rest).getD k .nil, k) := by
    refine List.ext_getElem (by simp) fun k hk _ => ?_
    rw [List.length_zipIdx] at hk
    simp [Nat.add_comm 1 k, hk]
  simp only [reduce, hitems, List.foldlM_map, Func.run_values]

/-- **`reduce` folds from the left.**  Of a list without items it fails, and calls nothing.  Else it
starts with the first item and calls the function with what has been combined so far, the next item,
its position and the list itself, in order and one after the other, for every item but the first;
every call finds the environment and the active calls that the operator found.  When a call fails
`reduce` fails with that failure and makes no further calls.  Otherwise the last result comes out,
which is no truth value, or the first item as it is, if it is the only one.  The environment and the
active calls are afterwards as they were. -/
theorem reduce_folds_from_the_left (interner : Interner) (line : Line) (id : ListId)
    (items : List Value) (f : Func) (s : State) :
    let list : Value := .list id items
    let reduced := BinaryOp.reduce.evaluate (callNow interner) line list (.function f) s
    let calls := (BinaryOp.reduce.plan line list (.function f)).calls interner s
    (items = [] → reduced = (.error { cause := .emptyReduce }, s) ∧ calls = []) ∧
    (∀ first rest, items = first :: rest →
      reduced = (List.range' 1 rest.length).foldlM (fun acc k =>
        f.run interner ([acc, items.getD k .nil, .ofIndex k, list].map .value) line) first s ∧
      (rest = [] → reduced = (.ok first, s) ∧ calls = []) ∧
      (rest ≠ [] → ∀ v, reduced.1 = .ok v → v.kind ≠ .boolean) ∧
      ∃ (r : Except Failure (List Value)) (t : State),
        CallsInTurn interner s calls r t ∧
        (∀ (k : Nat) (c : MadeCall), calls[k]? = some c → c.func = f ∧ c.line = line ∧
          (∃ acc item, MadeCall.combinedBefore first calls k = some acc ∧
            items[k + 1]? = some item ∧ c.args = [acc, item, .ofIndex (k + 1), list]) ∧
          c.before.env = s.env ∧ c.before.stack = s.stack) ∧
        (∀ e, r = .error e → reduced = (.error e, t)) ∧
        (∀ vs, r = .ok vs → calls.length = rest.length ∧ calls.map (·.result) = vs.map .ok ∧
          reduced = (.ok (vs.getLast?.getD first), t))) ∧
    reduced.2.env = s.env ∧ reduced.2.stack = s.stack := by
  intro list reduced calls
  cases items with
  | nil => exact ⟨fun _ => ⟨rfl, rfl⟩, nofun, rfl, rfl⟩
  | cons first rest =>
    obtain ⟨made, r, t, hmade, hargs, hlength, hfold⟩ :=
      Plan.goesOn_enterFold interner f line list first rest 1 s
    have hreduced : reduced = _ := (congrFun (BinaryOp.runWith_plan ..) s).symm.trans hfold.2
    have hlog : calls = made := hfold.calls_eq_of_silent fun _ => rfl
    obtain ⟨hbefore, hframe⟩ := hmade.frame
    have hlast : reduced.2 = t := by
      rw [hreduced]
      cases r <;> rfl
    have hbooleans : rest ≠ [] → ∀ v, reduced.1 = .ok v → v.kind ≠ .boolean := by
      intro hrest v hv
      rw [hreduced] at hv
      cases r with
      | error e => cases hv
      | ok vs =>
        cases hv
        rw [← List.length_pos_iff, ← hlength vs rfl] at hrest
        exact hmade.last_kind_ne_boolean hrest first
    rw [hlast, hlog]
    refine ⟨nofun, ?_, hframe⟩
    rintro _ _ ⟨⟩
    refine ⟨congrFun (Callback.reduce_eq_foldlM ..) s, ?_, hbooleans, r, t, hmade,
      fun k c hc => ?_, ?_, fun vs hr => ?_⟩
    · rintro rfl
      exact ⟨rfl, hlog.symm⟩
    · obtain ⟨hf, hline, acc, item, hacc, hitem, hargs⟩ := hargs k c hc
      rw [Nat.add_comm 1 k] at hargs
      exact ⟨hf, hline, ⟨acc, item, hacc, hitem, hargs⟩, hbefore c (List.mem_of_getElem? hc)⟩
    · rintro e rfl
      exact hreduced
    · refine ⟨hlength vs hr, hmade.results_eq vs hr, ?_⟩
      rw [hreduced, hr]
      rfl

/-- With a function that hands its first argument back, a single item comes out as it is, and from
two of them the first comes out as a function returns it. -/
example :
    let f : Func := ⟨⟨0, ⟨⟨1⟩, 1⟩, [⟨⟨2⟩, 1⟩], [.return (.variable ⟨⟨2⟩, 1⟩)]⟩, "f"⟩
    let s : State := ⟨.empty, { maxDepth := 1 }, .buffer "", {}⟩
    (BinaryOp.reduce.evaluate (callNow .new) 1 (.list 7 [.bool true]) (.function f) s).1 =
        .ok (.bool true) ∧
      (BinaryOp.reduce.evaluate (callNow .new) 1 (.list 7 [.bool true, .nil]) (.function f) s).1 =
        .ok (.string "tuod") := ⟨rfl, rfl⟩

end BindOnce

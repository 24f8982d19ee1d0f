import BindOnce.Proofs.Matching

/-!
# What a value holds

A list holds its items and whatever these hold.  Which names a value may use, and which lists can be
got out of it, are questions about all that it holds.

## What is here

* `Value.Holds` — one value is another or sits in it, in lists however deep.
* `Value.inductionOn` — a property of values that passes from items to lists;
  `Value.inductionOnItems` — the same in one step.
* `Value.Matches.of_holds`, `Value.Matches.holds` — a value matches itself just if all that it holds
  does.
-/

set_option autoImplicit false
namespace BindOnce

/-- The first value is the second, or a list in which the second sits, however deep. -/
inductive Value.Holds : Value → Value → Prop where
  | self {v : Value} : Holds v v
  | item {id : ListId} {items : List Value} {v w : Value} :
    v ∈ items → Holds v w → Holds (.list id items) w

/-- What passes from the items of lists to the lists, and holds of all else, holds of all values. -/
@[elab_as_elim]
theorem Value.inductionOn {P : Value → Prop} (v : Value) (number : ∀ n, P (.number n))
    (string : ∀ s, P (.string s)) (bool : ∀ b, P (.bool b)) (nil : P .nil)
    (list : ∀ id items, (∀ v ∈ items, P v) → P (.list id items))
    (function : ∀ f, P (.function f)) : P v :=
  @Value.rec P (fun vs => ∀ v ∈ vs, P v) number string bool nil list function
    (fun _ h => nomatch h) (fun _ _ hv hvs => List.forall_mem_cons.2 ⟨hv, hvs⟩) v

/-- What passes from the items of a value to the value, if it has items, holds of all values. -/
@[elab_as_elim]
theorem Value.inductionOnItems {P : Value → Prop} (v : Value)
    (step : ∀ v, (∀ id items, v = .list id items → ∀ w ∈ items, P w) → P v) : P v := by
  induction v using Value.inductionOn with
  | list id items ih =>
    refine step _ fun id' items' h => ?_
    cases h
    exact ih
  | number n => exact step _ nofun
  | string s => exact step _ nofun
  | bool b => exact step _ nofun
  | nil => exact step _ nofun
  | function f => exact step _ nofun

namespace Value

theorem Holds.trans {u v w : Value} (h : u.Holds v) (h' : v.Holds w) : u.Holds w := by
  induction h with
  | self => exact h'
  | item hmem _ ih => exact .item hmem (ih h')

section Matches

variable {M : Matching}

/-- A value matches itself if the lists and the functions that it holds do. -/
theorem Matches.of_holds {v : Value} (hlist : ∀ id items, v.Holds (.list id items) → M.list id id)
    (hfunc : ∀ f, v.Holds (.function f) → M.func f f) : Value.Matches M v v := by
  induction v using Value.inductionOn with
  | number n => exact .number n
  | string s => exact .string s
  | bool b => exact .bool b
  | nil => exact .nil
  | list id items ih =>
    refine .list (hlist id items .self) (List.forall₂_same.2 fun v hv => ?_)
    exact ih v hv (fun i vs h => hlist i vs (.item hv h)) fun f h => hfunc f (.item hv h)
  | function f => exact .function (hfunc f .self)

/-- What a value that matches itself holds matches itself. -/
theorem Matches.holds {v w : Value} (hv : Value.Matches M v v) (h : v.Holds w) :
    Value.Matches M w w := by
  induction h with
  | self => exact hv
  | item hmem _ ih =>
    cases hv with
    | list _ hitems => exact ih (List.forall₂_same.1 hitems _ hmem)

end Matches

end Value
end BindOnce

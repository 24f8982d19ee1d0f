import BindOnce.Env
import Mathlib.Data.Set.Card

/-!
# Environments as independent maps

A run works with a family of environments: it starts with an empty one, makes bindings, and lays
parameters over an environment to get another one for a call.  What the environments of the family
answer can be said with partial functions from names to values alone.  A binding extends the function
of the one environment that it is made in, if the name has no value there; an overlay adds a function
to the family, which has the values of the parameters and below them those of its base.

The step from environments to partial functions is `Env.lookup`.  It respects both operations, so it
respects every sequence of them, whichever members of the family they are about.  That the members do
not influence each other is a property of partial functions, and passes to the environments.

## What is here

* `MapOps` — binding and overlaying, for whatever plays the part of environments; `Env.mapOps`,
  `Bindings.mapOps`.
* `FamilyOp`, `MapOps.perform`, `MapOps.performAll` — operations on a family.
* `MapOps.Respects` — a map that respects the operations; `Env.respects_lookup`.
* `Env.Agrees` — an environment answers as a partial function says.
* `environments_are_independent_maps` — all families that can come about.
-/

set_option autoImplicit false
namespace BindOnce

/-! ## Operations on a family -/

/-- The two operations, for whatever plays the part of environments. -/
structure MapOps (α : Type) where
  /-- One more binding, or nothing if the name has a value. -/
  bind? : α → Name → Value → Option α
  /-- The bindings laid over what is there. -/
  overlay : α → List (Name × Value) → α

/-- An operation on the member of a family with the number `i`. -/
inductive FamilyOp where
  | bind (i : Nat) (x : Name) (v : Value)
  /-- The new member comes last. -/
  | overlay (i : Nat) (params : List (Name × Value))

/-- What an operation on a family comes to. -/
inductive FamilyAnswer where
  | bound
  | alreadyBound
  /-- There is a new member, with this number. -/
  | created (i : Nat)
  /-- There is no member with the number of the operation. -/
  | missing
  deriving DecidableEq, Repr

namespace MapOps

variable {α β : Type}

/-- The answer to an operation, and the family after it. -/
def perform (ops : MapOps α) (family : List α) : FamilyOp → FamilyAnswer × List α
  | .bind i x v =>
    match family[i]? with
    | none => (.missing, family)
    | some m =>
      match ops.bind? m x v with
      | none => (.alreadyBound, family)
      | some m' => (.bound, family.set i m')
  | .overlay i params =>
    match family[i]? with
    | none => (.missing, family)
    | some m => (.created family.length, family ++ [ops.overlay m params])

/-- The answers to some operations, one after the other, and the family after them. -/
def performAll (ops : MapOps α) (family : List α) : List FamilyOp → List FamilyAnswer × List α
  | [] => ([], family)
  | op :: rest =>
    ((ops.perform family op).1 :: (ops.performAll (ops.perform family op).2 rest).1,
      (ops.performAll (ops.perform family op).2 rest).2)

theorem performAll_append (ops : MapOps α) (family : List α) (first rest : List FamilyOp) :
    (ops.performAll family (first ++ rest)).2 =
      (ops.performAll (ops.performAll family first).2 rest).2 := by
  induction first generalizing family with
  | nil => rfl
  | cons op first ih => exact ih _

/-! ### Maps that respect the operations -/

/-- The map takes both operations over. -/
structure Respects (A : MapOps α) (B : MapOps β) (h : α → β) : Prop where
  bind? : ∀ m x v, B.bind? (h m) x v = (A.bind? m x v).map h
  overlay : ∀ m params, B.overlay (h m) params = h (A.overlay m params)

section Respects

variable {A : MapOps α} {B : MapOps β} {h : α → β}

theorem Respects.perform (hr : A.Respects B h) (family : List α) (op : FamilyOp) :
    B.perform (family.map h) op =
      ((A.perform family op).1, (A.perform family op).2.map h) := by
  cases op with
  | bind i x v =>
    rw [MapOps.perform, MapOps.perform, List.getElem?_map]
    cases family[i]? with
    | none => rfl
    | some m =>
      simp only [Option.map_some, hr.bind?]
      cases A.bind? m x v with
      | none => rfl
      | some m' => simp [List.map_set]
  | overlay i params =>
    rw [MapOps.perform, MapOps.perform, List.getElem?_map]
    cases family[i]? with
    | none => rfl
    | some m => simp [hr.overlay]

theorem Respects.performAll (hr : A.Respects B h) (family : List α) (ops : List FamilyOp) :
    B.performAll (family.map h) ops =
      ((A.performAll family ops).1, (A.performAll family ops).2.map h) := by
  induction ops generalizing family with
  | nil => rfl
  | cons op ops ih => rw [MapOps.performAll, hr.perform, ih, MapOps.performAll]

end Respects

/-! ### Members that an operation is not about -/

section Frame

variable {ops : MapOps α} {family : List α} {j : Nat}

theorem perform_frame {op : FamilyOp} (hj : j < family.length) (hop : ∀ x v, op ≠ .bind j x v) :
    (ops.perform family op).2[j]? = family[j]? := by
  cases op with
  | bind i x v =>
    have hij : i ≠ j := by
      rintro rfl
      exact hop x v rfl
    rw [perform]
    split
    · rfl
    · split
      · rfl
      · exact List.getElem?_set_ne hij
  | overlay i params =>
    rw [perform]
    split
    · rfl
    · exact List.getElem?_append_left hj

theorem length_le_perform (ops : MapOps α) (family : List α) (op : FamilyOp) :
    family.length ≤ (ops.perform family op).2.length := by
  cases op with
  | bind i x v =>
    rw [perform]
    split
    · rfl
    · split <;> simp
  | overlay i params =>
    rw [perform]
    split <;> simp

/-- Members stay as they are until there is a binding in them. -/
theorem performAll_frame {later : List FamilyOp} (hj : j < family.length)
    (hlater : ∀ op ∈ later, ∀ x v, op ≠ .bind j x v) :
    (ops.performAll family later).2[j]? = family[j]? := by
  induction later generalizing family with
  | nil => rfl
  | cons op later ih =>
    rw [List.forall_mem_cons] at hlater
    rw [performAll, ih (hj.trans_le (length_le_perform ops family op)) hlater.2]
    exact perform_frame hj hlater.1

end Frame

end MapOps

/-! ## Partial functions -/

/-- A partial function from names to values. -/
abbrev Bindings := Name → Option Value

namespace Bindings

/-- The value of the last pair with the name. -/
def last (params : List (Name × Value)) (x : Name) : Option Value :=
  (params.filter (·.1 = x)).getLast?.map (·.2)

/-- A binding extends the function, and an overlay hides it where there is a parameter. -/
def mapOps : MapOps Bindings where
  bind? f x v := if (f x).isSome then none else some (Function.update f x (some v))
  overlay f params := fun x => (last params x).or (f x)

theorem last_eq_lookup (params : List (Name × Value)) (x : Name) :
    last params x = params.reverse.lookup x := by
  induction params using List.reverseRecOn with
  | nil => rfl
  | append_singleton params p ih =>
    rw [List.reverse_concat, List.lookup_cons, ← ih, last, List.filter_append]
    by_cases h : p.1 = x
    · simp [h]
    · simp [h, beq_eq_false_iff_ne.2 (Ne.symm h), last]

end Bindings

/-! ## Environments -/

namespace Env

variable {env : Env} {f : Bindings}

/-- The two operations on environments. -/
def mapOps : MapOps Env := ⟨bind?, overlay⟩

theorem respects_lookup : mapOps.Respects Bindings.mapOps lookup where
  bind? env x v := by
    show (if (env.lookup x).isSome then none else some _) = (env.bind? x v).map lookup
    cases hbind : env.bind? x v with
    | none => rw [if_pos (bind?_eq_none_iff.1 hbind), Option.map_none]
    | some env' =>
      rw [if_neg (by simp [lookup_eq_none_of_bind? hbind]), Option.map_some, Option.some.injEq]
      funext y
      rw [lookup_of_bind? hbind, Function.update_apply]
      exact if_congr eq_comm rfl rfl
  overlay env params := by
    funext x
    show (Bindings.last params x).or (env.lookup x) = (env.overlay params).lookup x
    rw [lookup_overlay, Bindings.last_eq_lookup]

theorem size_eq_encard (env : Env) : (env.size : ℕ∞) = {x | (env.lookup x).isSome}.encard := by
  have hkeys : {x | (env.lookup x).isSome} = (env.bindings.keys.toFinset : Set Name) := by
    ext x
    rw [Finset.mem_coe, List.mem_toFinset, Std.TreeMap.mem_keys,
      Std.TreeMap.mem_iff_isSome_getElem?]
    rfl
  rw [hkeys, Set.encard_coe_eq_coe_finsetCard, List.toFinset_card_of_nodup Std.TreeMap.nodup_keys,
    Std.TreeMap.length_keys, size]

theorem isEmpty_iff : env.isEmpty = true ↔ ∀ x, env.lookup x = none := by
  rw [isEmpty, Std.TreeMap.isEmpty_iff_forall_not_mem]
  simp only [Std.TreeMap.mem_iff_isSome_getElem?, Option.not_isSome_iff_eq_none, lookup]

/-- The environment answers as the partial function says. -/
structure Agrees (env : Env) (f : Bindings) : Prop where
  lookup : ∀ x, env.lookup x = f x
  contains : ∀ x, env.contains x = (f x).isSome
  size : (env.size : ℕ∞) = {x | (f x).isSome}.encard
  isEmpty : env.isEmpty = true ↔ ∀ x, f x = none

theorem agrees_lookup (env : Env) : env.Agrees env.lookup where
  lookup _ := rfl
  contains := env.contains_eq_isSome
  size := env.size_eq_encard
  isEmpty := isEmpty_iff

/-- The names of an overlay are those of its base and those of the parameters. -/
theorem isSome_lookup_overlay {params : List (Name × Value)} {x : Name} :
    ((env.overlay params).lookup x).isSome ↔
      (env.lookup x).isSome ∨ x ∈ params.map (·.1) := by
  have hparams : (params.reverse.lookup x).isSome = true ↔ x ∈ params.map (·.1) := by
    simp only [List.lookup_isSome_iff, List.mem_reverse, List.mem_map, beq_iff_eq]
    exact exists_congr fun p => and_congr_right' eq_comm
  rw [lookup_overlay, Option.isSome_or, Bool.or_eq_true, hparams, or_comm]

end Env

/-- **Environments are independent maps.**  Start from one empty environment and make any bindings and
overlays, in whichever environments there are then: the operations come to what they come to on partial
functions, and after them every environment answers as its partial function says.  An overlay has a
value for the names of its base and for those of the parameters and for no others.  And until there is a
binding in an environment itself, nothing that happens to the others changes it. -/
theorem environments_are_independent_maps :
    (∀ ops : List FamilyOp,
      (Bindings.mapOps.performAll [fun _ => none] ops).1 = (Env.mapOps.performAll [.empty] ops).1 ∧
      List.Forall₂ Env.Agrees (Env.mapOps.performAll [.empty] ops).2
        (Bindings.mapOps.performAll [fun _ => none] ops).2) ∧
    (∀ (env : Env) (params : List (Name × Value)),
      ((env.overlay params).size : ℕ∞) =
        ({x | env.contains x = true} ∪ {x | x ∈ params.map (·.1)}).encard) ∧
    (∀ (ops later : List FamilyOp) (j : Nat), j < (Env.mapOps.performAll [.empty] ops).2.length →
      (∀ op ∈ later, ∀ x v, op ≠ .bind j x v) →
      (Env.mapOps.performAll [.empty] (ops ++ later)).2[j]? =
        (Env.mapOps.performAll [.empty] ops).2[j]?) := by
  refine ⟨fun ops => ?_, fun env params => ?_, fun ops later j hj hlater => ?_⟩
  · have hempty : [fun _ => none] = [Env.empty].map Env.lookup := by
      rw [List.map_singleton, List.singleton_inj]
      funext x
      exact (Env.lookup_empty x).symm
    rw [hempty, Env.respects_lookup.performAll]
    exact ⟨rfl, List.forall₂_map_right_iff.2 (List.forall₂_same.2 fun env _ => env.agrees_lookup)⟩
  · rw [Env.size_eq_encard]
    congr 1
    ext x
    rw [Set.mem_union, Set.mem_ofPred_eq, Set.mem_ofPred_eq, Set.mem_ofPred_eq,
      Env.contains_eq_isSome]
    exact Env.isSome_lookup_overlay
  · rw [MapOps.performAll_append]
    exact MapOps.performAll_frame hj hlater

end BindOnce

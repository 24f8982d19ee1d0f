import BindOnce.Value

/-!
# Environments

An environment holds the bindings of names to values.  A name is bound once: `Env.bind?` refuses a
name that has a value, and nothing removes a binding.  Only a call lays its parameters over the
bindings of the caller (`Env.overlay`), and that makes an environment of its own; the caller's stays
as it is.

Environments are search trees, so an overlay shares with the environment below it all that it does
not cover.
-/

set_option autoImplicit false
namespace BindOnce

/-- Bindings of names to values. -/
structure Env where
  bindings : Std.TreeMap Name Value := ∅

namespace Env

/-- The environment without bindings. -/
def empty : Env := {}

instance : Inhabited Env := ⟨empty⟩

/-- The value of a name, if it has one. -/
def lookup (env : Env) (x : Name) : Option Value := env.bindings[x]?

/-- Whether a name has a value. -/
def contains (env : Env) (x : Name) : Bool := env.bindings.contains x

/-- The value of a name; a name without a binding has the absent value. -/
def value (env : Env) (x : Name) : Value := (env.lookup x).getD .nil

/-- The environment with one more binding, unless the name has a value. -/
def bind? (env : Env) (x : Name) (v : Value) : Option Env :=
  if env.contains x then none else some ⟨env.bindings.insert x v⟩

/-- The environment with these bindings laid over it.  They hide bindings of the same names, and of
two for one name the later counts. -/
def overlay (env : Env) (params : List (Name × Value)) : Env :=
  ⟨params.foldl (fun bindings (x, v) => bindings.insert x v) env.bindings⟩

/-- How many names have a value. -/
def size (env : Env) : Nat := env.bindings.size

/-- Whether no name has a value. -/
def isEmpty (env : Env) : Bool := env.bindings.isEmpty

/-- The bindings, in the order of the names. -/
def toList (env : Env) : List (Name × Value) := env.bindings.toList

/-! ## What the operations do to look-ups -/

@[simp]
theorem lookup_empty (x : Name) : empty.lookup x = none := by
  simp [empty, lookup]

theorem contains_eq_isSome (env : Env) (x : Name) : env.contains x = (env.lookup x).isSome := by
  simp [contains, lookup]

theorem bind?_eq_none_iff {env : Env} {x : Name} {v : Value} :
    env.bind? x v = none ↔ (env.lookup x).isSome = true := by
  rw [bind?, contains_eq_isSome]
  split <;> simp_all

theorem lookup_eq_none_of_bind? {env env' : Env} {x : Name} {v : Value}
    (h : env.bind? x v = some env') : env.lookup x = none := by
  rw [bind?, contains_eq_isSome] at h
  split at h <;> simp_all

theorem lookup_of_bind? {env env' : Env} {x : Name} {v : Value} (h : env.bind? x v = some env')
    (y : Name) : env'.lookup y = if x = y then some v else env.lookup y := by
  rw [bind?] at h
  split at h
  · cases h
  · cases h
    rw [lookup, lookup, Std.TreeMap.getElem?_insert]
    simp only [Std.LawfulEqOrd.compare_eq_iff_eq]

@[simp]
theorem overlay_nil (env : Env) : env.overlay [] = env := rfl

theorem overlay_append (env : Env) (ps qs : List (Name × Value)) :
    env.overlay (ps ++ qs) = (env.overlay ps).overlay qs := by
  simp [overlay, List.foldl_append]

theorem lookup_overlay_singleton (env : Env) (x y : Name) (v : Value) :
    (env.overlay [(x, v)]).lookup y = if x = y then some v else env.lookup y := by
  simp only [overlay, List.foldl_cons, List.foldl_nil, lookup, Std.TreeMap.getElem?_insert,
    Std.LawfulEqOrd.compare_eq_iff_eq]

/-- Of the laid over bindings of a name the last one counts, and without one what lies below. -/
theorem lookup_overlay (env : Env) (params : List (Name × Value)) (x : Name) :
    (env.overlay params).lookup x = (params.reverse.lookup x).or (env.lookup x) := by
  induction params generalizing env with
  | nil => rfl
  | cons p ps ih =>
    rw [← List.singleton_append, overlay_append, ih, lookup_overlay_singleton, List.reverse_append,
      List.lookup_append, List.reverse_singleton, Option.or_assoc, List.lookup_cons]
    by_cases h : p.1 = x
    · simp [h]
    · simp [h, beq_eq_false_iff_ne.2 (Ne.symm h)]

theorem lookup_overlay_of_last (env : Env) {params : List (Name × Value)} {i : Nat} {x : Name}
    {v : Value} (hi : params[i]? = some (x, v))
    (hlast : ∀ j w, i < j → params[j]? ≠ some (x, w)) :
    (env.overlay params).lookup x = some v := by
  obtain ⟨hlt, hget⟩ := List.getElem?_eq_some_iff.1 hi
  have hsplit : params = params.take i ++ (x, v) :: params.drop (i + 1) := by
    rw [← hget, List.getElem_cons_drop, List.take_append_drop]
  have hrest : (params.drop (i + 1)).reverse.lookup x = none := by
    refine List.lookup_eq_none_iff.2 ?_
    rintro ⟨y, w⟩ hmem
    obtain ⟨k, hk⟩ := List.mem_iff_getElem?.1 (List.mem_reverse.1 hmem)
    rw [List.getElem?_drop] at hk
    refine bne_iff_ne.2 ?_
    rintro rfl
    exact hlast _ w (by omega) hk
  rw [lookup_overlay, hsplit, List.reverse_append, List.reverse_cons, List.append_assoc,
    List.lookup_append, hrest]
  simp

theorem lookup_overlay_of_not_mem (env : Env) {params : List (Name × Value)} {x : Name}
    (hx : x ∉ params.map (·.1)) : (env.overlay params).lookup x = env.lookup x := by
  have hnone : params.reverse.lookup x = none := by
    refine List.lookup_eq_none_iff.2 ?_
    rintro ⟨y, w⟩ hmem
    refine bne_iff_ne.2 ?_
    rintro rfl
    exact hx (List.mem_map_of_mem (List.mem_reverse.1 hmem))
  rw [lookup_overlay, hnone, Option.none_or]

end Env
end BindOnce

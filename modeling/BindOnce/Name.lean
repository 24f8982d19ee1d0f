import Std.Data.TreeMap

/-!
# Names

Programs mention the same identifiers over and over, so the evaluator does not carry their texts
around: a text is entered once into a table (`BindOnce.Interner`) and from then on stands for its
position there.  A `Name` is that position.  Within one table, two names are equal exactly when
their texts are.

Names are ordered by position.  The order has no meaning for programs; it is what lets
environments be search trees over names (`BindOnce.Env`).
-/

set_option autoImplicit false
namespace BindOnce

/-- The position of an identifier's text in the table that issued the name. -/
structure Name where
  /-- The position itself; a table never holds more texts than 32 bits can count. -/
  raw : UInt32
  deriving DecidableEq, Inhabited

namespace Name

/-- The name of the empty text, which every table holds at its first position. -/
def empty : Name := ⟨0⟩

/-- The name as a developer sees it. -/
def inspect (n : Name) : String := s!"Name({n.raw.toNat})"

instance : Ord Name := ⟨fun a b => compare a.raw.toNat b.raw.toNat⟩

theorem compare_eq (a b : Name) : compare a b = compare a.raw.toNat b.raw.toNat := rfl

instance : Std.TransOrd Name where
  eq_swap {a b} := by
    rw [compare_eq, compare_eq]
    exact Std.OrientedCmp.eq_swap
  isLE_trans {a b c} hab hbc := by
    rw [compare_eq] at *
    exact Std.TransCmp.isLE_trans hab hbc

instance : Std.LawfulEqOrd Name where
  eq_of_compare {a b} h := by
    rw [compare_eq] at h
    have h' := UInt32.toNat_inj.1 (Std.LawfulEqOrd.eq_of_compare h)
    cases a; cases b; simpa using h'

end Name
end BindOnce

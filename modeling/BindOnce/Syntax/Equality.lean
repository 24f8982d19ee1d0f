import BindOnce.Syntax

/-!
# When two trees say the same

Two trees are *alike* when they have the same shape, identifiers, lines, tokens and literals.  Node
numbers are left out: a declaration written twice is alike to itself although it makes two
functions.  Number literals compare as numbers do, so the two zeros are alike and a literal that is
not a number is alike to nothing.  A conditional without a second block is not alike to one whose
second block is empty.
-/

set_option autoImplicit false
namespace BindOnce

/-- Equal literals; numbers compare as floating-point numbers. -/
def Literal.alike : Literal → Literal → Bool
  | .number a, .number b => a == b
  | .string a, .string b => a == b
  | .bool a, .bool b => a == b
  | .nil, .nil => true
  | _, _ => false

section Alike

variable {ν : Type} [DecidableEq ν]

mutual

/-- Whether two expressions are the same tree. -/
def Expr.alike : Expr ν → Expr ν → Bool
  | .literal a, .literal b => a.alike b
  | .variable a, .variable b => a == b
  | .group a, .group b => a.alike b
  | .binary l op r, .binary l' op' r' => l.alike l' && op == op' && r.alike r'
  | .unary op e, .unary op' e' => op == op' && e.alike e'
  | .call f es, .call f' es' => f == f' && Expr.allAlike es es'
  | .list es, .list es' => Expr.allAlike es es'
  | _, _ => false

/-- Whether two lists hold the same trees in the same order. -/
def Expr.allAlike : List (Expr ν) → List (Expr ν) → Bool
  | [], [] => true
  | e :: es, e' :: es' => e.alike e' && Expr.allAlike es es'
  | _, _ => false

end

mutual

/-- Whether two statements are the same tree, node numbers apart. -/
def Stmt.alike : Stmt ν → Stmt ν → Bool
  | .print e, .print e' => e.alike e'
  | .expression e, .expression e' => e.alike e'
  | .conditional c t none, .conditional c' t' none => c.alike c' && Stmt.allAlike t t'
  | .conditional c t (some b), .conditional c' t' (some b') =>
    c.alike c' && Stmt.allAlike t t' && Stmt.allAlike b b'
  | .function _ f ps b, .function _ f' ps' b' => f == f' && ps == ps' && Stmt.allAlike b b'
  | .return e, .return e' => e.alike e'
  | _, _ => false

/-- Whether two blocks hold the same trees in the same order. -/
def Stmt.allAlike : List (Stmt ν) → List (Stmt ν) → Bool
  | [], [] => true
  | s :: ss, s' :: ss' => s.alike s' && Stmt.allAlike ss ss'
  | _, _ => false

end

end Alike

end BindOnce

import BindOnce.Operator

/-!
# Syntax trees

Expressions and statements, as a parser leaves them.  The trees are the same whether identifiers
are still texts or have become table positions, so the type `ν` of identifiers is a parameter: a
parser builds trees over `String`, the evaluator walks trees over `Name`, and
`BindOnce.Syntax.Traverse` leads from one to the other.

A function declaration carries a *node number*.  The language compares functions by the
declaration that made them, not by their text, so two declarations that look the same must still
be told apart; whoever builds a tree gives every declaration a number of its own.
-/

set_option autoImplicit false
namespace BindOnce

/-- An identifier and the line where it stands. -/
structure Identifier (ν : Type) where
  name : ν
  line : Line
  deriving DecidableEq, Repr, Inhabited

/-- A value written out in the program. -/
inductive Literal where
  | number (n : Float)
  | string (s : String)
  | bool (b : Bool)
  | nil
  deriving Inhabited

/-- Expressions. -/
inductive Expr (ν : Type) where
  /-- A value written out. -/
  | literal (value : Literal)
  /-- The mention of a variable. -/
  | variable (ident : Identifier ν)
  /-- An expression in parentheses. -/
  | group (inner : Expr ν)
  /-- `left op right`; binding a name (`=`) is one of the operators. -/
  | binary (left : Expr ν) (op : Token) (right : Expr ν)
  /-- `op operand` -/
  | unary (op : Token) (operand : Expr ν)
  /-- `callee(args…)` -/
  | call (callee : Identifier ν) (args : List (Expr ν))
  /-- `[elements…]` -/
  | list (elements : List (Expr ν))
  deriving Inhabited

/-- Statements. -/
inductive Stmt (ν : Type) where
  /-- Write the value of an expression as one line. -/
  | print (expr : Expr ν)
  /-- Evaluate an expression for what it binds, prints and calls. -/
  | expression (expr : Expr ν)
  /-- Choose between two blocks; the second may be missing. -/
  | conditional (condition : Expr ν) (thenBlock : List (Stmt ν)) (elseBlock : Option (List (Stmt ν)))
  /-- Bind a function; `node` is the number of this declaration. -/
  | function (node : Nat) (name : Identifier ν) (params : List (Identifier ν))
      (body : List (Stmt ν))
  /-- Hand a value to the function around. -/
  | return (expr : Expr ν)
  deriving Inhabited

/-- What a parser makes of a whole text: statements to be executed in order. -/
abbrev Program (ν : Type) := List (Stmt ν)

/-- A declaration as functions carry it: what the `function` statement numbered `node` says. -/
structure FunctionDecl (ν : Type) where
  node : Nat
  name : Identifier ν
  params : List (Identifier ν)
  body : List (Stmt ν)
  deriving Inhabited

/-- Whether the statement is itself a `return`; one inside a block does not count. -/
def Stmt.isReturn {ν : Type} : Stmt ν → Bool
  | .return _ => true
  | _ => false

end BindOnce

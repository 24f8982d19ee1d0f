import BindOnce.Interner
import BindOnce.Syntax

/-!
# From texts to names

`Expr.traverse` and `Stmt.traverse` walk a tree from left to right and replace every identifier by
what an action makes of it.  Two actions matter: entering the text into a table, which is how a
parsed program becomes one that can be run (`Program.intern`), and a plain function
(`Expr.mapNames`, `Stmt.mapNames`).  Nothing else in the tree changes, the node numbers of function
declarations included.
-/

set_option autoImplicit false
namespace BindOnce

section Traverse

variable {ν μ : Type} {m : Type → Type} [Monad m]

/-- Replace the identifier's name. -/
def Identifier.traverse (f : ν → m μ) (ident : Identifier ν) : m (Identifier μ) := do
  return ⟨← f ident.name, ident.line⟩

mutual

/-- Replace every identifier of an expression, from left to right. -/
def Expr.traverse (f : ν → m μ) : Expr ν → m (Expr μ)
  | .literal value => return .literal value
  | .variable ident => return .variable (← ident.traverse f)
  | .group inner => return .group (← inner.traverse f)
  | .binary left op right => do
    let left ← left.traverse f
    let right ← right.traverse f
    return .binary left op right
  | .unary op operand => return .unary op (← operand.traverse f)
  | .call callee args => do
    let callee ← callee.traverse f
    let args ← Expr.traverseAll f args
    return .call callee args
  | .list elements => return .list (← Expr.traverseAll f elements)

/-- Replace every identifier of the expressions, in order. -/
def Expr.traverseAll (f : ν → m μ) : List (Expr ν) → m (List (Expr μ))
  | [] => return []
  | e :: es => do
    let e ← e.traverse f
    let es ← Expr.traverseAll f es
    return e :: es

end

mutual

/-- Replace every identifier of a statement, from left to right. -/
def Stmt.traverse (f : ν → m μ) : Stmt ν → m (Stmt μ)
  | .print expr => return .print (← expr.traverse f)
  | .expression expr => return .expression (← expr.traverse f)
  | .conditional condition thenBlock elseBlock => do
    let condition ← condition.traverse f
    let thenBlock ← Stmt.traverseAll f thenBlock
    match elseBlock with
    | none => return .conditional condition thenBlock none
    | some block => return .conditional condition thenBlock (some (← Stmt.traverseAll f block))
  | .function node name params body => do
    let name ← name.traverse f
    let params ← params.mapM (·.traverse f)
    let body ← Stmt.traverseAll f body
    return .function node name params body
  | .return expr => return .return (← expr.traverse f)

/-- Replace every identifier of the statements, in order. -/
def Stmt.traverseAll (f : ν → m μ) : List (Stmt ν) → m (List (Stmt μ))
  | [] => return []
  | s :: ss => do
    let s ← s.traverse f
    let ss ← Stmt.traverseAll f ss
    return s :: ss

end

end Traverse

/-! ## Renaming by a function -/

/-- Replace every identifier of an expression by what `f` gives for it. -/
def Expr.mapNames {ν μ : Type} (f : ν → μ) (e : Expr ν) : Expr μ :=
  Id.run (e.traverse fun x => pure (f x))

/-- Replace every identifier of a statement by what `f` gives for it. -/
def Stmt.mapNames {ν μ : Type} (f : ν → μ) (s : Stmt ν) : Stmt μ :=
  Id.run (s.traverse fun x => pure (f x))

/-! ## Entering the identifiers into a table -/

/-- Steps that may add texts to a table. -/
abbrev InternM := StateT Interner (Except InternError)

/-- The name of a text, which is entered if it is new. -/
def internName (s : String) : InternM Name := fun t => t.intern s

/-- The expression over names; its identifiers are entered from left to right. -/
def Expr.intern (e : Expr String) : InternM (Expr Name) := e.traverse internName

/-- The statement over names; its identifiers are entered from left to right. -/
def Stmt.intern (s : Stmt String) : InternM (Stmt Name) := s.traverse internName

/-- The program over names; its identifiers are entered from left to right. -/
def Program.intern (p : Program String) : InternM (Program Name) := Stmt.traverseAll internName p

end BindOnce

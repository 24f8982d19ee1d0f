import BindOnce.Eval.Expr

/-!
# Executing statements

A statement may *yield* a value to the function around it.  A `return` yields; a conditional yields
what the chosen block yields; nothing else does.

Inside a block, a `return` does not stop what follows.  A block yields only if its last statement is
itself a `return`: a conditional in that place executes its block, and what that yields is dropped.
In a function body, on the other hand, the first statement that yields ends the call.

A condition holds if it is truth itself.  Calls return truth as a word, so the result of a call
never makes a condition hold.
-/

set_option autoImplicit false
namespace BindOnce

open EvalM

/-- Bind a function under its declared name. -/
def FunctionDecl.declare (interner : Interner) (decl : FunctionDecl Name) : EvalM Unit :=
  let name := interner.text decl.name.name
  bindOr (.functionAlreadyDeclared name) decl.name.name (.function ⟨decl, name⟩)

mutual

/-- Execute a statement; the result is the value it yields, if it yields one. -/
def Stmt.exec (interner : Interner) (call : Call) : Stmt Name → EvalM (Option Value)
  | .print expr => do
    let v ← expr.value interner call
    printLine v.worded.display
    return none
  | .expression expr => do
    let _ ← expr.eval interner call
    return none
  | .conditional condition thenBlock none => do
    let v ← condition.value interner call
    if v.isTrue then Stmt.execBlock interner call thenBlock else return none
  | .conditional condition thenBlock (some elseBlock) => do
    let v ← condition.value interner call
    if v.isTrue then Stmt.execBlock interner call thenBlock
    else Stmt.execBlock interner call elseBlock
  | .function node name params body => do
    FunctionDecl.declare interner ⟨node, name, params, body⟩
    return none
  | .return expr => do
    let v ← expr.value interner call
    return some v.worded

/-- Execute all statements of a block; it yields what its last statement yields, if that is a
`return`. -/
def Stmt.execBlock (interner : Interner) (call : Call) : List (Stmt Name) → EvalM (Option Value)
  | [] => return none
  | [last] => do
    let yielded ← last.exec interner call
    return if last.isReturn then yielded else none
  | s :: t :: rest => do
    let _ ← s.exec interner call
    Stmt.execBlock interner call (t :: rest)

end

/-- Execute a function body up to the first statement that yields.  If none does, the result is the
absent value. -/
def Stmt.execBody (interner : Interner) (call : Call) : List (Stmt Name) → EvalM Value
  | [] => return .nil
  | s :: rest => do
    match ← s.exec interner call with
    | some v => return v
    | none => Stmt.execBody interner call rest

/-- Execute statements in order and drop what they yield. -/
def Stmt.execAll (interner : Interner) (call : Call) : List (Stmt Name) → EvalM Unit
  | [] => return ()
  | s :: rest => do
    let _ ← s.exec interner call
    Stmt.execAll interner call rest

end BindOnce

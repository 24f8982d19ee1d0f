import BindOnce.Eval.Callback
import BindOnce.Operation

/-!
# Evaluating expressions

The recursion follows the syntax tree.  Function bodies are not part of the tree of a call, so how
to call a function is a parameter (`call`), which `BindOnce.Eval.Call` supplies.

Operands are evaluated from the left to the right and looked up when both are evaluated, so in
`x + (x = 5)` the left operand is five.  In `target = value` the target is not looked up at all.
-/

set_option autoImplicit false
namespace BindOnce

open EvalM

/-- Bind the name that the left operand mentions to the value of the right one, which is also the
value of the whole. -/
def Operand.assign (interner : Interner) (target value : Operand) : EvalM Operand :=
  match target with
  | .value _ => fail .invalidAssignmentTarget
  | .mention ident => do
    let v ← value.read
    bindOr (.alreadyBound (interner.text ident.name)) ident.name v
    return .value v

/-- Apply an operator other than `=` to two values. -/
def BinaryOp.evaluate (call : Call) (line : Line) (op : BinaryOp) (left right : Value) :
    EvalM Value :=
  match op with
  | .pipe => Callback.pipe call line left right
  | .map => Callback.map call line left right
  | .reduce => Callback.reduce call line left right
  | .filter => Callback.filter call line left right
  | op => ofExcept (op.apply left right)

/-- Apply the operator that a token denotes to two evaluated operands. -/
def Token.applyBinary (interner : Interner) (call : Call) (op : Token) (left right : Operand) :
    EvalM Operand :=
  match BinaryOp.ofToken? op.kind with
  | none => fail (.unsupportedBinaryOperator op.kind)
  | some .assign => left.assign interner right
  | some operator => do
    let left ← left.read
    let right ← right.read
    return .value (← operator.evaluate call op.line left right)

/-- Apply the operator that a token denotes to a value. -/
def Token.applyUnary (op : Token) (operand : Value) : EvalM Operand :=
  match UnaryOp.ofToken? op.kind with
  | none => fail (.unsupportedUnaryOperator op.kind)
  | some operator => return .value (← ofExcept (operator.apply operand))

/-- The function that a name is bound to. -/
def Identifier.callee (interner : Interner) (ident : Identifier Name) : EvalM Func := do
  match (← env).lookup ident.name with
  | some (.function f) => return f
  | some _ => fail (.notCallable (interner.text ident.name))
  | none => fail (.undefinedCallee (interner.text ident.name))

mutual

/-- Evaluate an expression. -/
def Expr.eval (interner : Interner) (call : Call) : Expr Name → EvalM Operand
  | .literal value => return .value (.ofLiteral value)
  | .variable ident => return .mention ident
  | .group inner => inner.eval interner call
  | .binary left op right => onLine op.line do
    let left ← left.eval interner call
    let right ← right.eval interner call
    op.applyBinary interner call left right
  | .unary op operand => onLine op.line do
    let operand ← operand.eval interner call
    op.applyUnary (← operand.read)
  | .call callee args => do
    let f ← callee.callee interner
    let values ← Expr.evalAll interner call args
    return .value (← call f values callee.line)
  | .list elements => do
    let items ← Expr.evalAll interner call elements
    return .value (← makeList items)

/-- The values of expressions, evaluated in order. -/
def Expr.evalAll (interner : Interner) (call : Call) : List (Expr Name) → EvalM (List Value)
  | [] => return []
  | e :: es => do
    let operand ← e.eval interner call
    let v ← operand.read
    let vs ← Expr.evalAll interner call es
    return v :: vs

end

/-- The value of an expression. -/
def Expr.value (interner : Interner) (call : Call) (e : Expr Name) : EvalM Value := do
  let operand ← e.eval interner call
  operand.read

end BindOnce

import BindOnce.Eval.Stmt

/-!
# Calling functions

The body of a function is not part of the expression that calls it, so the tree says nothing about
how far calls go on.  The limit on active calls does: a body runs with one more call active, so the
calls it makes have less room.  `invoke` recurses on that room, and with none left it refuses the
call as `CallStack.push` does.

Arguments are bound to parameters by position.  Arguments without a parameter are dropped; for a
parameter without an argument the body sees what its caller sees under that name.

## What is here

* `invoke` — how to call a function when there is room for a given number of calls.
* `callNow` — how to call a function with the room that the active calls leave.
* `Expr.run`, `Expr.runValue`, `Stmt.run`, `Program.exec`, `Func.run` — evaluation from the
  outside, where functions are called in that way.
-/

set_option autoImplicit false
namespace BindOnce

open EvalM

/-- The parameters that have an argument, each with it. -/
def Func.bindings (f : Func) (args : List Value) : List (Name × Value) :=
  (f.decl.params.map (·.name)).zip args

/-- Call a function when there is room for so many calls, this one included.  The body runs in the
caller's environment with the parameters laid over it. -/
def invoke (interner : Interner) : (room : Nat) → Call
  | 0 => fun f _ line => do
    throw ((← get).stack.exceeded ⟨f.name, line⟩)
  | room + 1 => fun f args line => do
    let callEnv := (← env).overlay (f.bindings args)
    inCall ⟨f.name, line⟩ callEnv (Stmt.execBody interner (invoke interner room) f.decl.body)

/-- Call a function with the room that the active calls leave. -/
def callNow (interner : Interner) : Call := fun f args line => do
  invoke interner (← get).stack.room f args line

/-- An argument from the outside: an expression to evaluate, or a value at hand. -/
inductive Argument where
  | expr (e : Expr Name)
  | value (v : Value)
  deriving Inhabited

/-- Evaluate an expression. -/
def Expr.run (interner : Interner) (e : Expr Name) : EvalM Operand :=
  e.eval interner (callNow interner)

/-- The value of an expression. -/
def Expr.runValue (interner : Interner) (e : Expr Name) : EvalM Value :=
  e.value interner (callNow interner)

/-- Execute a statement. -/
def Stmt.run (interner : Interner) (s : Stmt Name) : EvalM (Option Value) :=
  s.exec interner (callNow interner)

/-- Execute statements in order and drop what they yield. -/
def Program.exec (interner : Interner) (program : Program Name) : EvalM Unit :=
  Stmt.execAll interner (callNow interner) program

/-- The value of an argument. -/
def Argument.run (interner : Interner) : Argument → EvalM Value
  | .expr e => e.runValue interner
  | .value v => return v

/-- Call a function; the arguments are evaluated in order, all of them, before the call. -/
def Func.run (interner : Interner) (f : Func) (args : List Argument)
    (line : Line) : EvalM Value := do
  let values ← args.mapM (·.run interner)
  callNow interner f values line

end BindOnce

import BindOnce.Diagnostic
import BindOnce.Eval.Call
import BindOnce.Setting

/-!
# Interpreters

An `Interpreter` runs programs one after the other.  It keeps what one run leaves for the next: the
program environment, the output channel, the numbering of lists.  A run that fails leaves what it
did before it failed.

Whoever owns an interpreter can also evaluate single expressions and statements, in an environment
of the owner's choice (`Interpreter.within`).  The program environment takes no part in that.
-/

set_option autoImplicit false
namespace BindOnce

/-- An interpreter between two evaluations. -/
structure Interpreter where
  interner : Interner
  mode : Mode
  lang : Lang
  state : State

namespace Interpreter

/-- An interpreter, by default for programs that are run, in an empty environment, with failures
reported in Waray, output to the terminal, and the limit on active calls that the mode sets. -/
def new (interner : Interner) (mode : Mode := .interpret) (lang : Lang := .waray)
    (env : Env := .empty) (channel : Channel := .terminal "") (maxCallDepth : Option Nat := none)
    (lists : ListSupply := {}) : Interpreter where
  interner := interner
  mode := mode
  lang := lang
  state :=
    { env := env
      stack := { maxDepth := maxCallDepth.getD mode.maxCallDepth }
      channel := channel
      lists := lists }

/-- The program environment. -/
def env (i : Interpreter) : Env := i.state.env

/-- The output channel. -/
def channel (i : Interpreter) : Channel := i.state.channel

/-- How many calls are active; none outside any call. -/
def callDepth (i : Interpreter) : Nat := i.state.stack.depth

/-- The interpreter with another output channel. -/
def setChannel (i : Interpreter) (channel : Channel) : Interpreter :=
  { i with state := { i.state with channel := channel } }

/-- Execute a program in the program environment.  The first failure ends it. -/
def run (i : Interpreter) (program : Program Name) : Except Failure Unit × Interpreter :=
  let (result, state) := Program.exec i.interner program i.state
  (result, { i with state := state })

/-- Evaluate something in an environment other than the program environment.  The result comes with
that environment as the evaluation leaves it. -/
def within {α : Type} (i : Interpreter) (env : Env) (x : EvalM α) :
    Except Failure α × Env × Interpreter :=
  let (result, state) := x { i.state with env := env }
  (result, state.env, { i with state := { state with env := i.state.env } })

/-- Write the report of a failure as one line. -/
def writeReport (i : Interpreter) (e : Failure) : Interpreter :=
  i.setChannel (i.channel.writeLine (e.report i.lang))

end Interpreter
end BindOnce

import BindOnce.CallStack
import BindOnce.Channel
import BindOnce.Env
import BindOnce.Interner

/-!
# What evaluation works on

Evaluating something may fail, and whether or not it fails it may have bound names, written lines
and made lists.  So an evaluation is a function from a `State` to a result together with a state:
what was done before a failure stays done.

## What is here

* `State` — the environment in use, the active calls, the output channel, the numbering of lists.
* `EvalM` — evaluations, and the few primitive ones: failing, making a list, writing a line, binding
  a name.  For each a lemma says what it makes of a state, so that nothing else unfolds it.
* `onLine` — passing through an operator, which marks failures with the operator's line.
* `inCall` — running the body of a call in an environment of its own.  The environment and the
  active calls are afterwards as they were before, whatever the body did and however it ended.
* `Operand` — what an expression evaluates to: a value, or the mention of a name that is yet to be
  looked up.
-/

set_option autoImplicit false
namespace BindOnce

/-- What evaluation works on. -/
structure State where
  env : Env
  stack : CallStack
  channel : Channel
  lists : ListSupply

/-- Evaluations.  The state survives a failure. -/
abbrev EvalM := ExceptT Failure (StateM State)

namespace EvalM

/-- Fail. -/
def fail {α : Type} (cause : Cause) : EvalM α := throw { cause := cause }

/-- The environment in use. -/
def env : EvalM Env := return (← get).env

/-- Make a list of the items. -/
def makeList (items : List Value) : EvalM Value := do
  modifyGet fun s =>
    let (list, lists) := s.lists.make items
    (list, { s with lists := lists })

/-- Write a line. -/
def printLine (line : String) : EvalM Unit :=
  modify fun s => { s with channel := s.channel.writeLine line }

/-- Bind a name in the environment in use; if it has a value, fail for the given cause. -/
def bindOr (cause : Cause) (x : Name) (v : Value) : EvalM Unit := do
  match (← env).bind? x v with
  | some env => modify fun s => { s with env := env }
  | none => fail cause

/-- Evaluate within an operator on the given line: failures are marked with the line. -/
def onLine {α : Type} (line : Line) (x : EvalM α) : EvalM α := fun s =>
  match x s with
  | (.ok a, t) => (.ok a, t)
  | (.error e, t) => (.error (e.mark line), t)

/-- Sequencing: the second evaluation starts from the state the first one ended with, and does not
run if the first one failed. -/
theorem bind_apply {α β : Type} (x : EvalM α) (f : α → EvalM β) (s : State) :
    (x >>= f) s =
      match x s with
      | (.ok a, t) => f a t
      | (.error e, t) => (.error e, t) := by
  show (ExceptT.bindCont f (x s).1) (x s).2 = _
  rcases x s with ⟨_ | _, t⟩ <;> rfl

/-- A sequence succeeds just if both evaluations do. -/
theorem bind_eq_ok_iff {α β : Type} {x : EvalM α} {f : α → EvalM β} {s t : State} {b : β} :
    (x >>= f) s = (.ok b, t) ↔ ∃ a u, x s = (.ok a, u) ∧ f a u = (.ok b, t) := by
  constructor
  · intro h
    rw [bind_apply] at h
    rcases hx : x s with ⟨e | a, u⟩
    · rw [hx] at h
      cases h
    · rw [hx] at h
      exact ⟨a, u, rfl, h⟩
  · rintro ⟨a, u, hx, hf⟩
    rw [bind_apply, hx]
    exact hf

theorem fail_apply {α : Type} (cause : Cause) (s : State) :
    (fail cause : EvalM α) s = (.error { cause := cause }, s) := rfl

theorem makeList_apply (items : List Value) (s : State) :
    makeList items s = (.ok (s.lists.make items).1, { s with lists := (s.lists.make items).2 }) :=
  rfl

theorem printLine_apply (line : String) (s : State) :
    printLine line s = (.ok (), { s with channel := s.channel.writeLine line }) := rfl

theorem bindOr_apply (cause : Cause) (x : Name) (v : Value) (s : State) :
    bindOr cause x v s =
      match s.env.bind? x v with
      | some e => (.ok (), { s with env := e })
      | none => (.error { cause := cause }, s) := by
  show (match s.env.bind? x v with
      | some e => (modify fun t : State => { t with env := e } : EvalM Unit)
      | none => fail cause) s = _
  cases s.env.bind? x v <;> rfl

/-- An operator's line is seen by failures alone. -/
theorem onLine_apply_of_ok {α : Type} {line : Line} {x : EvalM α} {s t : State} {a : α}
    (h : x s = (.ok a, t)) : onLine line x s = (.ok a, t) := by
  rw [onLine, h]

theorem onLine_snd {α : Type} (line : Line) (x : EvalM α) (s : State) :
    (onLine line x s).2 = (x s).2 := by
  unfold onLine
  split <;> simp_all

/-- Run the body of a call in an environment of its own.  If the call exceeds the limit it is
refused and nothing happens.  Otherwise the caller's environment and the active calls are as before
once the body has ended, successfully or not. -/
def inCall {α : Type} (frame : ActiveCall) (callEnv : Env) (body : EvalM α) : EvalM α := fun s =>
  match s.stack.push frame with
  | .error e => (.error e, s)
  | .ok stack =>
    let (result, t) := body { s with env := callEnv, stack := stack }
    (result, { t with env := s.env, stack := t.stack.pop })

/-- Whatever a call does, the caller's environment is afterwards as it was. -/
theorem inCall_env {α : Type} (frame : ActiveCall) (callEnv : Env) (body : EvalM α) (s : State) :
    (inCall frame callEnv body s).2.env = s.env := by
  unfold inCall
  split <;> rfl

end EvalM

/-- What an expression evaluates to.  The mention of a name is not looked up at once: binding needs
the name itself, and an operator looks up both operands only when it has evaluated both. -/
inductive Operand where
  | mention (ident : Identifier Name)
  | value (v : Value)
  deriving Inhabited

namespace Operand

/-- The value of an operand in an environment. -/
def valueIn (env : Env) : Operand → Value
  | .value v => v
  | .mention ident => env.value ident.name

/-- The value of an operand in the environment in use. -/
def read (operand : Operand) : EvalM Value := return operand.valueIn (← EvalM.env)

end Operand
end BindOnce

import BindOnce.Interpreter
import BindOnce.Proofs.Calling
import BindOnce.Proofs.SingleAssignment

/-!
# Piping and calling

`value |> f` and `f(value)` call the same function with the same argument, but they come to that in
different ways.  A call looks the function up before it evaluates the argument; a pipe evaluates the
argument first, and then looks up both.  In between the argument may have bound names and called
functions.  Names are bound once, so the function is found there in either case.

What is left is that a pipe is an operator, which marks the failures that pass through it with its
line, while a call in an expression marks nothing.

## What is here

* `Expr.run_of_mentioned` — a variable, in any number of parentheses, is the mention of its name.
* `Expr.run_pipe` — a pipe is the call, within an operator.
* `EvalM.onLine_fst_eq_error_iff` — what an operator does to the failures that pass through it.
* `pipe_agrees_with_call` — what that means for results, states and failures.
-/

set_option autoImplicit false
namespace BindOnce

section Pipe

variable {interner : Interner} {s t : State} {ident : Identifier Name} {f : Func}

theorem Expr.run_of_mentioned : ∀ {e : Expr Name}, e.mentioned? = some ident →
    e.run interner = pure (.mention ident)
  | .variable _, rfl => by rw [run, eval]
  | .group _, h => by
    rw [run, eval]
    exact run_of_mentioned h

/-- The value of a single argument. -/
theorem Task.run_values_singleton {e : Expr Name} {o : Operand}
    (h : e.run interner s = (.ok o, t)) :
    (Task.values [e]).run interner s = (.ok [o.valueIn t.env], t) := by
  have heval : e.eval interner (callNow interner) s = (.ok o, t) := h
  rw [run, runWith, Expr.evalAll, EvalM.bind_apply, heval, Expr.evalAll]
  rfl

theorem Task.run_values_of_error {e : Expr Name} {failure : Failure}
    (h : e.run interner s = (.error failure, t)) :
    (Task.values [e]).run interner s = (.error failure, t) := by
  have heval : e.eval interner (callNow interner) s = (.error failure, t) := h
  rw [run, runWith, Expr.evalAll, EvalM.bind_apply, heval]

/-- The operator looks the function up after both operands have been evaluated. -/
theorem Token.applyBinary_pipe (hf : s.env.lookup ident.name = some (.function f)) (o : Operand)
    (line : Line) :
    Token.applyBinary interner (callNow interner) ⟨.pipe, line⟩ o (.mention ident) s =
      (Operand.value <$> callNow interner f [o.valueIn s.env] line) s := by
  have hleft : o.read s = (.ok (o.valueIn s.env), s) := rfl
  have hright : (Operand.mention ident).read s = (.ok (.function f), s) := by
    rw [show (Operand.mention ident).read s = (.ok (s.env.value ident.name), s) from rfl, Env.value,
      hf, Option.getD_some]
  rw [applyBinary]
  dsimp only [BinaryOp.ofToken?]
  rw [EvalM.bind_apply, hleft]
  dsimp only
  rw [EvalM.bind_apply, hright]
  rfl

/-- **A pipe is the call, within an operator.** -/
theorem Expr.run_pipe (hf : s.env.lookup ident.name = some (.function f)) (e : Expr Name)
    {right : Expr Name} (hright : right.mentioned? = some ident) (line : Line) :
    (Expr.binary e ⟨.pipe, line⟩ right).run interner s =
      EvalM.onLine line ((Expr.call ⟨ident.name, line⟩ [e]).run interner) s := by
  suffices hoperands : (do
      let left ← e.run interner
      let right ← right.run interner
      Token.applyBinary interner (callNow interner) ⟨.pipe, line⟩ left right : EvalM Operand) s =
      (Expr.call ⟨ident.name, line⟩ [e]).run interner s by
    rw [run, eval, EvalM.onLine, EvalM.onLine, ← hoperands]
    rfl
  have hcall : (Expr.call ⟨ident.name, line⟩ [e]).run interner s =
      ((Task.values [e]).run interner >>= fun vs =>
        Operand.value <$> callNow interner f vs line) s :=
    Expr.run_call_of_lookup hf
  rw [hcall, run_of_mentioned hright, EvalM.bind_apply, EvalM.bind_apply]
  generalize he : e.run interner s = outcome
  obtain ⟨failure | o, t⟩ := outcome
  · rw [Task.run_values_of_error he]
  · -- the argument has left the binding of the function as it was
    have hft : t.env.lookup ident.name = some (.function f) := by
      have hgrows : Env.Grows _ s.env ((Task.expr e).run interner s).2.env :=
        (Task.expr e).env_grows s
      rw [show (Task.expr e).run interner s = (.ok o, t) from he] at hgrows
      exact hgrows.lookup_eq_some hf
    rw [Task.run_values_singleton he]
    dsimp only
    rw [pure_bind]
    exact Token.applyBinary_pipe hft o line

/-- A call in an expression results in a value. -/
theorem Expr.value_of_run_call {callee : Identifier Name} {args : List (Expr Name)} {o : Operand}
    (h : (Expr.call callee args).run interner s = (.ok o, t)) : ∃ v, o = .value v := by
  cases o with
  | mention ident =>
    have hends : Ends interner ((Task.expr (.call callee args)).plan interner) s _ t :=
      Ends.iff_run.2 h
    cases hends.mayGive
  | value v => exact ⟨v, rfl⟩

end Pipe

/-! ## What an operator does to failures -/

section OnLine

variable {α : Type} {line : Line} {x : EvalM α} {s : State}

theorem EvalM.onLine_fst_eq_ok_iff {a : α} : (onLine line x s).1 = .ok a ↔ (x s).1 = .ok a := by
  rw [onLine]
  rcases x s with ⟨_ | _, t⟩ <;> simp

/-- What a failure has passed and why it came about is all there is to it. -/
theorem Failure.eq_mark_iff {failure inner : Failure} : failure = inner.mark line ↔
    failure.cause = inner.cause ∧ failure.lines = inner.lines ++ [line] := by
  rw [← lines_mark, lines, lines, List.reverse_inj]
  constructor
  · rintro rfl
    exact ⟨rfl, rfl⟩
  · obtain ⟨cause, trail⟩ := failure
    rintro ⟨rfl, rfl⟩
    rfl

theorem EvalM.onLine_fst_eq_error_iff {failure : Failure} :
    (onLine line x s).1 = .error failure ↔ ∃ inner, (x s).1 = .error inner ∧
      failure.cause = inner.cause ∧ failure.lines = inner.lines ++ [line] := by
  simp only [← Failure.eq_mark_iff]
  rw [onLine]
  rcases x s with ⟨e | _, t⟩
  · simp [eq_comm]
  · simp

end OnLine

/-- **Piping agrees with calling.**  Let a name be bound to a function.  Then `e |> f`, with `f` in
any number of parentheses, and the call `f(e)` on the same line leave the same state: the same
bindings, the same active calls, the same output and the same numbering of lists.  Both result in
the same value, or both fail for the same cause, which may be the refusal of a call on that line.
The failure of the pipe has passed the line of the pipe after all lines that the failure of the call
has passed. -/
theorem pipe_agrees_with_call (interner : Interner) {s : State} {ident : Identifier Name} {f : Func}
    (hf : s.env.lookup ident.name = some (.function f)) (e : Expr Name) {right : Expr Name}
    (hright : right.mentioned? = some ident) (line : Line) :
    let piped := (Expr.binary e ⟨.pipe, line⟩ right).run interner s
    let called := (Expr.call ⟨ident.name, line⟩ [e]).run interner s
    piped.2 = called.2 ∧
    (∀ o, piped.1 = .ok o → ∃ v, o = .value v) ∧
    (∀ v, piped.1 = .ok (.value v) ↔ called.1 = .ok (.value v)) ∧
    ∀ failure, piped.1 = .error failure ↔ ∃ inner, called.1 = .error inner ∧
      failure.cause = inner.cause ∧ failure.lines = inner.lines ++ [line] := by
  intro piped called
  have hpiped : piped = EvalM.onLine line ((Expr.call ⟨ident.name, line⟩ [e]).run interner) s :=
    Expr.run_pipe hf e hright line
  rw [hpiped]
  refine ⟨EvalM.onLine_snd line _ s, fun o ho => ?_, fun v => EvalM.onLine_fst_eq_ok_iff,
    fun failure => EvalM.onLine_fst_eq_error_iff⟩
  exact Expr.value_of_run_call (Prod.ext (EvalM.onLine_fst_eq_ok_iff.1 ho) rfl)

/-- A failure within the function, after the argument has bound a name. -/
theorem pipe_agrees_with_call_of_failure :
    let body : List (Stmt Name) :=
      [.print (.variable ⟨⟨2⟩, 3⟩),
        .return (.binary (.variable ⟨⟨2⟩, 4⟩) ⟨.minus, 4⟩ (.literal .nil))]
    let f : Func := ⟨⟨0, ⟨⟨1⟩, 2⟩, [⟨⟨2⟩, 2⟩], body⟩, "f"⟩
    let s : State := (Interpreter.new .new .interpret .waray
      (Env.empty.overlay [(⟨1⟩, .function f)]) (.buffer "")).state
    let e : Expr Name := .binary (.variable ⟨⟨3⟩, 7⟩) ⟨.equal, 7⟩ (.literal (.string "a"))
    let piped := (Expr.binary e ⟨.pipe, 7⟩ (.group (.variable ⟨⟨1⟩, 8⟩))).run .new s
    let called := (Expr.call ⟨⟨1⟩, 7⟩ [e]).run .new s
    s.env.lookup ⟨1⟩ = some (.function f) ∧ piped.2 = called.2 ∧
      piped.2.env.lookup ⟨3⟩ = some (.string "a") ∧ piped.2.channel = .buffer "a\n" ∧
      ∃ failure inner, piped.1 = .error failure ∧ called.1 = .error inner ∧
        failure.cause = inner.cause ∧ inner.lines = [4] ∧ failure.lines = [4, 7] := by
  intro body f s e piped called
  have hf : s.env.lookup (Identifier.mk (⟨1⟩ : Name) 8).name = some (.function f) := rfl
  have hright : (Expr.group (.variable ⟨⟨1⟩, 8⟩)).mentioned? =
      some (Identifier.mk (⟨1⟩ : Name) 8) := rfl
  obtain ⟨hstate, -, -, hfailure⟩ := pipe_agrees_with_call .new hf e hright 7
  have hcalled : ∃ inner, called.1 = .error inner ∧ inner.lines = [4] := ⟨_, rfl, rfl⟩
  obtain ⟨inner, hcalled, hlines⟩ := hcalled
  refine ⟨hf, hstate, rfl, rfl, inner.mark 7, inner, ?_, hcalled, rfl, hlines, ?_⟩
  · exact (hfailure _).2 ⟨inner, hcalled, rfl, Failure.lines_mark 7 inner⟩
  · rw [Failure.lines_mark, hlines]
    rfl

end BindOnce

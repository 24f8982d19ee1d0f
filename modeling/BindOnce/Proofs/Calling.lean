import BindOnce.Proofs.Termination

/-!
# What calls do

A call sees its caller's bindings and leaves them alone, and the active calls are afterwards what
they were.  What it results in comes out of the body of the function, where only a `return` yields,
by itself or as the last statement of a block.  What is yielded has been turned into a word if it
was a truth value or the absent value, so no call results in a truth value.

## What is here

* `Ends.stmt_worded`, `Ends.block_worded`, `Ends.body_worded`, `Ends.body_kind_ne_boolean` — what
  statements yield, and what bodies result in.
* `callNow_of_body`, `callNow_of_room_eq_zero`, `callNow_frame`, `callNow_kind_ne_boolean` — what a
  call does with the body, without room for it, with its environment and with its result.
* `Func.run_values`, `Expr.run_call` — calls from the outside and calls in expressions.
-/

set_option autoImplicit false
namespace BindOnce

/-! ## What statements yield -/

section Yields

variable {interner : Interner} {s t : State} {v : Value}

theorem Ends.block_worded {ss : List (Stmt Name)}
    (h : Ends interner ((Task.block ss).plan interner) s (.ok (some v)) t) :
    ∃ w : Value, v = w.worded := by
  induction ss generalizing s with
  | nil => cases h
  | cons stmt rest ih =>
    cases rest with
    | nil =>
      cases h with
      | @ask _ _ _ _ _ _ _ yielded _ h hdone =>
        -- a statement that is not a `return` does not yield for the block
        cases stmt with
        | «return» e =>
          cases h with
          | ask _ h =>
            cases h
            cases hdone
            exact ⟨_, rfl⟩
        | _ => cases hdone
    | cons next rest =>
      cases h with
      | ask _ h =>
        cases h with
        | ask h hdone =>
          cases hdone
          exact ih h

theorem Ends.stmt_worded {stmt : Stmt Name}
    (h : Ends interner (stmt.plan interner) s (.ok (some v)) t) : ∃ w : Value, v = w.worded := by
  have hblock {ss : List (Stmt Name)} {u : State}
      (h : Ends interner (.ask (.block ss) .ok) u (.ok (some v)) t) :
      ∃ w : Value, v = w.worded := by
    cases h with
    | ask h hdone =>
      cases hdone
      exact h.block_worded
  cases stmt with
  | print e => cases h with | ask _ h => cases h with | printLine h => cases h
  | expression e => cases h with | ask _ h => cases h
  | conditional condition thenBlock elseBlock =>
    cases elseBlock with
    | none =>
      cases h with
      | ask _ h =>
        dsimp only at h
        split at h
        · exact hblock h
        · cases h
    | some elseBlock =>
      cases h with
      | ask _ h =>
        dsimp only at h
        split at h
        · exact hblock h
        · exact hblock h
  | function node name params body => cases h with | bindOr _ h => cases h
  | «return» e =>
    cases h with
    | ask _ h =>
      cases h
      exact ⟨_, rfl⟩

theorem Ends.body_worded {ss : List (Stmt Name)}
    (h : Ends interner ((Task.body ss).plan interner) s (.ok v) t) :
    v = .nil ∨ ∃ w : Value, v = w.worded := by
  induction ss generalizing s with
  | nil =>
    cases h
    exact .inl rfl
  | cons stmt rest ih =>
    cases h with
    | @ask _ _ _ _ _ _ _ yielded _ h hnext =>
      cases yielded with
      | some w =>
        cases hnext
        exact .inr h.stmt_worded
      | none =>
        cases hnext with
        | ask h hdone =>
          cases hdone
          exact ih h

theorem Ends.body_kind_ne_boolean {ss : List (Stmt Name)}
    (h : Ends interner ((Task.body ss).plan interner) s (.ok v) t) : v.kind ≠ .boolean := by
  rcases h.body_worded with rfl | ⟨w, rfl⟩
  · nofun
  · exact w.kind_worded_ne_boolean

end Yields

/-! ## Calls -/

section Calls

variable {interner : Interner}

/-- A call results in what the body results in. -/
theorem callNow_of_body {f : Func} {args : List Value} {line : Line} {s t : State}
    {stack : CallStack} {r : Except Failure Value} (hpush : s.stack.push ⟨f.name, line⟩ = .ok stack)
    (h : (Task.body f.decl.body).run interner (s.entered f args stack) = (r, t)) :
    callNow interner f args line s = (r, s.left t) := by
  have hbody : Ends interner _ _ r t := Ends.iff_run.2 h
  have hcall : Ends interner (.enter f args line .ok) s r (s.left t) := by
    cases r with
    | ok v => exact .enter hpush hbody .done
    | error e => exact .enterFails hpush hbody
  obtain ⟨hr, ht⟩ := (ends_callNow s f args line).unique hcall
  exact Prod.ext hr ht

/-- A call for which there is no room does nothing but fail. -/
theorem callNow_of_room_eq_zero {f : Func} {s : State} (args : List Value) (line : Line)
    (h : s.stack.room = 0) :
    callNow interner f args line s =
      (.error { cause := .recursionLimit s.stack.maxDepth f.name line }, s) := by
  have hcall : Ends interner (.enter f args line .ok) s _ s :=
    .refused (CallStack.push_of_room_eq_zero h _)
  obtain ⟨hr, ht⟩ := (ends_callNow s f args line).unique hcall
  exact Prod.ext hr ht

theorem Ends.of_callNow {f : Func} {args : List Value} {line : Line} {s t : State}
    {r : Except Failure Value} (h : callNow interner f args line s = (r, t)) :
    Ends interner (.enter f args line .ok) s r t := by
  have hends : Ends interner (.enter f args line .ok) s _ _ := ends_callNow s f args line
  rwa [h] at hends

/-- For its caller a call leaves all bindings and all active calls as they are. -/
theorem callNow_frame {f : Func} {args : List Value} {line : Line} {s t : State}
    {r : Except Failure Value} (h : callNow interner f args line s = (r, t)) :
    t.env = s.env ∧ t.stack = s.stack := by
  have hends := Ends.of_callNow h
  refine ⟨?_, hends.stack_eq⟩
  cases hends with
  | enter _ _ hdone =>
    cases hdone
    rfl
  | enterFails _ _ => rfl
  | refused _ => rfl

/-- **A call never results in a truth value.** -/
theorem callNow_kind_ne_boolean {f : Func} {args : List Value} {line : Line}
    {s t : State} {v : Value} (h : callNow interner f args line s = (.ok v, t)) :
    v.kind ≠ .boolean := by
  cases Ends.of_callNow h with
  | enter _ hbody hdone =>
    cases hdone
    exact hbody.body_kind_ne_boolean

theorem Argument.mapM_run_value (args : List Value) :
    (args.map Argument.value).mapM (·.run interner) = (pure args : EvalM (List Value)) := by
  induction args with
  | nil => rfl
  | cons v vs ih =>
    rw [List.map_cons, List.mapM_cons, ih]
    rfl

theorem Func.run_values (f : Func) (args : List Value) (line : Line) :
    f.run interner (args.map .value) line = callNow interner f args line := by
  rw [run, Argument.mapM_run_value, pure_bind]

/-- A call in an expression, of a name that is bound to a function. -/
theorem Expr.run_call_of_lookup {callee : Identifier Name} {args : List (Expr Name)} {f : Func}
    {s : State} (hcallee : s.env.lookup callee.name = some (.function f)) :
    (Expr.call callee args).run interner s =
      ((Task.values args).run interner >>= fun vs => Operand.value <$> callNow interner f vs
        callee.line) s := by
  have hlookup : callee.callee interner s = (.ok f, s) := by
    have henv : EvalM.env s = (.ok s.env, s) := rfl
    rw [Identifier.callee, EvalM.bind_apply, henv]
    dsimp only
    rw [hcallee]
    rfl
  rw [run, eval, EvalM.bind_apply, hlookup]
  rfl

theorem Expr.run_call {callee : Identifier Name} {args : List (Expr Name)} {f : Func} {s t : State}
    {vs : List Value} (hcallee : s.env.lookup callee.name = some (.function f))
    (h : (Task.values args).run interner s = (.ok vs, t)) :
    (Expr.call callee args).run interner s =
      (Operand.value <$> callNow interner f vs callee.line) t := by
  rw [run_call_of_lookup hcallee, EvalM.bind_apply, h]

end Calls
end BindOnce

import BindOnce.Proofs.Termination

/-!
# The active calls during an evaluation

Entering a function pushes a call and leaving it pops one, also when the body fails.  So at every
moment the active calls are those from before the evaluation, followed by the calls whose bodies are
being run, and afterwards they are those from before again.  The arguments of a call are evaluated
before the call is pushed; calls made meanwhile are not nested in it.

## What is here

* `CallStack.Extends` — one stack has the calls of another and then some more, under the same limit.
* `Reaches.extends` — the active calls at a moment, by induction on how it is reached.
* `Reaches.extends_of_body` — when a body has ended, its call is the innermost one, so there is one
  to pop.
* `Reaches.values` — the arguments of a call are evaluated with the calls active that were active
  before.
* `active_calls_balanced` — all of this for everything that can be evaluated.
-/

set_option autoImplicit false
namespace BindOnce

/-- The active calls are those of the first stack and then `calls`, under the same limit. -/
def CallStack.Extends (calls : List ActiveCall) (before now : CallStack) : Prop :=
  now.maxDepth = before.maxDepth ∧ now.frames.toList = before.frames.toList ++ calls

namespace CallStack

variable {s t u : CallStack} {calls : List ActiveCall}

theorem extends_refl (s : CallStack) : Extends [] s s := ⟨rfl, (List.append_nil _).symm⟩

theorem extends_push {frame : ActiveCall} (h : s.push frame = .ok t) (h' : Extends calls t u) :
    Extends (frame :: calls) s u := by
  obtain ⟨-, hmax, hframes⟩ := push_eq_ok_iff.1 h
  refine ⟨h'.1.trans hmax, ?_⟩
  rw [h'.2, hframes, Array.toList_push, List.append_assoc, List.singleton_append]

end CallStack

section Reaches

variable {interner : Interner} {α β : Type} {p : Plan α} {q : Plan β} {s t : State}
  {calls : List ActiveCall}

/-- **The active calls at a moment** are those from before and the calls whose bodies are being
run. -/
theorem Reaches.extends (h : Reaches interner p s calls q t) :
    CallStack.Extends calls s.stack t.stack := by
  induction h with
  | proceed h =>
    rw [h.stack_eq]
    exact CallStack.extends_refl _
  | ask h _ ih =>
    rw [h.stack_eq] at ih
    exact ih
  | enter h hpush _ ih =>
    rw [h.stack_eq] at hpush
    exact CallStack.extends_push hpush ih

/-- **There is a call to pop.**  When a body has ended, its call is the innermost one. -/
theorem Reaches.extends_of_body {f : Func} {args : List Value} {line : Line}
    {next : Value → Plan β} {stack : CallStack} {r : Except Failure Value} {u : State}
    (h : Reaches interner p s calls (.enter f args line next) t)
    (hpush : t.stack.push ⟨f.name, line⟩ = .ok stack)
    (hbody : Ends interner ((Task.body f.decl.body).plan interner) (t.entered f args stack) r u) :
    CallStack.Extends (calls ++ [⟨f.name, line⟩]) s.stack u.stack := by
  have hstart : Reaches interner (.enter f args line next) t [⟨f.name, line⟩]
      ((Task.body f.decl.body).plan interner) (t.entered f args stack) :=
    .enter .here hpush (.proceed .here)
  have hextends := (h.trans hstart).extends
  rwa [← hbody.stack_eq] at hextends

/-- The arguments of a call are evaluated with the calls active that were active before. -/
theorem Reaches.values {callee : Identifier Name} {args : List (Expr Name)} {f : Func}
    (h : Reaches interner p s calls ((Expr.call callee args).plan interner) t)
    (hf : t.env.lookup callee.name = some (.function f)) :
    Reaches interner p s calls ((Task.values args).plan interner) t := by
  have hargs : Proceeds interner ((Expr.call callee args).plan interner) t
      (.ask (.values args) fun vs => .enter f vs callee.line fun v => .ok (.value v)) t := by
    refine .readEnv ?_
    rw [hf]
    exact .here
  have := h.trans (.ask hargs (.proceed .here))
  rwa [List.append_nil] at this

end Reaches

/-- **The active calls are balanced.**  After an evaluation, successful or not, they are what they
were before.  At every moment of it they are those from before and then the calls whose bodies are
being run, the outermost first, and no more than the limit allows.  The call that is popped at the
end of a body is the innermost of them, so there always is one.  While the arguments of a call are
evaluated, that call is not among them. -/
theorem active_calls_balanced (interner : Interner) (s : State) :
    ((∀ e : Expr Name, (e.run interner s).2.stack = s.stack) ∧
      (∀ e : Expr Name, (e.runValue interner s).2.stack = s.stack) ∧
      (∀ stmt : Stmt Name, (stmt.run interner s).2.stack = s.stack) ∧
      (∀ (f : Func) (args : List Argument) (line : Line),
        (f.run interner args line s).2.stack = s.stack) ∧
      ∀ (i : Interpreter) (program : Program Name),
        (i.run program).2.state.stack = i.state.stack) ∧
    (∀ {α β : Type} (task : Task α) (calls : List ActiveCall) (q : Plan β) (t : State),
      Reaches interner (task.plan interner) s calls q t →
      CallStack.Extends calls s.stack t.stack ∧ t.stack.depth ≤ s.stack.maxDepth ∧
        ∀ (r : Except Failure β) (u : State), Ends interner q t r u → u.stack = t.stack) ∧
    (∀ {α β : Type} (task : Task α) (calls : List ActiveCall) (f : Func) (args : List Value)
      (line : Line) (next : Value → Plan β) (t u : State) (stack : CallStack)
      (r : Except Failure Value),
      Reaches interner (task.plan interner) s calls (.enter f args line next) t →
      t.stack.push ⟨f.name, line⟩ = .ok stack →
      Ends interner ((Task.body f.decl.body).plan interner) (t.entered f args stack) r u →
      CallStack.Extends (calls ++ [⟨f.name, line⟩]) s.stack u.stack ∧
        u.stack.pop = t.stack) ∧
    ∀ {α β : Type} (task : Task α) (calls calls' : List ActiveCall) (callee : Identifier Name)
      (args : List (Expr Name)) (f : Func) (q : Plan β) (t u : State),
      Reaches interner (task.plan interner) s calls ((Expr.call callee args).plan interner) t →
      t.env.lookup callee.name = some (.function f) →
      Reaches interner ((Task.values args).plan interner) t calls' q u →
      CallStack.Extends (calls ++ calls') s.stack u.stack := by
  refine ⟨⟨fun e => ?_, fun e => ?_, fun stmt => ?_, fun f args line => ?_, fun i program => ?_⟩,
    fun task calls q t h => ?_, fun task calls f args line next t u stack r h hpush hbody => ?_,
    fun task calls calls' callee args f q t u h hf hargs => ?_⟩
  · exact ((Task.expr e).ends_run s).stack_eq
  · exact ((Task.value e).ends_run s).stack_eq
  · exact ((Task.stmt stmt).ends_run s).stack_eq
  · rw [← Task.run_call]
    exact ((Task.call f args line).ends_run s).stack_eq
  · exact ((Task.program program).ends_run i.state).stack_eq
  · refine ⟨h.extends, ?_, fun r u hend => hend.stack_eq⟩
    rw [← h.extends.1]
    exact t.stack.size_le
  · refine ⟨h.extends_of_body hpush hbody, ?_⟩
    rw [hbody.stack_eq]
    exact CallStack.pop_of_push hpush
  · exact ((h.values hf).trans hargs).extends

/-- A function that is called at top level: while its body runs, its call is active. -/
theorem active_calls_balanced_in_body :
    let f : Func := ⟨⟨0, ⟨⟨1⟩, 1⟩, [], [.print (.literal .nil)]⟩, ""⟩
    let program : Program Name :=
      [.function 0 ⟨⟨1⟩, 1⟩ [] f.decl.body, .expression (.call ⟨⟨1⟩, 2⟩ [])]
    let s := (Interpreter.new .new .interpret .waray .empty (.buffer "") (some 1)).state
    ∃ t : State,
      Reaches .new ((Task.program program).plan .new) s [⟨"", 2⟩]
        ((Task.body f.decl.body).plan .new) t ∧
      CallStack.Extends [⟨"", 2⟩] s.stack t.stack ∧ t.stack.depth ≤ s.stack.maxDepth := by
  intro f program s
  let bound : State := { s with env := (s.env.bind? ⟨1⟩ (.function f)).getD .empty }
  have hdecl : Ends .new ((Task.stmt (.function 0 ⟨⟨1⟩, 1⟩ [] f.decl.body)).plan .new) s
      (.ok none) bound := .bindOr rfl .done
  have hcall : Proceeds .new ((Task.expr (.call ⟨⟨1⟩, 2⟩ [])).plan .new) bound
      (.enter f [] 2 fun v => .ok (.value v)) bound := .readEnv (.ask .done .here)
  have hexpr : Reaches .new ((Task.expr (.call ⟨⟨1⟩, 2⟩ [])).plan .new) bound [⟨"", 2⟩]
      ((Task.body f.decl.body).plan .new) _ := .enter hcall rfl (.proceed .here)
  have hrest : Reaches .new ((Task.program [.expression (.call ⟨⟨1⟩, 2⟩ [])]).plan .new) bound
      [⟨"", 2⟩] ((Task.body f.decl.body).plan .new) _ := .ask .here (.ask .here hexpr)
  have hbody : Reaches .new ((Task.program program).plan .new) s [⟨"", 2⟩]
      ((Task.body f.decl.body).plan .new) _ := .ask (.ask hdecl .here) hrest
  obtain ⟨hextends, hdepth, -⟩ := (active_calls_balanced .new s).2.1 _ _ _ _ hbody
  exact ⟨_, hbody, hextends, hdepth⟩

end BindOnce

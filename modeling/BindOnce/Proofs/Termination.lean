import BindOnce.Interpreter
import BindOnce.Proofs.Course

/-!
# Evaluation ends

No program runs forever.  The recursion goes through the bodies of functions, which come out of
environments, arguments and lists and are no part of the tree that is being evaluated, so the size
of trees alone says nothing.  What goes down is a pair: the room left under the limit on active
calls, which a body has less of than its call, and for equal room the size of the task.

## What is here

* `spawns_wellFounded` — no evaluation starts another that starts another and so on for ever.
* `Plan.ends_runWith` and `Task.ends_runWith` — if functions are called as the rules of `Ends` say,
  plans and tasks end as the rules say; by induction on the size of tasks.
* `ends_invoke` — functions are called as the rules say; by induction on the room.
* `Ends.iff_run` — so the rules and the evaluator agree, and `evaluation_ends`: every evaluation
  ends, in one way, with a result or a failure.
-/

set_option autoImplicit false
namespace BindOnce

/-! ## What an evaluation starts is smaller -/

section Spawns

variable {interner : Interner}

/-- A body has less room than its call, and what is asked for is a smaller task. -/
theorem Spawns.room_lt_or_size_lt {a b : Start} (h : Spawns interner a b) :
    a.state.stack.room < b.state.stack.room ∨
      a.state.stack.room = b.state.stack.room ∧ a.task.size < b.task.size := by
  cases h with
  | @ask α β task other next s t h =>
    have hall := h.all (task.all_plan interner)
    exact .inr ⟨by rw [h.stack_eq], hall.1.1⟩
  | enter h hpush =>
    refine .inl ?_
    rw [← h.stack_eq]
    exact CallStack.room_lt_of_push hpush

theorem spawns_wellFounded (interner : Interner) : WellFounded (Spawns interner) := by
  refine Subrelation.wf (fun {a b} h => ?_)
    (InvImage.wf (fun a : Start => (a.state.stack.room, a.task.size))
      (Prod.lex Nat.lt_wfRel Nat.lt_wfRel).wf)
  rcases h.room_lt_or_size_lt with hroom | ⟨hroom, hsize⟩
  · exact Prod.Lex.left _ _ hroom
  · rw [InvImage, hroom]
    exact Prod.Lex.right _ hsize

end Spawns

/-! ## Plans end as the evaluator ends them -/

section Run

variable {interner : Interner} {α : Type}

theorem Ends.enter_ok {f : Func} {args : List Value} {line : Line} {next : Value → Plan α}
    {s t u : State} {v : Value} {r : Except Failure α}
    (h : Ends interner (.enter f args line .ok) s (.ok v) t) (h' : Ends interner (next v) t r u) :
    Ends interner (.enter f args line next) s r u := by
  cases h with
  | enter hpush hbody hdone =>
    cases hdone
    exact .enter hpush hbody h'

theorem Ends.enter_error {f : Func} {args : List Value} {line : Line} {next : Value → Plan α}
    {s t : State} {e : Failure} (h : Ends interner (.enter f args line .ok) s (.error e) t) :
    Ends interner (.enter f args line next) s (.error e) t := by
  cases h with
  | enter _ _ hdone => cases hdone
  | enterFails hpush hbody => exact .enterFails hpush hbody
  | refused hpush => exact .refused hpush

/-- Evaluating the task from the state ends as the rules say, if functions are called by `call`. -/
def Task.EndsBy (interner : Interner) (call : Call) (s : State) (task : Task α) : Prop :=
  Ends interner (task.plan interner) s (task.runWith interner call s).1
    (task.runWith interner call s).2

/-- Calling functions from the state ends as the rules say. -/
def Call.EndsAt (interner : Interner) (call : Call) (s : State) : Prop :=
  ∀ (f : Func) (args : List Value) (line : Line),
    Ends interner (.enter f args line .ok) s (call f args line s).1 (call f args line s).2

/-- If functions are called as the rules say, and tasks end as the rules say, so do plans. -/
theorem Plan.ends_runWith {call : Call} {stack : CallStack} {P : Plan.Conditions}
    (hcall : ∀ s : State, s.stack = stack → Call.EndsAt interner call s)
    (htask : ∀ {β : Type} (task : Task β), P.task task →
      ∀ s : State, s.stack = stack → task.EndsBy interner call s)
    {p : Plan α} (hp : p.All P) (s : State) (hs : s.stack = stack) :
    Ends interner p s (p.runWith interner call s).1 (p.runWith interner call s).2 := by
  induction p generalizing s with
  | done r => cases r <;> exact .done
  | readEnv next ih => exact .readEnv (ih s.env (hp s.env) s hs)
  | makeList items next ih => exact .makeList (ih _ (hp _) _ hs)
  | printLine line next ih => exact .printLine (ih hp _ hs)
  | bindOr cause x v next ih =>
    rw [runWith, EvalM.bind_apply, EvalM.bindOr_apply]
    cases hb : s.env.bind? x v with
    | none => exact .bound hb
    | some env => exact .bindOr hb (ih hp.2.2 _ hs)
  | ask task next ih =>
    have h := htask task hp.1 s hs
    rw [Task.EndsBy] at h
    rw [runWith, EvalM.bind_apply]
    generalize task.runWith interner call s = outcome at h ⊢
    rcases outcome with ⟨e | b, t⟩
    · exact .askFails h
    · exact .ask h (ih b (hp.2 b h.mayGive) t (h.stack_eq.trans hs))
  | enter f args line next ih =>
    have h := hcall s hs f args line
    rw [runWith, EvalM.bind_apply]
    generalize call f args line s = outcome at h ⊢
    rcases outcome with ⟨e | v, t⟩
    · exact h.enter_error
    · exact h.enter_ok (ih v (hp v) t (h.stack_eq.trans hs))
  | onLine line rest ih =>
    have h := ih hp s hs
    rw [runWith, EvalM.onLine]
    generalize rest.runWith interner call s = outcome at h ⊢
    rcases outcome with ⟨e | a, t⟩
    · exact .onLineFails h
    · exact .onLine h

/-- If functions are called as the rules say, tasks end as the rules say. -/
theorem Task.ends_runWith {α : Type} {call : Call} {stack : CallStack}
    (hcall : ∀ s : State, s.stack = stack → Call.EndsAt interner call s) (task : Task α)
    (s : State) (hs : s.stack = stack) : task.EndsBy interner call s := by
  rw [EndsBy, runWith_eq]
  exact Plan.ends_runWith hcall (fun t _ s hs => t.ends_runWith hcall s hs)
    (task.all_plan interner) s hs
termination_by task.size
decreasing_by exact ‹task.conditions.task t›.1

/-- Functions are called as the rules say, with whatever room there is. -/
theorem ends_invoke (n : Nat) (s : State) (hs : s.stack.room = n) :
    Call.EndsAt interner (invoke interner n) s := by
  induction n generalizing s with
  | zero => exact fun f args line => .refused (CallStack.push_of_room_eq_zero hs _)
  | succ n ih =>
    intro f args line
    obtain ⟨stack, hpush, hroom⟩ := CallStack.push_of_room_eq_succ hs ⟨f.name, line⟩
    have h : (Task.body f.decl.body).EndsBy interner (invoke interner n)
        (s.entered f args stack) :=
      Task.ends_runWith (fun u hu => ih u (hu ▸ hroom)) _ _ rfl
    have hinvoke : invoke interner (n + 1) f args line s =
        EvalM.inCall ⟨f.name, line⟩ (s.env.overlay (f.bindings args))
          ((Task.body f.decl.body).runWith interner (invoke interner n)) s := rfl
    rw [hinvoke, EvalM.inCall, hpush]
    rw [Task.EndsBy, State.entered] at h
    dsimp only
    generalize (Task.body f.decl.body).runWith interner (invoke interner n) _ = outcome at h ⊢
    rcases outcome with ⟨e | v, t⟩
    · exact .enterFails hpush h
    · exact .enter hpush h .done

theorem ends_callNow (s : State) : Call.EndsAt interner (callNow interner) s :=
  ends_invoke s.stack.room s rfl

theorem Task.ends_run (task : Task α) (s : State) :
    Ends interner (task.plan interner) s (task.run interner s).1 (task.run interner s).2 :=
  task.ends_runWith (fun s _ => ends_callNow s) s rfl

/-- **The rules and the evaluator agree.** -/
theorem Ends.iff_run {task : Task α} {s t : State} {r : Except Failure α} :
    Ends interner (task.plan interner) s r t ↔ task.run interner s = (r, t) := by
  constructor
  · intro h
    obtain ⟨hr, ht⟩ := (task.ends_run s).unique h
    exact Prod.ext hr ht
  · intro h
    have hrun : Ends interner (task.plan interner) s _ _ := task.ends_run s
    rwa [h] at hrun

end Run

/-- **Evaluation ends.**  Nested evaluations cannot go on for ever: what an evaluation starts is a
smaller task, or has less room for calls.  Every expression, statement, call and program, from every
state, ends by the rules with the result or the failure that the evaluator gives, and in no other
way. -/
theorem evaluation_ends (interner : Interner) :
    WellFounded (Spawns interner) ∧
    (∀ (e : Expr Name) (s : State),
      Ends interner (e.plan interner) s (e.run interner s).1 (e.run interner s).2) ∧
    (∀ (stmt : Stmt Name) (s : State),
      Ends interner (stmt.plan interner) s (stmt.run interner s).1 (stmt.run interner s).2) ∧
    (∀ (f : Func) (args : List Argument) (line : Line) (s : State),
      Ends interner ((Task.call f args line).plan interner) s (f.run interner args line s).1
        (f.run interner args line s).2) ∧
    (∀ (program : Program Name) (s : State),
      Ends interner ((Task.program program).plan interner) s (Program.exec interner program s).1
        (Program.exec interner program s).2) ∧
    ∀ {α : Type} (task : Task α) (s t : State) (r : Except Failure α),
      Ends interner (task.plan interner) s r t ↔ task.run interner s = (r, t) := by
  refine ⟨spawns_wellFounded interner, fun e s => (Task.expr e).ends_run s,
    fun stmt s => (Task.stmt stmt).ends_run s, fun f args line s => ?_,
    fun program s => (Task.program program).ends_run s, fun task s t r => Ends.iff_run⟩
  rw [← Task.run_call]
  exact (Task.call f args line).ends_run s

end BindOnce

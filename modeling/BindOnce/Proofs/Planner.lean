import BindOnce.Proofs.Termination

/-!
# Other plans for the same tasks

The rules of `Ends` take the plan of every task from `Task.plan`.  Nothing else in them depends on
what the plans are, and some questions about the language are questions about other plans: whether
parentheses could be left out, whether an operand could be looked up earlier.  `EndsUnder` has the
same rules for plans of any origin.

## What is here

* `Planner` and `EndsUnder` — where plans come from, and the rules.
* `Planner.late` and `EndsUnder.late_iff` — for the plans of the language the rules are those of
  `Ends`.
* `Expr.bare`, `Planner.bare` and `Ends.endsUnder_bare` — an evaluation goes on in the same way if
  every expression is replaced by what stands in the parentheses around it.
-/

set_option autoImplicit false
namespace BindOnce

/-- What evaluating each task does first, second and so on. -/
structure Planner where
  plan : {α : Type} → Task α → Plan α

/-- The plan, carried out from the first state, ends with the result and leaves the second state, if
the tasks that it asks for and the bodies that it enters are evaluated as the planner says. -/
inductive EndsUnder (planner : Planner) :
    {α : Type} → Plan α → State → Except Failure α → State → Prop where
  | done {α : Type} {r : Except Failure α} {s : State} : EndsUnder planner (.done r) s r s
  | readEnv {α : Type} {next : Env → Plan α} {s t : State} {r : Except Failure α} :
    EndsUnder planner (next s.env) s r t → EndsUnder planner (.readEnv next) s r t
  | makeList {α : Type} {items : List Value} {next : Value → Plan α} {s t : State}
      {r : Except Failure α} :
    EndsUnder planner (next (s.lists.make items).1) { s with lists := (s.lists.make items).2 } r t →
    EndsUnder planner (.makeList items next) s r t
  | printLine {α : Type} {line : String} {next : Plan α} {s t : State} {r : Except Failure α} :
    EndsUnder planner next { s with channel := s.channel.writeLine line } r t →
    EndsUnder planner (.printLine line next) s r t
  | bindOr {α : Type} {cause : Cause} {x : Name} {v : Value} {next : Plan α} {s t : State}
      {env : Env} {r : Except Failure α} :
    s.env.bind? x v = some env → EndsUnder planner next { s with env := env } r t →
    EndsUnder planner (.bindOr cause x v next) s r t
  | bound {α : Type} {cause : Cause} {x : Name} {v : Value} {next : Plan α} {s : State} :
    s.env.bind? x v = none →
    EndsUnder planner (.bindOr cause x v next) s (.error { cause := cause }) s
  | ask {α β : Type} {task : Task β} {next : β → Plan α} {s t u : State} {b : β}
      {r : Except Failure α} :
    EndsUnder planner (planner.plan task) s (.ok b) t → EndsUnder planner (next b) t r u →
    EndsUnder planner (.ask task next) s r u
  | askFails {α β : Type} {task : Task β} {next : β → Plan α} {s t : State} {e : Failure} :
    EndsUnder planner (planner.plan task) s (.error e) t →
    EndsUnder planner (.ask task next) s (.error e) t
  | enter {α : Type} {f : Func} {args : List Value} {line : Line} {next : Value → Plan α}
      {s t u : State} {stack : CallStack} {v : Value} {r : Except Failure α} :
    s.stack.push ⟨f.name, line⟩ = .ok stack →
    EndsUnder planner (planner.plan (.body f.decl.body)) (s.entered f args stack) (.ok v) t →
    EndsUnder planner (next v) (s.left t) r u →
    EndsUnder planner (.enter f args line next) s r u
  | enterFails {α : Type} {f : Func} {args : List Value} {line : Line} {next : Value → Plan α}
      {s t : State} {stack : CallStack} {e : Failure} :
    s.stack.push ⟨f.name, line⟩ = .ok stack →
    EndsUnder planner (planner.plan (.body f.decl.body)) (s.entered f args stack) (.error e) t →
    EndsUnder planner (.enter f args line next) s (.error e) (s.left t)
  | refused {α : Type} {f : Func} {args : List Value} {line : Line} {next : Value → Plan α}
      {s : State} {e : Failure} :
    s.stack.push ⟨f.name, line⟩ = .error e →
    EndsUnder planner (.enter f args line next) s (.error e) s
  | onLine {α : Type} {line : Line} {rest : Plan α} {s t : State} {a : α} :
    EndsUnder planner rest s (.ok a) t → EndsUnder planner (.onLine line rest) s (.ok a) t
  | onLineFails {α : Type} {line : Line} {rest : Plan α} {s t : State} {e : Failure} :
    EndsUnder planner rest s (.error e) t →
    EndsUnder planner (.onLine line rest) s (.error (e.mark line)) t

/-! ## The plans of the language -/

/-- The plans of the language, which look up the left operand of an operator late, after the right
one has been evaluated. -/
def Planner.late (interner : Interner) : Planner := ⟨fun task => task.plan interner⟩

section Late

variable {interner : Interner} {α : Type} {p : Plan α} {s t : State} {r : Except Failure α}

/-- What ends by the rules of the language ends in the same way by other plans, if these do for
every task what its plan in the language does. -/
theorem Ends.endsUnder {planner : Planner} (h : Ends interner p s r t)
    (hplan : ∀ (β : Type) (task : Task β) (s t : State) (r : Except Failure β),
      EndsUnder planner (task.plan interner) s r t → EndsUnder planner (planner.plan task) s r t) :
    EndsUnder planner p s r t := by
  induction h with
  | done => exact .done
  | readEnv _ ih => exact .readEnv ih
  | makeList _ ih => exact .makeList ih
  | printLine _ ih => exact .printLine ih
  | bindOr hb _ ih => exact .bindOr hb ih
  | bound hb => exact .bound hb
  | ask _ _ ih₁ ih₂ => exact .ask (hplan _ _ _ _ _ ih₁) ih₂
  | askFails _ ih => exact .askFails (hplan _ _ _ _ _ ih)
  | enter hpush _ _ ih₁ ih₂ => exact .enter hpush (hplan _ _ _ _ _ ih₁) ih₂
  | enterFails hpush _ ih => exact .enterFails hpush (hplan _ _ _ _ _ ih)
  | refused hpush => exact .refused hpush
  | onLine _ ih => exact .onLine ih
  | onLineFails _ ih => exact .onLineFails ih

theorem EndsUnder.ends (h : EndsUnder (.late interner) p s r t) : Ends interner p s r t := by
  induction h with
  | done => exact .done
  | readEnv _ ih => exact .readEnv ih
  | makeList _ ih => exact .makeList ih
  | printLine _ ih => exact .printLine ih
  | bindOr hb _ ih => exact .bindOr hb ih
  | bound hb => exact .bound hb
  | ask _ _ ih₁ ih₂ => exact .ask ih₁ ih₂
  | askFails _ ih => exact .askFails ih
  | enter hpush _ _ ih₁ ih₂ => exact .enter hpush ih₁ ih₂
  | enterFails hpush _ ih => exact .enterFails hpush ih
  | refused hpush => exact .refused hpush
  | onLine _ ih => exact .onLine ih
  | onLineFails _ ih => exact .onLineFails ih

/-- **For the plans of the language the rules are those of the language.** -/
theorem EndsUnder.late_iff : EndsUnder (.late interner) p s r t ↔ Ends interner p s r t :=
  ⟨EndsUnder.ends, fun h => h.endsUnder fun _ _ _ _ _ h => h⟩

end Late

/-! ## Parentheses -/

/-- What stands in all the parentheses around an expression. -/
def Expr.bare {ν : Type} : Expr ν → Expr ν
  | .group inner => inner.bare
  | e => e

theorem Expr.bare_ne_group {ν : Type} (inner : Expr ν) : ∀ e : Expr ν, e.bare ≠ .group inner
  | .group e => bare_ne_group inner e
  | .literal _ | .variable _ | .binary .. | .unary .. | .call .. | .list _ => by simp [bare]

/-- The task without the parentheses around its expression. -/
def Task.bare : {α : Type} → Task α → Task α
  | _, .expr e => .expr e.bare
  | _, task => task

/-- The plans of the language for tasks without parentheses. -/
def Planner.bare (interner : Interner) : Planner := ⟨fun task => task.bare.plan interner⟩

section Bare

variable {interner : Interner} {α : Type} {s t : State} {r : Except Failure α}

/-- An expression in parentheses does what the expression does. -/
theorem EndsUnder.plan_bare {task : Task α}
    (h : EndsUnder (.bare interner) (task.plan interner) s r t) :
    EndsUnder (.bare interner) (task.bare.plan interner) s r t := by
  cases task with
  | expr e =>
    cases e with
    | group inner =>
      cases h with
      | ask h hdone =>
        cases hdone
        exact h
      | askFails h => exact h
    | _ => exact h
  | _ => exact h

/-- **Parentheses do nothing.** -/
theorem Ends.endsUnder_bare {task : Task α} (h : Ends interner (task.plan interner) s r t) :
    EndsUnder (.bare interner) (task.bare.plan interner) s r t :=
  (h.endsUnder fun _ _ _ _ _ h => h.plan_bare).plan_bare

end Bare

end BindOnce

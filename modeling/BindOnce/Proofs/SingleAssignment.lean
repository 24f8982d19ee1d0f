import BindOnce.Proofs.Termination

/-!
# Names are bound once

Evaluation only ever adds bindings to the environment it works in, and a look at the tree tells for
which names: its targets (`Expr.targets`, `Stmt.targets`).  This holds also of evaluations that fail
half-way.  What the body of a function binds is gone when the call is over.

## What is here

* `Env.Grows` — one environment arises from another by binding names out of a given collection.
* `Ends.env_grows` — whatever ends has bound the names that its plan may bind and no others.
* `Env.OnlyBinds` and `names_bound_once` — the same for everything that can be evaluated, in terms
  of look-ups.
-/

set_option autoImplicit false
namespace BindOnce

/-! ## Environments that grow -/

/-- The second environment arises from the first by binding names that have no value there. -/
inductive Env.Grows (names : Name → Prop) (env : Env) : Env → Prop where
  | refl : Grows names env env
  | bind {env' env'' : Env} {x : Name} {v : Value} :
    Grows names env env' → names x → env'.bind? x v = some env'' → Grows names env env''

/-- What a name is bound to stays, and new bindings are for the given names. -/
structure Env.OnlyBinds (targets : List Name) (before after : Env) : Prop where
  kept : ∀ (x : Name) (v : Value), before.lookup x = some v → after.lookup x = some v
  added : ∀ x : Name, before.lookup x = none → after.lookup x ≠ none → x ∈ targets

namespace Env.Grows

variable {names : Name → Prop} {env env' env'' : Env}

theorem trans (h : Grows names env env') (h' : Grows names env' env'') : Grows names env env'' := by
  induction h' with
  | refl => exact h
  | bind _ hx hb ih => exact ih.bind hx hb

theorem lookup_eq_some (h : Grows names env env') {x : Name} {v : Value}
    (hx : env.lookup x = some v) : env'.lookup x = some v := by
  induction h with
  | refl => exact hx
  | @bind env₁ env₂ y w _ _ hb ih =>
    have hy : env₁.lookup y = none := lookup_eq_none_of_bind? hb
    have hne : y ≠ x := by
      rintro rfl
      rw [ih] at hy
      cases hy
    rw [lookup_of_bind? hb, if_neg hne]
    exact ih

theorem names_of_lookup (h : Grows names env env') {x : Name} (hx : env.lookup x = none)
    (hx' : env'.lookup x ≠ none) : names x := by
  induction h with
  | refl => exact absurd hx hx'
  | @bind env₁ env₂ y w _ hy hb ih =>
    rw [lookup_of_bind? hb] at hx'
    by_cases hyx : y = x
    · exact hyx ▸ hy
    · rw [if_neg hyx] at hx'
      exact ih hx'

/-- Names that may not be bound are looked up as before. -/
theorem lookup_eq (h : Grows names env env') {x : Name} (hx : ¬ names x) :
    env'.lookup x = env.lookup x := by
  cases hlookup : env.lookup x with
  | some v => exact h.lookup_eq_some hlookup
  | none => exact Classical.not_not.1 fun hne => hx (h.names_of_lookup hlookup hne)

theorem onlyBinds {targets : List Name} (h : Grows (· ∈ targets) env env') :
    OnlyBinds targets env env' :=
  ⟨fun _ _ hx => h.lookup_eq_some hx, fun _ hx hx' => h.names_of_lookup hx hx'⟩

/-- Without names to bind nothing changes. -/
theorem eq_of_forall_not (h : Grows names env env') (hnames : ∀ x, ¬ names x) : env' = env := by
  cases h with
  | refl => rfl
  | bind _ hx _ => exact absurd hx (hnames _)

end Env.Grows

/-! ## What evaluation binds -/

section EnvGrows

variable {interner : Interner} {α : Type} {names : Name → Prop}

/-- **Evaluation binds what its plan may bind.**  The induction is on how the plan ends; the tasks
that it asks for have conditions of their own, which are no wider. -/
theorem Ends.env_grows {p : Plan α} {s t : State} {r : Except Failure α}
    (h : Ends interner p s r t) {P : Plan.Conditions} (hp : p.All P)
    (htask : ∀ {β : Type} (task : Task β), P.task task → ∀ x ∈ task.targets, names x)
    (hname : ∀ x, P.name x → names x) : Env.Grows names s.env t.env := by
  induction h generalizing P with
  | done => exact .refl
  | readEnv _ ih => exact ih (hp _) htask hname
  | makeList _ ih => exact ih (hp _) htask hname
  | printLine _ ih => exact ih hp htask hname
  | bindOr hb _ ih =>
    exact (Env.Grows.refl.bind (hname _ hp.2.1) hb).trans (ih hp.2.2 htask hname)
  | bound _ => exact .refl
  | @ask α β task next s t u b r h _ ih₁ ih₂ =>
    have htargets := htask task hp.1
    refine (ih₁ (task.all_plan interner) (fun t ht x hx => htargets x (ht.2 hx)) htargets).trans ?_
    exact ih₂ (hp.2 b h.mayGive) htask hname
  | @askFails α β task next s t e _ ih =>
    have htargets := htask task hp.1
    exact ih (task.all_plan interner) (fun t ht x hx => htargets x (ht.2 hx)) htargets
  | enter _ _ _ _ ih => exact ih (hp _) htask hname
  | enterFails _ _ _ => exact .refl
  | refused _ => exact .refl
  | onLine _ ih => exact ih hp htask hname
  | onLineFails _ ih => exact ih hp htask hname

theorem Task.env_grows (task : Task α) (s : State) :
    Env.Grows (· ∈ task.targets) s.env (task.run interner s).2.env :=
  (task.ends_run s).env_grows (task.all_plan interner) (fun _ ht _ hx => ht.2 hx) fun _ hx => hx

theorem Task.env_grows_within (task : Task α) (i : Interpreter) (env : Env) :
    Env.Grows (· ∈ task.targets) env (i.within env (task.run i.interner)).2.1 :=
  task.env_grows { i.state with env := env }

theorem Interpreter.env_grows_run (i : Interpreter) (program : Program Name) :
    Env.Grows (· ∈ Stmt.allTargets program) i.env (i.run program).2.env :=
  (Task.program program).env_grows i.state

end EnvGrows

/-- **Names are bound once.**  An expression, a statement or a program, evaluated in whatever
environment and successful or not, leaves every binding as it is and adds bindings for targets only.
A call whose arguments are values leaves the environment as it was, and so does every operator on
values, whatever functions it calls. -/
theorem names_bound_once (i : Interpreter) (env : Env) :
    (∀ e : Expr Name, env.OnlyBinds e.targets (i.within env (e.run i.interner)).2.1) ∧
    (∀ e : Expr Name, env.OnlyBinds e.targets (i.within env (e.runValue i.interner)).2.1) ∧
    (∀ stmt : Stmt Name, env.OnlyBinds stmt.targets (i.within env (stmt.run i.interner)).2.1) ∧
    (∀ program : Program Name,
      i.env.OnlyBinds (Stmt.allTargets program) (i.run program).2.env) ∧
    (∀ (f : Func) (args : List Value) (line : Line),
      (i.within env (f.run i.interner (args.map .value) line)).2.1 = env) ∧
    ∀ (op : BinaryOp) (line : Line) (left right : Value),
      (i.within env (op.evaluate (callNow i.interner) line left right)).2.1 = env := by
  refine ⟨fun e => ?_, fun e => ?_, fun stmt => ?_, fun program => ?_, fun f args line => ?_,
    fun op line left right => ?_⟩
  · exact ((Task.expr e).env_grows_within i env).onlyBinds
  · exact ((Task.value e).env_grows_within i env).onlyBinds
  · exact ((Task.stmt stmt).env_grows_within i env).onlyBinds
  · exact ((Task.program program).env_grows i.state).onlyBinds
  · have h := (Task.call f (args.map .value) line).env_grows_within i env
    rw [Task.run_call] at h
    refine h.eq_of_forall_not fun x hx => ?_
    obtain ⟨_, hmem, hx⟩ := List.mem_flatMap.1 hx
    obtain ⟨v, -, rfl⟩ := List.mem_map.1 hmem
    cases hx
  · exact ((Task.operation op line left right).env_grows_within i env).eq_of_forall_not
      fun _ hx => by cases hx

end BindOnce

import BindOnce.Proofs.Ends

/-!
# The course of an evaluation

`Ends` says how an evaluation ends; this file speaks of the moments before.  A moment is a plan that
is about to be carried out from a state: the rest of the plan that evaluation started with, or the
rest of the plan of another task that it has come to on the way.

## What is here

* `Proceeds p s q t` — carrying out `p` from `s` comes to the rest `q` of the same plan, in the
  state `t`.  Tasks that are asked for and functions that are entered on the way have ended.
* `Spawns` — what the evaluation of one task starts directly: the tasks that it asks for and the
  bodies of the functions that it enters.
* `Reaches p s calls q t` — carrying out `p` from `s` comes to carrying out `q` from `t`, possibly
  as a part of what it started, and `calls` are the calls entered and not left since, the outermost
  first.
-/

set_option autoImplicit false
namespace BindOnce

/-- Carrying out the first plan from the first state comes to the second plan, a rest of the first,
in the second state. -/
inductive Proceeds (interner : Interner) {α : Type} : Plan α → State → Plan α → State → Prop where
  | here {p : Plan α} {s : State} : Proceeds interner p s p s
  | readEnv {next : Env → Plan α} {s t : State} {q : Plan α} :
    Proceeds interner (next s.env) s q t → Proceeds interner (.readEnv next) s q t
  | makeList {items : List Value} {next : Value → Plan α} {s t : State} {q : Plan α} :
    Proceeds interner (next (s.lists.make items).1) { s with lists := (s.lists.make items).2 } q t →
    Proceeds interner (.makeList items next) s q t
  | printLine {line : String} {next : Plan α} {s t : State} {q : Plan α} :
    Proceeds interner next { s with channel := s.channel.writeLine line } q t →
    Proceeds interner (.printLine line next) s q t
  | bindOr {cause : Cause} {x : Name} {v : Value} {next : Plan α} {s t : State} {env : Env}
      {q : Plan α} :
    s.env.bind? x v = some env → Proceeds interner next { s with env := env } q t →
    Proceeds interner (.bindOr cause x v next) s q t
  | ask {β : Type} {task : Task β} {next : β → Plan α} {s t u : State} {b : β} {q : Plan α} :
    Ends interner (task.plan interner) s (.ok b) t → Proceeds interner (next b) t q u →
    Proceeds interner (.ask task next) s q u
  | enter {f : Func} {args : List Value} {line : Line} {next : Value → Plan α} {s t u : State}
      {stack : CallStack} {v : Value} {q : Plan α} :
    s.stack.push ⟨f.name, line⟩ = .ok stack →
    Ends interner ((Task.body f.decl.body).plan interner) (s.entered f args stack) (.ok v) t →
    Proceeds interner (next v) (s.left t) q u →
    Proceeds interner (.enter f args line next) s q u
  | onLine {line : Line} {rest : Plan α} {s t : State} {q : Plan α} :
    Proceeds interner rest s q t → Proceeds interner (.onLine line rest) s q t

namespace Proceeds

variable {interner : Interner} {α : Type} {p q : Plan α} {s t : State}

theorem stack_eq (h : Proceeds interner p s q t) : t.stack = s.stack := by
  induction h with
  | here => rfl
  | readEnv _ ih => exact ih
  | makeList _ ih => exact ih
  | printLine _ ih => exact ih
  | bindOr _ _ ih => exact ih
  | ask h _ ih => exact ih.trans h.stack_eq
  | enter hpush h _ ih =>
    refine ih.trans ?_
    rw [State.left, h.stack_eq]
    exact CallStack.pop_of_push hpush
  | onLine _ ih => exact ih

/-- What all steps of a plan satisfy, all steps of its rests satisfy. -/
theorem all {P : Plan.Conditions} (h : Proceeds interner p s q t) (hp : p.All P) : q.All P := by
  induction h with
  | here => exact hp
  | readEnv _ ih => exact ih (hp _)
  | makeList _ ih => exact ih (hp _)
  | printLine _ ih => exact ih hp
  | bindOr _ _ ih => exact ih hp.2.2
  | ask h _ ih => exact ih (hp.2 _ h.mayGive)
  | enter _ _ _ ih => exact ih (hp _)
  | onLine _ ih => exact ih hp

theorem trans {q' : Plan α} {u : State} (h : Proceeds interner p s q t)
    (h' : Proceeds interner q t q' u) : Proceeds interner p s q' u := by
  induction h with
  | here => exact h'
  | readEnv _ ih => exact .readEnv (ih h')
  | makeList _ ih => exact .makeList (ih h')
  | printLine _ ih => exact .printLine (ih h')
  | bindOr hb _ ih => exact .bindOr hb (ih h')
  | ask h _ ih => exact .ask h (ih h')
  | enter hpush h _ ih => exact .enter hpush h (ih h')
  | onLine _ ih => exact .onLine (ih h')

end Proceeds

/-! ## What an evaluation starts -/

/-- A task that is about to be evaluated from a state. -/
structure Start where
  {α : Type}
  task : Task α
  state : State

/-- The function body that is about to be executed, if it is one. -/
def Start.body? : Start → Option (List (Stmt Name))
  | ⟨.body ss, _⟩ => some ss
  | _ => none

/-- The evaluation of the second task starts that of the first. -/
inductive Spawns (interner : Interner) : Start → Start → Prop where
  /-- It asks for the task. -/
  | ask {α β : Type} {task : Task α} {other : Task β} {next : β → Plan α} {s t : State} :
    Proceeds interner (task.plan interner) s (.ask other next) t →
    Spawns interner ⟨other, t⟩ ⟨task, s⟩
  /-- It enters a function and starts with the body. -/
  | enter {α : Type} {task : Task α} {f : Func} {args : List Value} {line : Line}
      {next : Value → Plan α} {s t : State} {stack : CallStack} :
    Proceeds interner (task.plan interner) s (.enter f args line next) t →
    t.stack.push ⟨f.name, line⟩ = .ok stack →
    Spawns interner ⟨.body f.decl.body, t.entered f args stack⟩ ⟨task, s⟩

/-! ## All moments -/

/-- Carrying out the first plan from the first state comes to carrying out the second plan from the
second state, with these calls entered and not left since. -/
inductive Reaches (interner : Interner) :
    {α : Type} → Plan α → State → List ActiveCall → {β : Type} → Plan β → State → Prop where
  | proceed {α : Type} {p q : Plan α} {s t : State} :
    Proceeds interner p s q t → Reaches interner p s [] q t
  /-- Within a task that is asked for. -/
  | ask {α β γ : Type} {p : Plan α} {task : Task β} {next : β → Plan α} {q : Plan γ}
      {s t u : State} {calls : List ActiveCall} :
    Proceeds interner p s (.ask task next) t →
    Reaches interner (task.plan interner) t calls q u → Reaches interner p s calls q u
  /-- Within the body of a function that is entered. -/
  | enter {α γ : Type} {p : Plan α} {f : Func} {args : List Value} {line : Line}
      {next : Value → Plan α} {q : Plan γ} {s t u : State} {stack : CallStack}
      {calls : List ActiveCall} :
    Proceeds interner p s (.enter f args line next) t →
    t.stack.push ⟨f.name, line⟩ = .ok stack →
    Reaches interner ((Task.body f.decl.body).plan interner) (t.entered f args stack) calls q u →
    Reaches interner p s (⟨f.name, line⟩ :: calls) q u

/-- What is reached from a moment is reached, with the calls entered meanwhile added. -/
theorem Reaches.trans {interner : Interner} {α β γ : Type} {p : Plan α} {q : Plan β}
    {q' : Plan γ} {s t u : State} {calls calls' : List ActiveCall}
    (h : Reaches interner p s calls q t) (h' : Reaches interner q t calls' q' u) :
    Reaches interner p s (calls ++ calls') q' u := by
  induction h with
  | proceed h =>
    cases h' with
    | proceed h' => exact .proceed (h.trans h')
    | ask h' hsub => exact .ask (h.trans h') hsub
    | enter h' hpush hsub => exact .enter (h.trans h') hpush hsub
  | ask h _ ih => exact .ask h (ih h')
  | enter h hpush _ ih => exact .enter h hpush (ih h')

end BindOnce

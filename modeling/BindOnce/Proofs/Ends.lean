import BindOnce.Proofs.Steps

/-!
# How plans end

`Ends p s r t` says that the plan `p`, carried out from the state `s`, ends with the result `r` and
leaves the state `t`.  It is an inductive relation, so it holds only of what ends after finitely
many steps.  Its rules know nothing of how much room is left under the limit on active calls: to
enter a function is to push a call, to carry out the body, and to pop the call again.

## What is here

* `Ends` — the rules.
* `Ends.stack_eq` — the active calls are afterwards what they were before, however it ended.
* `Ends.unique` — a plan ends in one way only.
* `Ends.mayGive` — what a task results in is among what `Task.MayGive` allows.
-/

set_option autoImplicit false
namespace BindOnce

/-- The state in which the body of a call starts. -/
def State.entered (s : State) (f : Func) (args : List Value) (stack : CallStack) : State :=
  { s with env := s.env.overlay (f.bindings args), stack := stack }

/-- The state after a call, for a body that left `t`: the environment is the caller's again, and
the call is popped. -/
def State.left (s t : State) : State := { t with env := s.env, stack := t.stack.pop }

/-- The plan, carried out from the first state, ends with the result and leaves the second state. -/
inductive Ends (interner : Interner) : {α : Type} → Plan α → State → Except Failure α → State → Prop
    where
  | done {α : Type} {r : Except Failure α} {s : State} : Ends interner (.done r) s r s
  | readEnv {α : Type} {next : Env → Plan α} {s t : State} {r : Except Failure α} :
    Ends interner (next s.env) s r t → Ends interner (.readEnv next) s r t
  | makeList {α : Type} {items : List Value} {next : Value → Plan α} {s t : State}
      {r : Except Failure α} :
    Ends interner (next (s.lists.make items).1) { s with lists := (s.lists.make items).2 } r t →
    Ends interner (.makeList items next) s r t
  | printLine {α : Type} {line : String} {next : Plan α} {s t : State} {r : Except Failure α} :
    Ends interner next { s with channel := s.channel.writeLine line } r t →
    Ends interner (.printLine line next) s r t
  | bindOr {α : Type} {cause : Cause} {x : Name} {v : Value} {next : Plan α} {s t : State}
      {env : Env} {r : Except Failure α} :
    s.env.bind? x v = some env → Ends interner next { s with env := env } r t →
    Ends interner (.bindOr cause x v next) s r t
  /-- The name has a value. -/
  | bound {α : Type} {cause : Cause} {x : Name} {v : Value} {next : Plan α} {s : State} :
    s.env.bind? x v = none →
    Ends interner (.bindOr cause x v next) s (.error { cause := cause }) s
  | ask {α β : Type} {task : Task β} {next : β → Plan α} {s t u : State} {b : β}
      {r : Except Failure α} :
    Ends interner (task.plan interner) s (.ok b) t → Ends interner (next b) t r u →
    Ends interner (.ask task next) s r u
  /-- The task fails. -/
  | askFails {α β : Type} {task : Task β} {next : β → Plan α} {s t : State} {e : Failure} :
    Ends interner (task.plan interner) s (.error e) t →
    Ends interner (.ask task next) s (.error e) t
  | enter {α : Type} {f : Func} {args : List Value} {line : Line} {next : Value → Plan α}
      {s t u : State} {stack : CallStack} {v : Value} {r : Except Failure α} :
    s.stack.push ⟨f.name, line⟩ = .ok stack →
    Ends interner ((Task.body f.decl.body).plan interner) (s.entered f args stack) (.ok v) t →
    Ends interner (next v) (s.left t) r u →
    Ends interner (.enter f args line next) s r u
  /-- The body fails. -/
  | enterFails {α : Type} {f : Func} {args : List Value} {line : Line} {next : Value → Plan α}
      {s t : State} {stack : CallStack} {e : Failure} :
    s.stack.push ⟨f.name, line⟩ = .ok stack →
    Ends interner ((Task.body f.decl.body).plan interner) (s.entered f args stack) (.error e) t →
    Ends interner (.enter f args line next) s (.error e) (s.left t)
  /-- The call would exceed the limit. -/
  | refused {α : Type} {f : Func} {args : List Value} {line : Line} {next : Value → Plan α}
      {s : State} {e : Failure} :
    s.stack.push ⟨f.name, line⟩ = .error e →
    Ends interner (.enter f args line next) s (.error e) s
  | onLine {α : Type} {line : Line} {rest : Plan α} {s t : State} {a : α} :
    Ends interner rest s (.ok a) t → Ends interner (.onLine line rest) s (.ok a) t
  /-- The failure is marked. -/
  | onLineFails {α : Type} {line : Line} {rest : Plan α} {s t : State} {e : Failure} :
    Ends interner rest s (.error e) t →
    Ends interner (.onLine line rest) s (.error (e.mark line)) t

namespace Ends

variable {interner : Interner} {α : Type} {p : Plan α} {s t : State} {r : Except Failure α}

/-- **Calls are popped as they are pushed.** -/
theorem stack_eq (h : Ends interner p s r t) : t.stack = s.stack := by
  induction h with
  | done => rfl
  | readEnv _ ih => exact ih
  | makeList _ ih => exact ih
  | printLine _ ih => exact ih
  | bindOr _ _ ih => exact ih
  | bound _ => rfl
  | ask _ _ ih₁ ih₂ => exact ih₂.trans ih₁
  | askFails _ ih => exact ih
  | enter hpush _ _ ih₁ ih₂ =>
    refine ih₂.trans ?_
    rw [State.left, ih₁]
    exact CallStack.pop_of_push hpush
  | enterFails hpush _ ih =>
    rw [State.left, ih]
    exact CallStack.pop_of_push hpush
  | refused _ => rfl
  | onLine _ ih => exact ih
  | onLineFails _ ih => exact ih

/-- **A plan ends in one way only.** -/
theorem unique {t' : State} {r' : Except Failure α} (h : Ends interner p s r t)
    (h' : Ends interner p s r' t') : r = r' ∧ t = t' := by
  induction h generalizing t' with
  | done => cases h'; exact ⟨rfl, rfl⟩
  | readEnv _ ih => cases h' with | readEnv h' => exact ih h'
  | makeList _ ih => cases h' with | makeList h' => exact ih h'
  | printLine _ ih => cases h' with | printLine h' => exact ih h'
  | bindOr hb _ ih =>
    cases h' with
    | bindOr hb' h' =>
      cases hb.symm.trans hb'
      exact ih h'
    | bound hb' => cases hb.symm.trans hb'
  | bound hb =>
    cases h' with
    | bindOr hb' _ => cases hb.symm.trans hb'
    | bound _ => exact ⟨rfl, rfl⟩
  | ask _ _ ih₁ ih₂ =>
    cases h' with
    | ask h₁ h₂ =>
      obtain ⟨hb, rfl⟩ := ih₁ h₁
      cases hb
      exact ih₂ h₂
    | askFails h₁ => cases (ih₁ h₁).1
  | askFails _ ih =>
    cases h' with
    | ask h₁ _ => cases (ih h₁).1
    | askFails h₁ =>
      obtain ⟨he, rfl⟩ := ih h₁
      cases he
      exact ⟨rfl, rfl⟩
  | enter hpush _ _ ih₁ ih₂ =>
    cases h' with
    | enter hpush' h₁ h₂ =>
      cases hpush.symm.trans hpush'
      obtain ⟨hv, rfl⟩ := ih₁ h₁
      cases hv
      exact ih₂ h₂
    | enterFails hpush' h₁ =>
      cases hpush.symm.trans hpush'
      cases (ih₁ h₁).1
    | refused hpush' => cases hpush.symm.trans hpush'
  | enterFails hpush _ ih =>
    cases h' with
    | enter hpush' h₁ _ =>
      cases hpush.symm.trans hpush'
      cases (ih h₁).1
    | enterFails hpush' h₁ =>
      cases hpush.symm.trans hpush'
      obtain ⟨he, rfl⟩ := ih h₁
      cases he
      exact ⟨rfl, rfl⟩
    | refused hpush' => cases hpush.symm.trans hpush'
  | refused hpush =>
    cases h' with
    | enter hpush' _ _ => cases hpush.symm.trans hpush'
    | enterFails hpush' _ => cases hpush.symm.trans hpush'
    | refused hpush' =>
      cases hpush.symm.trans hpush'
      exact ⟨rfl, rfl⟩
  | onLine _ ih =>
    cases h' with
    | onLine h₁ => exact ih h₁
    | onLineFails h₁ => cases (ih h₁).1
  | onLineFails _ ih =>
    cases h' with
    | onLine h₁ => cases (ih h₁).1
    | onLineFails h₁ =>
      obtain ⟨he, rfl⟩ := ih h₁
      cases he
      exact ⟨rfl, rfl⟩

/-- The operators do not result in the mention of a name. -/
theorem ne_mention_of_binaryPlan {op : Token} {left right : Operand} {ident : Identifier Name} :
    ¬ Ends interner (op.binaryPlan interner left right) s (.ok (.mention ident)) t := by
  intro h
  unfold Token.binaryPlan at h
  split at h
  · cases h
  · cases left with
    | mention target =>
      cases h with
      | readEnv h => cases h with | bindOr _ h => cases h
    | value v => cases h
  · cases h with
    | readEnv h => cases h with | ask _ h => cases h

theorem ne_mention_of_unaryPlan {op : Token} {operand : Value} {ident : Identifier Name} :
    ¬ Ends interner (op.unaryPlan operand) s (.ok (.mention ident)) t := by
  intro h
  unfold Token.unaryPlan at h
  split at h
  · cases h
  · rename_i operator _
    generalize hr : (operator.apply operand).map Operand.value = r at h
    cases h
    cases h : operator.apply operand <;> simp [h, Except.map] at hr

theorem mentioned?_eq {ident : Identifier Name} : ∀ (e : Expr Name) {s t : State},
    Ends interner (e.plan interner) s (.ok (.mention ident)) t → e.mentioned? = some ident
  | .literal _, _, _, h => by cases h
  | .variable _, _, _, h => by cases h; rfl
  | .group inner, _, _, h => by
    cases h with
    | ask h hdone =>
      cases hdone
      exact mentioned?_eq inner h
  | .binary .., _, _, h => by
    cases h with
    | onLine h =>
      cases h with
      | ask _ h => cases h with | ask _ h => exact absurd h ne_mention_of_binaryPlan
  | .unary .., _, _, h => by
    cases h with
    | onLine h => cases h with | ask _ h => exact absurd h ne_mention_of_unaryPlan
  | .call callee args, s, _, h => by
    cases h with
    | readEnv h =>
      dsimp only at h
      split at h
      · cases h with
        | ask _ h => cases h with | enter _ _ h => cases h
      · cases h
      · cases h
  | .list _, _, _, h => by
    cases h with
    | ask _ h => cases h with | makeList h => cases h

theorem mayGive {task : Task α} {a : α} (h : Ends interner (task.plan interner) s (.ok a) t) :
    task.MayGive a := by
  cases task with
  | expr e =>
    cases a with
    | mention ident => exact mentioned?_eq e h
    | value v => trivial
  | _ => trivial

end Ends
end BindOnce

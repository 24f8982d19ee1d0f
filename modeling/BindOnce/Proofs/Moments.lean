import BindOnce.Proofs.Course

/-!
# What holds at all moments

`Reaches` says which moments an evaluation comes to.  To show that something holds at all of them
one follows the evaluation step by step: it holds now, and it holds at the moments from the next
step on.  Steps that start something else, a task or the body of a function, add the moments of
that.  This file has one such rule for every rule of `Ends`, so that no other proof has to take
`Reaches` apart.

## What is here

* `Throughout interner p s C` — at all moments of carrying out `p` from `s`, `C` holds of the plan
  that is about to be carried out and the state.
* `Throughout.readEnv`, `Throughout.ask` and so on — the rules.
* `Ends.lists_next_le`, `Ends.lists_next_throughout` — the numbering of lists only goes up.
-/

set_option autoImplicit false
namespace BindOnce

/-- A plan that is about to be carried out from a state. -/
structure Moment where
  {α : Type}
  plan : Plan α
  state : State

/-- `C` holds at all moments of carrying out the plan from the state, also within what it starts. -/
def Throughout (interner : Interner) {α : Type} (p : Plan α) (s : State) (C : Moment → Prop) :
    Prop :=
  ∀ (calls : List ActiveCall) (m : Moment), Reaches interner p s calls m.plan m.state → C m

/-- At all moments of what the first step starts, `C` holds. -/
def ThroughoutStart (interner : Interner) {α : Type} (C : Moment → Prop) : Plan α → State → Prop
  | .ask task _, s => Throughout interner (task.plan interner) s C
  | .enter f args line _, s => ∀ stack, s.stack.push ⟨f.name, line⟩ = .ok stack →
    Throughout interner ((Task.body f.decl.body).plan interner) (s.entered f args stack) C
  | _, _ => True

namespace Throughout

variable {interner : Interner} {α : Type} {p : Plan α} {s : State} {C D : Moment → Prop}

theorem here (h : Throughout interner p s C) : C ⟨p, s⟩ := h [] ⟨p, s⟩ (.proceed .here)

theorem mono (h : Throughout interner p s C) (hCD : ∀ m, C m → D m) : Throughout interner p s D :=
  fun calls m hreach => hCD m (h calls m hreach)

/-- It is enough to go through the rests of the plan, with what they start. -/
theorem intro
    (h : ∀ q t, Proceeds interner p s q t → C ⟨q, t⟩ ∧ ThroughoutStart interner C q t) :
    Throughout interner p s C := by
  intro calls m hreach
  obtain ⟨q, t⟩ := m
  cases hreach with
  | proceed hp => exact (h q t hp).1
  | ask hp hsub => exact (h _ _ hp).2 _ ⟨q, t⟩ hsub
  | enter hp hpush hsub => exact (h _ _ hp).2 _ hpush _ ⟨q, t⟩ hsub

theorem elim (h : Throughout interner p s C) {q : Plan α} {t : State}
    (hp : Proceeds interner p s q t) : C ⟨q, t⟩ ∧ ThroughoutStart interner C q t := by
  refine ⟨h [] ⟨q, t⟩ (.proceed hp), ?_⟩
  cases q with
  | ask task next => exact fun calls m hsub => h calls m (.ask hp hsub)
  | enter f args line next =>
    exact fun stack hpush calls m hsub => h (_ :: calls) m (.enter hp hpush hsub)
  | _ => trivial

/-! ## One rule for every rule of `Ends` -/

theorem done {r : Except Failure α} (h : C ⟨.done r, s⟩) :
    Throughout interner (.done r) s C := by
  refine intro fun q t hp => ?_
  cases hp
  exact ⟨h, trivial⟩

theorem readEnv {next : Env → Plan α} (h : C ⟨.readEnv next, s⟩)
    (hnext : Throughout interner (next s.env) s C) : Throughout interner (.readEnv next) s C := by
  refine intro fun q t hp => ?_
  cases hp with
  | here => exact ⟨h, trivial⟩
  | readEnv hp => exact hnext.elim hp

theorem makeList {items : List Value} {next : Value → Plan α} (h : C ⟨.makeList items next, s⟩)
    (hnext : Throughout interner (next (s.lists.make items).1)
      { s with lists := (s.lists.make items).2 } C) :
    Throughout interner (.makeList items next) s C := by
  refine intro fun q t hp => ?_
  cases hp with
  | here => exact ⟨h, trivial⟩
  | makeList hp => exact hnext.elim hp

theorem printLine {line : String} {next : Plan α} (h : C ⟨.printLine line next, s⟩)
    (hnext : Throughout interner next { s with channel := s.channel.writeLine line } C) :
    Throughout interner (.printLine line next) s C := by
  refine intro fun q t hp => ?_
  cases hp with
  | here => exact ⟨h, trivial⟩
  | printLine hp => exact hnext.elim hp

theorem bindOr {cause : Cause} {x : Name} {v : Value} {next : Plan α} {env : Env}
    (h : C ⟨.bindOr cause x v next, s⟩) (hb : s.env.bind? x v = some env)
    (hnext : Throughout interner next { s with env := env } C) :
    Throughout interner (.bindOr cause x v next) s C := by
  refine intro fun q t hp => ?_
  cases hp with
  | here => exact ⟨h, trivial⟩
  | bindOr hb' hp =>
    cases hb.symm.trans hb'
    exact hnext.elim hp

theorem bound {cause : Cause} {x : Name} {v : Value} {next : Plan α}
    (h : C ⟨.bindOr cause x v next, s⟩) (hb : s.env.bind? x v = none) :
    Throughout interner (.bindOr cause x v next) s C := by
  refine intro fun q t hp => ?_
  cases hp with
  | here => exact ⟨h, trivial⟩
  | bindOr hb' _ => cases hb.symm.trans hb'

section Ask

variable {β : Type} {task : Task β} {next : β → Plan α} {t : State}

theorem ask {b : β} (h : C ⟨.ask task next, s⟩)
    (hends : Ends interner (task.plan interner) s (.ok b) t)
    (htask : Throughout interner (task.plan interner) s C)
    (hnext : Throughout interner (next b) t C) : Throughout interner (.ask task next) s C := by
  refine intro fun q u hp => ?_
  cases hp with
  | here => exact ⟨h, htask⟩
  | ask hends' hp =>
    obtain ⟨hb, rfl⟩ := hends.unique hends'
    cases hb
    exact hnext.elim hp

theorem askFails {e : Failure} (h : C ⟨.ask task next, s⟩)
    (hends : Ends interner (task.plan interner) s (.error e) t)
    (htask : Throughout interner (task.plan interner) s C) :
    Throughout interner (.ask task next) s C := by
  refine intro fun q u hp => ?_
  cases hp with
  | here => exact ⟨h, htask⟩
  | ask hends' _ => cases (hends.unique hends').1

end Ask

section Enter

variable {f : Func} {args : List Value} {line : Line} {next : Value → Plan α} {stack : CallStack}
  {t : State}

theorem throughoutStart_enter (hpush : s.stack.push ⟨f.name, line⟩ = .ok stack)
    (hbody : Throughout interner ((Task.body f.decl.body).plan interner) (s.entered f args stack)
      C) :
    ThroughoutStart interner C (.enter f args line next) s := by
  intro stack' hpush'
  cases hpush.symm.trans hpush'
  exact hbody

theorem enter {v : Value} (h : C ⟨.enter f args line next, s⟩)
    (hpush : s.stack.push ⟨f.name, line⟩ = .ok stack)
    (hends : Ends interner ((Task.body f.decl.body).plan interner) (s.entered f args stack)
      (.ok v) t)
    (hbody : Throughout interner ((Task.body f.decl.body).plan interner) (s.entered f args stack) C)
    (hnext : Throughout interner (next v) (s.left t) C) :
    Throughout interner (.enter f args line next) s C := by
  refine intro fun q u hp => ?_
  cases hp with
  | here => exact ⟨h, throughoutStart_enter hpush hbody⟩
  | enter hpush' hends' hp =>
    cases hpush.symm.trans hpush'
    obtain ⟨hv, rfl⟩ := hends.unique hends'
    cases hv
    exact hnext.elim hp

theorem enterFails {e : Failure} (h : C ⟨.enter f args line next, s⟩)
    (hpush : s.stack.push ⟨f.name, line⟩ = .ok stack)
    (hends : Ends interner ((Task.body f.decl.body).plan interner) (s.entered f args stack)
      (.error e) t)
    (hbody : Throughout interner ((Task.body f.decl.body).plan interner) (s.entered f args stack)
      C) :
    Throughout interner (.enter f args line next) s C := by
  refine intro fun q u hp => ?_
  cases hp with
  | here => exact ⟨h, throughoutStart_enter hpush hbody⟩
  | enter hpush' hends' _ =>
    cases hpush.symm.trans hpush'
    cases (hends.unique hends').1

theorem refused {e : Failure} (h : C ⟨.enter f args line next, s⟩)
    (hpush : s.stack.push ⟨f.name, line⟩ = .error e) :
    Throughout interner (.enter f args line next) s C := by
  refine intro fun q u hp => ?_
  cases hp with
  | here => exact ⟨h, fun _ hpush' => by cases hpush.symm.trans hpush'⟩
  | enter hpush' _ _ => cases hpush.symm.trans hpush'

end Enter

theorem onLine {line : Line} {rest : Plan α} (h : C ⟨.onLine line rest, s⟩)
    (hrest : Throughout interner rest s C) : Throughout interner (.onLine line rest) s C := by
  refine intro fun q t hp => ?_
  cases hp with
  | here => exact ⟨h, trivial⟩
  | onLine hp => exact hrest.elim hp

end Throughout

/-! ## The numbering of lists only goes up -/

section ListsNext

variable {interner : Interner} {α : Type} {p : Plan α} {s t : State} {r : Except Failure α}

theorem Ends.lists_next_le (h : Ends interner p s r t) : s.lists.next ≤ t.lists.next := by
  induction h with
  | done => exact Nat.le_refl _
  | readEnv _ ih => exact ih
  | makeList _ ih => exact Nat.le_of_succ_le ih
  | printLine _ ih => exact ih
  | bindOr _ _ ih => exact ih
  | bound _ => exact Nat.le_refl _
  | ask _ _ ih₁ ih₂ => exact Nat.le_trans ih₁ ih₂
  | askFails _ ih => exact ih
  | enter _ _ _ ih₁ ih₂ => exact Nat.le_trans ih₁ ih₂
  | enterFails _ _ ih => exact ih
  | refused _ => exact Nat.le_refl _
  | onLine _ ih => exact ih
  | onLineFails _ ih => exact ih

/-- At all moments the numbering is between where it starts and where it ends. -/
theorem Ends.lists_next_throughout (h : Ends interner p s r t) :
    Throughout interner p s fun m =>
      s.lists.next ≤ m.state.lists.next ∧ m.state.lists.next ≤ t.lists.next := by
  induction h with
  | done => exact .done ⟨Nat.le_refl _, Nat.le_refl _⟩
  | readEnv h ih => exact .readEnv ⟨Nat.le_refl _, h.lists_next_le⟩ ih
  | makeList h ih =>
    have hle := Nat.le_of_succ_le h.lists_next_le
    exact .makeList ⟨Nat.le_refl _, hle⟩ (ih.mono fun m hm => ⟨Nat.le_of_succ_le hm.1, hm.2⟩)
  | printLine h ih => exact .printLine ⟨Nat.le_refl _, h.lists_next_le⟩ ih
  | bindOr hb h ih => exact .bindOr ⟨Nat.le_refl _, h.lists_next_le⟩ hb ih
  | bound hb => exact .bound ⟨Nat.le_refl _, Nat.le_refl _⟩ hb
  | ask h₁ h₂ ih₁ ih₂ =>
    have hle₁ := h₁.lists_next_le
    have hle₂ := h₂.lists_next_le
    exact .ask ⟨Nat.le_refl _, Nat.le_trans hle₁ hle₂⟩ h₁
      (ih₁.mono fun m hm => ⟨hm.1, Nat.le_trans hm.2 hle₂⟩)
      (ih₂.mono fun m hm => ⟨Nat.le_trans hle₁ hm.1, hm.2⟩)
  | askFails h ih => exact .askFails ⟨Nat.le_refl _, h.lists_next_le⟩ h ih
  | enter hpush h₁ h₂ ih₁ ih₂ =>
    have hle₁ := h₁.lists_next_le
    have hle₂ := h₂.lists_next_le
    exact .enter ⟨Nat.le_refl _, Nat.le_trans hle₁ hle₂⟩ hpush h₁
      (ih₁.mono fun m hm => ⟨hm.1, Nat.le_trans hm.2 hle₂⟩)
      (ih₂.mono fun m hm => ⟨Nat.le_trans hle₁ hm.1, hm.2⟩)
  | enterFails hpush h ih => exact .enterFails ⟨Nat.le_refl _, h.lists_next_le⟩ hpush h ih
  | refused hpush => exact .refused ⟨Nat.le_refl _, Nat.le_refl _⟩ hpush
  | onLine h ih => exact .onLine ⟨Nat.le_refl _, h.lists_next_le⟩ ih
  | onLineFails h ih => exact .onLine ⟨Nat.le_refl _, h.lists_next_le⟩ ih

end ListsNext

end BindOnce

import BindOnce.Proofs.Course
import BindOnce.Proofs.Calling

/-!
# The calls that a plan makes

How an evaluation ends says little about the calls that were made on the way: a call may print, or
fail, or do nothing that could be seen afterwards.  This file keeps a log.  For every call that a
plan makes by itself it has the function, the arguments and the line, the state from which the call
was made, and how it ended.  What is called by the function in turn is left out.

## What is here

* `MadeCall`, `Plan.calls` — the log of a plan.
* `Plan.mem_calls_iff` — it has the calls that carrying out the plan comes to, and no others.
* `CallsInTurn` — calls one after the other, up to the first that fails.  All of them find the same
  environment and the same active calls (`CallsInTurn.frame`).
* `Plan.GoesOn` — a plan that makes some calls in turn, and then something with their results.
* `Plan.goesOn_enterEach`, `Plan.goesOn_enterFold` — the two loops over the items of a list.
-/

set_option autoImplicit false
namespace BindOnce

/-! ## The log -/

/-- A call that has been made: what was called with which arguments, from which state, and how it
ended. -/
structure MadeCall where
  func : Func
  args : List Value
  line : Line
  before : State
  result : Except Failure Value
  after : State

/-- The calls that carrying out the plan from the state makes, in their order. -/
def Plan.calls (interner : Interner) {α : Type} : Plan α → State → List MadeCall
  | .done _, _ => []
  | .readEnv next, s => (next s.env).calls interner s
  | .makeList items next, s =>
    (next (s.lists.make items).1).calls interner { s with lists := (s.lists.make items).2 }
  | .printLine line next, s =>
    next.calls interner { s with channel := s.channel.writeLine line }
  | .bindOr _ x v next, s =>
    match s.env.bind? x v with
    | some env => next.calls interner { s with env := env }
    | none => []
  | .ask task next, s =>
    match task.run interner s with
    | (.ok b, t) => (next b).calls interner t
    | (.error _, _) => []
  | .enter f args line next, s =>
    match callNow interner f args line s with
    | (.ok v, t) => ⟨f, args, line, s, .ok v, t⟩ :: (next v).calls interner t
    | (.error e, t) => [⟨f, args, line, s, .error e, t⟩]
  | .onLine _ rest, s => rest.calls interner s

section Calls

variable {interner : Interner} {α : Type} {f : Func} {args : List Value} {line : Line}
  {next : Value → Plan α} {s t : State}

theorem Plan.calls_enter_of_ok {v : Value} (h : callNow interner f args line s = (.ok v, t)) :
    (Plan.enter f args line next).calls interner s =
      ⟨f, args, line, s, .ok v, t⟩ :: (next v).calls interner t := by
  rw [calls, h]

theorem Plan.calls_enter_of_error {e : Failure}
    (h : callNow interner f args line s = (.error e, t)) :
    (Plan.enter f args line next).calls interner s = [⟨f, args, line, s, .error e, t⟩] := by
  rw [calls, h]

theorem Proceeds.of_callNow {v : Value} {q : Plan α} {u : State}
    (h : callNow interner f args line s = (.ok v, t)) (hq : Proceeds interner (next v) t q u) :
    Proceeds interner (.enter f args line next) s q u := by
  cases Ends.of_callNow h with
  | enter hpush hbody hdone =>
    cases hdone
    exact .enter hpush hbody hq

/-- **The log has the calls that carrying out the plan comes to**, with how they end. -/
theorem Plan.mem_calls_iff {p : Plan α} {c : MadeCall} :
    c ∈ p.calls interner s ↔
      ∃ next, Proceeds interner p s (.enter c.func c.args c.line next) c.before ∧
        callNow interner c.func c.args c.line c.before = (c.result, c.after) := by
  constructor
  · intro hc
    induction p generalizing s with
    | done r => cases hc
    | readEnv next ih =>
      obtain ⟨next, hp, hcall⟩ := ih _ hc
      exact ⟨next, .readEnv hp, hcall⟩
    | makeList items next ih =>
      obtain ⟨next, hp, hcall⟩ := ih _ hc
      exact ⟨next, .makeList hp, hcall⟩
    | printLine line next ih =>
      obtain ⟨next, hp, hcall⟩ := ih hc
      exact ⟨next, .printLine hp, hcall⟩
    | bindOr cause x v next ih =>
      rw [calls] at hc
      split at hc
      · rename_i hb
        obtain ⟨next, hp, hcall⟩ := ih hc
        exact ⟨next, .bindOr hb hp, hcall⟩
      · cases hc
    | ask task next ih =>
      rw [calls] at hc
      split at hc
      · rename_i hrun
        obtain ⟨next, hp, hcall⟩ := ih _ hc
        exact ⟨next, .ask (Ends.iff_run.2 hrun) hp, hcall⟩
      · cases hc
    | enter f args line next ih =>
      rw [calls] at hc
      split at hc
      · rename_i hrun
        rcases List.mem_cons.1 hc with rfl | hc
        · exact ⟨next, .here, hrun⟩
        · obtain ⟨next, hp, hcall⟩ := ih _ hc
          exact ⟨next, .of_callNow hrun hp, hcall⟩
      · rename_i hrun
        cases List.mem_singleton.1 hc
        exact ⟨next, .here, hrun⟩
    | onLine line rest ih =>
      obtain ⟨next, hp, hcall⟩ := ih hc
      exact ⟨next, .onLine hp, hcall⟩
  · rintro ⟨next, hp, hcall⟩
    generalize hq : Plan.enter c.func c.args c.line next = q at hp
    generalize hu : c.before = u at hp
    induction hp with
    | here =>
      subst hq hu
      rw [calls, hcall]
      rcases c with ⟨f, args, line, before, _ | _, after⟩ <;> exact List.mem_cons_self
    | readEnv _ ih => exact ih hq hu
    | makeList _ ih => exact ih hq hu
    | printLine _ ih => exact ih hq hu
    | bindOr hb _ ih =>
      rw [calls, hb]
      exact ih hq hu
    | ask h _ ih =>
      rw [calls, Ends.iff_run.1 h]
      exact ih hq hu
    | enter hpush hbody _ ih =>
      rw [calls_enter_of_ok (callNow_of_body hpush (Ends.iff_run.1 hbody))]
      exact List.mem_cons_of_mem _ (ih hq hu)
    | onLine _ ih => exact ih hq hu

end Calls

/-! ## Calls in turn -/

/-- The calls are made one after the other, the first from the one state, each of the others from
the state that the call before left, up to the first call that fails.  They leave the other state.
If none fails the results come together. -/
inductive CallsInTurn (interner : Interner) :
    State → List MadeCall → Except Failure (List Value) → State → Prop where
  | done {s : State} : CallsInTurn interner s [] (.ok []) s
  | call {f : Func} {args : List Value} {line : Line} {s t u : State} {v : Value}
      {calls : List MadeCall} {r : Except Failure (List Value)} :
    callNow interner f args line s = (.ok v, t) → CallsInTurn interner t calls r u →
    CallsInTurn interner s (⟨f, args, line, s, .ok v, t⟩ :: calls) (r.map (v :: ·)) u
  | fails {f : Func} {args : List Value} {line : Line} {s t : State} {e : Failure} :
    callNow interner f args line s = (.error e, t) →
    CallsInTurn interner s [⟨f, args, line, s, .error e, t⟩] (.error e) t

namespace CallsInTurn

variable {interner : Interner} {s t : State} {calls : List MadeCall}
  {r : Except Failure (List Value)}

/-- **All calls find the same environment and the same active calls**, and leave them so. -/
theorem frame (h : CallsInTurn interner s calls r t) :
    (∀ c ∈ calls, c.before.env = s.env ∧ c.before.stack = s.stack) ∧
      t.env = s.env ∧ t.stack = s.stack := by
  induction h with
  | done => exact ⟨List.forall_mem_nil _, rfl, rfl⟩
  | call hcall _ ih =>
    obtain ⟨henv, hstack⟩ := callNow_frame hcall
    rw [henv, hstack] at ih
    exact ⟨List.forall_mem_cons.2 ⟨⟨rfl, rfl⟩, ih.1⟩, ih.2⟩
  | fails hcall =>
    exact ⟨List.forall_mem_singleton.2 ⟨rfl, rfl⟩, callNow_frame hcall⟩

theorem results_eq (h : CallsInTurn interner s calls r t) :
    ∀ vs, r = .ok vs → calls.map (·.result) = vs.map .ok := by
  induction h with
  | done =>
    rintro _ ⟨⟩
    rfl
  | @call _ _ _ _ _ _ v _ r _ _ ih =>
    cases r with
    | ok vs =>
      rintro _ ⟨⟩
      simp [ih vs rfl]
    | error e => nofun
  | fails _ => nofun

theorem length_eq {vs : List Value} (h : CallsInTurn interner s calls (.ok vs) t) :
    vs.length = calls.length := by
  simpa using (congrArg List.length (h.results_eq vs rfl)).symm

/-- None of the results is a truth value. -/
theorem kind_ne_boolean (h : CallsInTurn interner s calls r t) :
    ∀ vs, r = .ok vs → ∀ v ∈ vs, v.kind ≠ .boolean := by
  induction h with
  | done =>
    rintro _ ⟨⟩
    nofun
  | @call _ _ _ _ _ _ v _ r hcall _ ih =>
    cases r with
    | ok vs =>
      rintro _ ⟨⟩
      exact List.forall_mem_cons.2 ⟨callNow_kind_ne_boolean hcall, ih vs rfl⟩
    | error e => nofun
  | fails _ => nofun

theorem last_kind_ne_boolean {vs : List Value} (h : CallsInTurn interner s calls (.ok vs) t)
    (hlength : 0 < calls.length) (first : Value) : (vs.getLast?.getD first).kind ≠ .boolean := by
  rw [← h.length_eq] at hlength
  have hvs : vs ≠ [] := List.length_pos_iff.1 hlength
  rw [List.getLast?_eq_some_getLast hvs]
  exact h.kind_ne_boolean vs rfl _ (List.getLast_mem hvs)

end CallsInTurn

/-! ## Plans that make calls in turn -/

section GoesOn

variable {interner : Interner} {α : Type}

/-- Carried out from the one state, the plan makes the calls, which leave the other state.  Then it
fails with what one of them has failed with, or goes on with what `next` has for the results. -/
def Plan.GoesOn (interner : Interner) (p : Plan α) (s : State) (calls : List MadeCall)
    (r : Except Failure (List Value)) (t : State) (next : List Value → Plan α) : Prop :=
  (p.calls interner s = calls ++
    match r with
    | .ok vs => (next vs).calls interner t
    | .error _ => []) ∧
  p.runWith interner (callNow interner) s =
    match r with
    | .ok vs => (next vs).runWith interner (callNow interner) t
    | .error e => (.error e, t)

section Places

variable {β : Type} {P : Nat → β → Prop}

theorem forall_getElem?_nil : ∀ (k : Nat) (b : β), ([] : List β)[k]? = some b → P k b := by
  intro k b h
  rw [List.getElem?_nil] at h
  cases h

theorem forall_getElem?_cons {b : β} {bs : List β} (h : P 0 b)
    (hbs : ∀ (k : Nat) (c : β), bs[k]? = some c → P (k + 1) c) :
    ∀ (k : Nat) (c : β), (b :: bs)[k]? = some c → P k c
  | 0, _, rfl => h
  | k + 1, c, hc => hbs k c hc

end Places

variable {f : Func} {args : List Value} {line : Line} {s t u : State}

theorem Plan.GoesOn.call {v : Value} {rest : Value → Plan α} {calls : List MadeCall}
    {r : Except Failure (List Value)} {next : List Value → Plan α}
    (hcall : callNow interner f args line s = (.ok v, t))
    (h : (rest v).GoesOn interner t calls r u fun vs => next (v :: vs)) :
    (Plan.enter f args line rest).GoesOn interner s (⟨f, args, line, s, .ok v, t⟩ :: calls)
      (r.map (v :: ·)) u next := by
  obtain ⟨hcalls, hrun⟩ := h
  constructor
  · rw [calls_enter_of_ok hcall, hcalls, List.cons_append]
    cases r <;> rfl
  · rw [runWith, EvalM.bind_apply, hcall]
    refine hrun.trans ?_
    cases r <;> rfl

theorem Plan.GoesOn.fails {e : Failure} {rest : Value → Plan α} {next : List Value → Plan α}
    (hcall : callNow interner f args line s = (.error e, t)) :
    (Plan.enter f args line rest).GoesOn interner s [⟨f, args, line, s, .error e, t⟩] (.error e) t
      next :=
  ⟨calls_enter_of_error hcall, by rw [runWith, EvalM.bind_apply, hcall]⟩

/-- Of a plan that makes no further calls these are all. -/
theorem Plan.GoesOn.calls_eq_of_silent {p : Plan α} {calls : List MadeCall}
    {r : Except Failure (List Value)} {next : List Value → Plan α}
    (h : p.GoesOn interner s calls r t next) (hnext : ∀ vs, (next vs).calls interner t = []) :
    p.calls interner s = calls := by
  refine h.1.trans ?_
  cases r with
  | ok vs => exact (congrArg (calls ++ ·) (hnext vs)).trans (List.append_nil calls)
  | error e => exact List.append_nil calls

/-- **A call for every item.**  The calls do not depend on what is done with their results. -/
theorem Plan.goesOn_enterEach (interner : Interner) (f : Func) (line : Line) (list : Value)
    (items : List Value) (n : Nat) (s : State) :
    ∃ (calls : List MadeCall) (r : Except Failure (List Value)) (t : State),
      CallsInTurn interner s calls r t ∧
      (∀ (k : Nat) (c : MadeCall), calls[k]? = some c → c.func = f ∧ c.line = line ∧
        ∃ item, items[k]? = some item ∧ c.args = [item, .ofIndex (n + k), list]) ∧
      (∀ vs, r = .ok vs → calls.length = items.length) ∧
      ∀ next : List Value → Plan α,
        (Plan.enterEach f line list (items.zipIdx n) next).GoesOn interner s calls r t next := by
  induction items generalizing n s with
  | nil =>
    exact ⟨[], .ok [], s, .done, forall_getElem?_nil, fun _ _ => rfl, fun next => ⟨rfl, rfl⟩⟩
  | cons item items ih =>
    generalize hcall : callNow interner f [item, .ofIndex n, list] line s = outcome
    obtain ⟨e | v, t⟩ := outcome
    · exact ⟨_, .error e, t, .fails hcall,
        forall_getElem?_cons ⟨rfl, rfl, item, rfl, rfl⟩ forall_getElem?_nil, nofun,
        fun next => .fails hcall⟩
    · obtain ⟨calls, r, u, hcalls, hargs, hlength, hnext⟩ := ih (n + 1) t
      refine ⟨_, r.map (v :: ·), u, .call hcall hcalls,
        forall_getElem?_cons ⟨rfl, rfl, item, rfl, rfl⟩ fun k c hc => ?_, ?_,
        fun next => .call hcall (hnext _)⟩
      · rw [show n + (k + 1) = n + 1 + k by omega]
        exact hargs k c hc
      · cases r with
        | ok vs => exact fun _ _ => congrArg (· + 1) (hlength vs rfl)
        | error e => nofun

/-- What has been combined before the call in the given place: the result of the call before. -/
def MadeCall.combinedBefore (first : Value) (calls : List MadeCall) : Nat → Option Value
  | 0 => some first
  | k + 1 => calls[k]?.bind (·.result.toOption)

theorem MadeCall.combinedBefore_cons (first v : Value) (c : MadeCall) (calls : List MadeCall)
    (hc : c.result = .ok v) : ∀ k : Nat,
    combinedBefore first (c :: calls) (k + 1) = combinedBefore v calls k
  | 0 => by simp [combinedBefore, hc, Except.toOption]
  | k + 1 => by simp [combinedBefore]

/-- **Calls that combine.**  The last result is what comes out. -/
theorem Plan.goesOn_enterFold (interner : Interner) (f : Func) (line : Line) (list acc : Value)
    (items : List Value) (n : Nat) (s : State) :
    ∃ (calls : List MadeCall) (r : Except Failure (List Value)) (t : State),
      CallsInTurn interner s calls r t ∧
      (∀ (k : Nat) (c : MadeCall), calls[k]? = some c → c.func = f ∧ c.line = line ∧
        ∃ before item, MadeCall.combinedBefore acc calls k = some before ∧
          items[k]? = some item ∧ c.args = [before, item, .ofIndex (n + k), list]) ∧
      (∀ vs, r = .ok vs → calls.length = items.length) ∧
      (Plan.enterFold f line list acc (items.zipIdx n)).GoesOn interner s calls r t
        fun vs => .ok (vs.getLast?.getD acc) := by
  induction items generalizing n s acc with
  | nil => exact ⟨[], .ok [], s, .done, forall_getElem?_nil, fun _ _ => rfl, rfl, rfl⟩
  | cons item items ih =>
    generalize hcall : callNow interner f [acc, item, .ofIndex n, list] line s = outcome
    obtain ⟨e | v, t⟩ := outcome
    · exact ⟨_, .error e, t, .fails hcall,
        forall_getElem?_cons ⟨rfl, rfl, acc, item, rfl, rfl, rfl⟩ forall_getElem?_nil, nofun,
        .fails hcall⟩
    · obtain ⟨calls, r, u, hcalls, hargs, hlength, hnext⟩ := ih v (n + 1) t
      refine ⟨_, r.map (v :: ·), u, .call hcall hcalls,
        forall_getElem?_cons ⟨rfl, rfl, acc, item, rfl, rfl, rfl⟩ fun k c hc => ?_, ?_,
        .call hcall ?_⟩
      · -- to the calls that follow, the result of this one is what has been combined before
        rw [MadeCall.combinedBefore_cons acc v _ calls rfl,
          show n + (k + 1) = n + 1 + k by omega]
        exact hargs k c hc
      · cases r with
        | ok vs => exact fun _ _ => congrArg (· + 1) (hlength vs rfl)
        | error e => nofun
      · simpa [List.getLast?_cons] using hnext

end GoesOn
end BindOnce

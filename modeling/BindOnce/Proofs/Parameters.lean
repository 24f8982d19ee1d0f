import BindOnce.Proofs.Calling

/-!
# Arguments and parameters

A call evaluates its arguments first, from the left to the right and all of them, whether or not
there are parameters for them.  Then it looks at the limit on active calls.  Only then do arguments
meet parameters, by position: what is left over of the arguments is dropped, and the parameters that
are left over are not bound at all.

Since the body starts with the bindings of its caller, "not bound" does not mean "without a value".
A parameter that is left over has whatever value the name has for the caller.  A function that calls
itself with fewer arguments than it has been called with sees its own values again.

## What is here

* `Argument.InTurn` — arguments evaluated one after the other, up to the first that fails.
* `Func.lookup_overlay_bindings_of_last`, `Func.lookup_overlay_bindings_of_forall_ne` — the
  environment of a body, by the positions of the parameters.
* `Spawns.of_call` — the state in which a call starts the body.
* `arguments_bind_by_position` — what a call does with its arguments.
* `unmatched_parameter_is_the_callers` — what it does with parameters that are left over.
-/

set_option autoImplicit false
namespace BindOnce

/-! ## Arguments in turn -/

/-- The arguments are evaluated one after the other, the first from the one state, each of the
others from the state that the one before left, up to the first that fails.  They leave the other
state.  If none fails the values come together. -/
inductive Argument.InTurn (interner : Interner) :
    State → List Argument → Except Failure (List Value) → State → Prop where
  | done {s : State} : InTurn interner s [] (.ok []) s
  | next {a : Argument} {args : List Argument} {s t u : State} {v : Value}
      {r : Except Failure (List Value)} :
    a.run interner s = (.ok v, t) → InTurn interner t args r u →
    InTurn interner s (a :: args) (r.map (v :: ·)) u
  | fails {a : Argument} {args : List Argument} {s t : State} {e : Failure} :
    a.run interner s = (.error e, t) → InTurn interner s (a :: args) (.error e) t

section InTurn

variable {interner : Interner} {args : List Argument} {s t : State}
  {r : Except Failure (List Value)}

theorem Argument.InTurn.length_eq (h : InTurn interner s args r t) :
    ∀ vs, r = .ok vs → vs.length = args.length := by
  induction h with
  | done =>
    rintro _ ⟨⟩
    rfl
  | @next _ _ _ _ _ v r _ _ ih =>
    cases r with
    | ok vs =>
      rintro _ ⟨⟩
      exact congrArg (· + 1) (ih vs rfl)
    | error e => nofun
  | fails _ => nofun

theorem Argument.InTurn.run_eq (h : InTurn interner s args r t) :
    (Task.arguments args).run interner s = (r, t) := by
  rw [Task.run, Task.runWith, Task.argument_callNow]
  induction h with
  | done => rfl
  | @next _ _ _ _ _ v r ha _ ih =>
    rw [List.mapM_cons, EvalM.bind_apply, ha]
    dsimp only
    rw [EvalM.bind_apply, ih]
    cases r <;> rfl
  | fails ha => rw [List.mapM_cons, EvalM.bind_apply, ha]

theorem Argument.exists_inTurn (interner : Interner) (args : List Argument) (s : State) :
    ∃ r t, InTurn interner s args r t := by
  induction args generalizing s with
  | nil => exact ⟨_, _, .done⟩
  | cons a args ih =>
    rcases ha : a.run interner s with ⟨e | v, t⟩
    · exact ⟨_, _, .fails ha⟩
    · obtain ⟨r, u, h⟩ := ih t
      exact ⟨_, _, .next ha h⟩

theorem Argument.inTurn_iff :
    InTurn interner s args r t ↔ (Task.arguments args).run interner s = (r, t) := by
  refine ⟨InTurn.run_eq, fun h => ?_⟩
  obtain ⟨r', t', h'⟩ := exists_inTurn interner args s
  cases h.symm.trans h'.run_eq
  exact h'

end InTurn

/-! ## The environment of the body -/

namespace Func

/-- The names of the parameters, by position. -/
def paramNames (f : Func) : List Name := f.decl.params.map (·.name)

theorem bindings_getElem?_eq_some_iff {f : Func} {args : List Value} {i : Nat} {x : Name}
    {v : Value} :
    (f.bindings args)[i]? = some (x, v) ↔ f.paramNames[i]? = some x ∧ args[i]? = some v := by
  rw [bindings, List.getElem?_zip_eq_some]
  rfl

/-- Of the parameters of one name the last one counts that has an argument. -/
theorem lookup_overlay_bindings_of_last (f : Func) {args : List Value} (env : Env) {i : Nat}
    {x : Name} {v : Value} (hx : f.paramNames[i]? = some x) (hv : args[i]? = some v)
    (hlast : ∀ j, i < j → j < args.length → f.paramNames[j]? ≠ some x) :
    (env.overlay (f.bindings args)).lookup x = some v := by
  refine env.lookup_overlay_of_last (bindings_getElem?_eq_some_iff.2 ⟨hx, hv⟩) fun j w hij hj => ?_
  obtain ⟨hx, hw⟩ := bindings_getElem?_eq_some_iff.1 hj
  exact hlast j hij (List.getElem?_eq_some_iff.1 hw).1 hx

/-- A name for which there is no argument keeps the binding that it has, parameter or not. -/
theorem lookup_overlay_bindings_of_forall_ne (f : Func) {args : List Value} (env : Env) {x : Name}
    (hx : ∀ j < args.length, f.paramNames[j]? ≠ some x) :
    (env.overlay (f.bindings args)).lookup x = env.lookup x := by
  refine env.lookup_overlay_of_not_mem fun hmem => ?_
  obtain ⟨⟨y, w⟩, hbound, rfl⟩ := List.mem_map.1 hmem
  obtain ⟨j, hj⟩ := List.mem_iff_getElem?.1 hbound
  obtain ⟨hx', hw⟩ := bindings_getElem?_eq_some_iff.1 hj
  exact hx j (List.getElem?_eq_some_iff.1 hw).1 hx'

end Func

/-! ## Calls, step by step -/

section Calls

variable {interner : Interner} {f : Func} {args : List Argument} {line : Line} {s t : State}

theorem Func.run_of_error {e : Failure} (h : Argument.InTurn interner s args (.error e) t) :
    f.run interner args line s = (.error e, t) := by
  rw [← Task.run_call]
  exact Ends.iff_run.1 (.askFails (Ends.iff_run.2 h.run_eq))

theorem Func.run_of_ok {vs : List Value} (h : Argument.InTurn interner s args (.ok vs) t) :
    f.run interner args line s = callNow interner f vs line t := by
  have hargs := h.run_eq
  rw [Task.run, Task.runWith, Task.argument_callNow] at hargs
  rw [Func.run, EvalM.bind_apply, hargs]

/-- A call comes to entering a function only with the values of all its arguments. -/
theorem Proceeds.of_call {g : Func} {vs : List Value} {line' : Line} {next : Value → Plan Value}
    (h : Proceeds interner ((Task.call f args line).plan interner) s (.enter g vs line' next) t) :
    Argument.InTurn interner s args (.ok vs) t ∧ g = f ∧ line' = line := by
  cases h with
  | ask hargs h =>
    cases h with
    | here => exact ⟨Argument.inTurn_iff.2 (Ends.iff_run.1 hargs), rfl, rfl⟩
    | enter _ _ h => cases h

theorem Spawns.body_of_call {vs : List Value} {stack : CallStack}
    (hargs : Argument.InTurn interner s args (.ok vs) t)
    (hpush : t.stack.push ⟨f.name, line⟩ = .ok stack) :
    Spawns interner ⟨.body f.decl.body, t.entered f vs stack⟩ ⟨.call f args line, s⟩ :=
  .enter (.ask (Ends.iff_run.2 hargs.run_eq) .here) hpush

/-- The body starts in the environment that the arguments leave, with the parameters laid over. -/
theorem Spawns.of_call {body : List (Stmt Name)} {start : State}
    (h : Spawns interner ⟨.body body, start⟩ ⟨.call f args line, s⟩) :
    ∃ vs t stack, Argument.InTurn interner s args (.ok vs) t ∧
      t.stack.push ⟨f.name, line⟩ = .ok stack ∧ start = t.entered f vs stack := by
  generalize hb : (⟨.body body, start⟩ : Start) = b at h
  cases h with
  | ask h =>
    cases h with
    | here => cases congrArg Start.body? hb
    | ask _ h => cases h with | enter _ _ h => cases h
  | enter h hpush =>
    obtain ⟨hargs, rfl, rfl⟩ := h.of_call
    cases hb
    exact ⟨_, _, _, hargs, hpush, rfl⟩

end Calls

/-- **Arguments bind by position.**  A call evaluates all its arguments, in order and in the
environment of the caller, before it looks at the limit.  If one fails the call fails so, and comes
to no function to enter.  Otherwise the call is refused if there is no room for it, and if there is,
the body is executed, which then settles the result.  A parameter that has an argument is bound to
it there; of two for one name the later counts.  A name that is no parameter has the binding that it
has for the caller once the arguments are evaluated.  However the call ends, the environment of the
caller is the one that the arguments leave. -/
theorem arguments_bind_by_position (interner : Interner) (f : Func) (args : List Argument)
    (line : Line) (s : State) :
    let outcome := f.run interner args line s
    ∃ (r : Except Failure (List Value)) (t : State),
      Argument.InTurn interner s args r t ∧
      outcome.2.env = t.env ∧ outcome.2.stack = s.stack ∧
      (∀ e, r = .error e → outcome = (.error e, t) ∧
        ∀ g vs line' next u, ¬ Proceeds interner ((Task.call f args line).plan interner) s
          (.enter g vs line' next) u) ∧
      ∀ vs, r = .ok vs → vs.length = args.length ∧
        (s.stack.room = 0 →
          outcome = (.error { cause := .recursionLimit s.stack.maxDepth f.name line }, t)) ∧
        (0 < s.stack.room → ∃ start : State,
          Spawns interner ⟨.body f.decl.body, start⟩ ⟨.call f args line, s⟩ ∧
          start.stack.frames = s.stack.frames.push ⟨f.name, line⟩ ∧
          outcome.1 = ((Task.body f.decl.body).run interner start).1 ∧
          (∀ i x v, f.paramNames[i]? = some x → vs[i]? = some v →
            (∀ j, i < j → j < args.length → f.paramNames[j]? ≠ some x) →
              start.env.lookup x = some v) ∧
          ∀ x, x ∉ f.paramNames → start.env.lookup x = t.env.lookup x) := by
  intro outcome
  obtain ⟨r, t, hargs⟩ := Argument.exists_inTurn interner args s
  have hstack : t.stack = s.stack := (Ends.iff_run.2 hargs.run_eq).stack_eq
  refine ⟨r, t, hargs, ?_⟩
  cases r with
  | error e =>
    have houtcome : outcome = (.error e, t) := Func.run_of_error hargs
    rw [houtcome]
    refine ⟨rfl, hstack, ?_, nofun⟩
    rintro _ ⟨⟩
    refine ⟨rfl, fun g vs line' next u h => ?_⟩
    cases hargs.run_eq.symm.trans h.of_call.1.run_eq
  | ok vs =>
    have houtcome : outcome = callNow interner f vs line t := Func.run_of_ok hargs
    obtain ⟨henv, hstack'⟩ := callNow_frame (r := outcome.1) (t := outcome.2) houtcome.symm
    refine ⟨henv, hstack'.trans hstack, nofun, ?_⟩
    rintro _ ⟨⟩
    have hlength := hargs.length_eq vs rfl
    -- evaluating the arguments leaves the active calls alone, so the room is the same before it
    rw [← hstack, ← hlength]
    refine ⟨rfl, fun hroom => ?_, fun hroom => ?_⟩
    · rw [houtcome, callNow_of_room_eq_zero vs line hroom]
    · obtain ⟨n, hn⟩ := Nat.exists_eq_succ_of_ne_zero (Nat.ne_of_gt hroom)
      obtain ⟨stack, hpush, -⟩ := CallStack.push_of_room_eq_succ hn ⟨f.name, line⟩
      refine ⟨t.entered f vs stack, .body_of_call hargs hpush,
        (CallStack.push_eq_ok_iff.1 hpush).2.2, ?_, fun i x v => ?_, fun x hx => ?_⟩
      · rw [houtcome, callNow_of_body hpush rfl]
        rfl
      · exact f.lookup_overlay_bindings_of_last t.env
      · exact f.lookup_overlay_bindings_of_forall_ne t.env fun j _ hj =>
          hx (List.mem_of_getElem? hj)

/-- A call with two arguments for parameters of one name and a third one that binds a name for the
caller. -/
theorem arguments_bind_by_position_repeated :
    let f : Func := ⟨⟨0, ⟨⟨1⟩, 1⟩, [⟨⟨2⟩, 1⟩, ⟨⟨2⟩, 1⟩], [.return (.variable ⟨⟨3⟩, 1⟩)]⟩, "f"⟩
    let args : List Argument := [.value (.string "a"), .value (.string "b"),
      .expr (.binary (.variable ⟨⟨3⟩, 1⟩) ⟨.equal, 1⟩ (.literal (.string "c")))]
    let s : State := ⟨.empty, { maxDepth := 1, size_le := Nat.zero_le _ }, .buffer "", {}⟩
    0 < s.stack.room ∧ ∃ t start : State,
      Argument.InTurn .new s args (.ok [.string "a", .string "b", .string "c"]) t ∧
      Spawns .new ⟨.body f.decl.body, start⟩ ⟨.call f args 1, s⟩ ∧
      start.env.lookup ⟨2⟩ = some (.string "b") ∧
      start.env.lookup ⟨3⟩ = t.env.lookup ⟨3⟩ ∧
      (f.run .new args 1 s).2.env = t.env := by
  intro f args s
  have hroom : 0 < s.stack.room := by decide
  obtain ⟨r, t, hargs, henv, -, -, hok⟩ := arguments_bind_by_position .new f args 1 s
  have hr : r = .ok [.string "a", .string "b", .string "c"] := (Prod.ext_iff.1 hargs.run_eq).1.symm
  obtain ⟨-, -, hbody⟩ := hok _ hr
  obtain ⟨start, hstart, -, -, hlast, hother⟩ := hbody hroom
  refine ⟨hroom, t, start, hr ▸ hargs, hstart, ?_, hother _ (by decide), henv⟩
  refine hlast 1 _ _ rfl rfl fun j hj hlt => ?_
  obtain rfl : j = 2 := Nat.le_antisymm (Nat.le_of_lt_succ hlt) hj
  exact nofun

/-! ## Parameters without an argument -/

/-- **A parameter without an argument is the caller's.**  If none of the parameters that have an
argument has its name, the body starts with the binding that the caller has for that name, once the
arguments are evaluated, or without one if the caller has none.  In the first case the body cannot
bind it. -/
theorem unmatched_parameter_is_the_callers {interner : Interner} {f : Func} {args : List Argument}
    {line : Line} {s start : State}
    (h : Spawns interner ⟨.body f.decl.body, start⟩ ⟨.call f args line, s⟩) :
    ∃ (vs : List Value) (t : State), Argument.InTurn interner s args (.ok vs) t ∧
      ∀ (i : Nat) (x : Name), args.length ≤ i → f.paramNames[i]? = some x →
        (∀ j < args.length, f.paramNames[j]? ≠ some x) →
          start.env.lookup x = t.env.lookup x ∧
          ∀ v, start.env.bind? x v = none ↔ t.env.lookup x ≠ none := by
  obtain ⟨vs, t, stack, hargs, -, rfl⟩ := h.of_call
  refine ⟨vs, t, hargs, fun i x _ _ hx => ?_⟩
  have hlookup : (t.entered f vs stack).env.lookup x = t.env.lookup x :=
    f.lookup_overlay_bindings_of_forall_ne t.env (hargs.length_eq vs rfl ▸ hx)
  refine ⟨hlookup, fun v => ?_⟩
  rw [Env.bind?_eq_none_iff, hlookup, Option.isSome_iff_ne_none]

/-- A function with two parameters, called with one argument where the second name is bound. -/
theorem unmatched_parameter_is_the_callers_bound :
    let f : Func := ⟨⟨0, ⟨⟨1⟩, 1⟩, [⟨⟨2⟩, 1⟩, ⟨⟨3⟩, 1⟩], [.return (.variable ⟨⟨3⟩, 1⟩)]⟩, "f"⟩
    let args : List Argument := [.value (.string "argument")]
    let s : State :=
      ⟨Env.empty.overlay [(⟨3⟩, .string "caller")],
        { maxDepth := 1, size_le := Nat.zero_le _ }, .buffer "", {}⟩
    ∃ start : State, Spawns .new ⟨.body f.decl.body, start⟩ ⟨.call f args 1, s⟩ ∧
      start.env.lookup ⟨3⟩ = some (.string "caller") := by
  intro f args s
  have hargs : Argument.InTurn .new s args (.ok [.string "argument"]) s := .next rfl .done
  have hstart : Spawns .new ⟨.body f.decl.body, _⟩ ⟨.call f args 1, s⟩ := .body_of_call hargs rfl
  refine ⟨_, hstart, ?_⟩
  obtain ⟨vs, t, hargs', hunmatched⟩ := unmatched_parameter_is_the_callers hstart
  cases hargs.run_eq.symm.trans hargs'.run_eq
  refine (hunmatched 1 ⟨3⟩ (Nat.le_refl 1) rfl fun j hj => ?_).1
  obtain rfl : j = 0 := Nat.lt_one_iff.1 hj
  exact nofun

/-- So it is not the case that parameters without an argument have no value in the body. -/
theorem unmatched_parameter_not_always_unbound :
    ¬ ∀ (interner : Interner) (f : Func) (args : List Argument) (line : Line) (s start : State),
      Spawns interner ⟨.body f.decl.body, start⟩ ⟨.call f args line, s⟩ →
        ∀ (i : Nat) (x : Name), args.length ≤ i → f.paramNames[i]? = some x →
          (∀ j < args.length, f.paramNames[j]? ≠ some x) → start.env.lookup x = none := by
  intro h
  let f : Func := ⟨⟨0, ⟨⟨1⟩, 1⟩, [⟨⟨2⟩, 1⟩, ⟨⟨3⟩, 1⟩], [.return (.variable ⟨⟨3⟩, 1⟩)]⟩, "f"⟩
  let args : List Argument := [.value (.string "argument")]
  let s : State :=
    ⟨Env.empty.overlay [(⟨3⟩, .string "caller")],
      { maxDepth := 1, size_le := Nat.zero_le _ }, .buffer "", {}⟩
  have hargs : Argument.InTurn .new s args (.ok [.string "argument"]) s := .next rfl .done
  have hstart : Spawns .new ⟨.body f.decl.body, _⟩ ⟨.call f args 1, s⟩ := .body_of_call hargs rfl
  have hunbound := h .new f args 1 s _ hstart 1 ⟨3⟩ (Nat.le_refl 1) rfl fun j hj => by
    obtain rfl : j = 0 := Nat.lt_one_iff.1 hj
    exact nofun
  cases hunbound

end BindOnce

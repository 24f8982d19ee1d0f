import BindOnce.Proofs.Matching

/-!
# Matching tasks take matching steps

A lawful matching is respected by everything that evaluation does in one step: showing, comparing
and combining values, binding a name, entering and leaving a function.  So the plans of matching
tasks match (`Task.Matches.plan`), construct by construct.

## What is here

* `Value.Matches.…` — what can be found out about a value is the same for a matching one.
* `BinaryOp.apply_matches`, `UnaryOp.apply_matches` — operators.
* `Env.Matches.…`, `State.Matches.…` — look-ups, bindings, calls.
* `Task.Matches.plan` — the plans of matching tasks, parentheses apart.
-/

set_option autoImplicit false
namespace BindOnce

variable {M : Matching} {interner interner' : Interner}

/-! ## What can be found out about a value -/

namespace Value.Matches

variable {v v' w w' : Value}

theorem kind_eq (h : Value.Matches M v v') : v.kind = v'.kind := by
  cases h <;> rfl

theorem isTrue_eq (h : Value.Matches M v v') : v.isTrue = v'.isTrue := by
  cases h <;> rfl

theorem isTrueWord_eq (h : Value.Matches M v v') : v.isTrueWord = v'.isTrueWord := by
  cases h <;> rfl

theorem worded (h : Value.Matches M v v') : Value.Matches M v.worded v'.worded := by
  cases h with
  | bool b => cases b <;> exact .string _
  | nil => exact .string _
  | number n => exact .number n
  | string s => exact .string s
  | list hid hitems => exact .list hid hitems
  | function hf => exact .function hf

theorem ofLiteral (l : Literal) : Value.Matches M (.ofLiteral l) (.ofLiteral l) := by
  cases l with
  | number n => exact .number n
  | string s => exact .string s
  | bool b => exact .bool b
  | nil => exact .nil

theorem identical_eq (hM : M.Lawful interner interner') (h : Value.Matches M v v')
    (h' : Value.Matches M w w') : v.identical w = v'.identical w' := by
  cases h with
  | list hid _ =>
    cases h' with
    | list hid' _ => simp only [identical, Bool.beq_eq_decide_eq, hM.list_eq_iff hid hid']
    | _ => rfl
  | function hf =>
    cases h' with
    | function hf' => exact hM.func_same hf hf'
    | _ => rfl
  | _ => cases h' <;> rfl

mutual

/-- Matching values are shown alike. -/
theorem display_eq (hM : M.Lawful interner interner') :
    ∀ {v v' : Value}, Value.Matches M v v' → v.display = v'.display
  | _, _, .number _ | _, _, .string _ | _, _, .bool _ | _, _, .nil => rfl
  | _, _, .list _ hitems => by rw [display, display, displayItems_eq hM hitems]
  | _, _, .function hf => by rw [display, display, (hM.func hf).name]

theorem displayItems_eq (hM : M.Lawful interner interner') : ∀ {vs vs' : List Value},
    List.Forall₂ (Value.Matches M) vs vs' → displayItems vs = displayItems vs'
  | _, _, .nil => rfl
  | _, _, .cons h hs => by
    have ih := displayItems_eq hM hs
    have hv := display_eq hM h
    cases h <;> simp_all [displayItems]

end

end Value.Matches

/-! ## Operators -/

/-- A new failure that both evaluations raise. -/
theorem Failure.Matches.of_isNew {e : Failure} (h : e.IsNew) : Failure.Matches M e e :=
  ⟨.same h.2, by rw [h.1]; exact .nil⟩

section Operators

variable {left left' right right' : Value}

theorem BinaryOp.undefinedFor_matches (op : BinaryOp) (hl : Value.Matches M left left')
    (hr : Value.Matches M right right') :
    Failure.Matches M (op.undefinedFor left right) (op.undefinedFor left' right') := by
  rw [undefinedFor, undefinedFor, hl.kind_eq, hr.kind_eq]
  exact .of_isNew ⟨rfl, rfl⟩

theorem repeated_matches (s : String) (count : Float) :
    ResultsMatch M (Value.Matches M) (repeated s count) (repeated s count) := by
  rcases repeated_cases s count with ⟨t, h⟩ | h <;> rw [h]
  · exact .ok (.string t)
  · exact .error (.of_isNew ⟨rfl, rfl⟩)

theorem BinaryOp.onNumbers_matches (op : BinaryOp) {f : Float → Float → Value}
    (hf : ∀ a b, Value.Matches M (f a b) (f a b)) (hl : Value.Matches M left left')
    (hr : Value.Matches M right right') :
    ResultsMatch M (Value.Matches M) (op.onNumbers f left right) (op.onNumbers f left' right') := by
  have hundefined := ResultsMatch.error (R := Value.Matches M) (op.undefinedFor_matches hl hr)
  cases hl with
  | number a =>
    cases hr with
    | number b => exact .ok (hf a b)
    | _ => exact hundefined
  | _ => exact hundefined

theorem BinaryOp.onBools_matches (op : BinaryOp) (f : Bool → Bool → Bool)
    (hl : Value.Matches M left left') (hr : Value.Matches M right right') :
    ResultsMatch M (Value.Matches M) (op.onBools f left right) (op.onBools f left' right') := by
  have hundefined := ResultsMatch.error (R := Value.Matches M) (op.undefinedFor_matches hl hr)
  cases hl with
  | bool a =>
    cases hr with
    | bool b => exact .ok (.bool _)
    | _ => exact hundefined
  | _ => exact hundefined

theorem BinaryOp.plus_matches (hl : Value.Matches M left left')
    (hr : Value.Matches M right right') :
    ResultsMatch M (Value.Matches M) (plus left right) (plus left' right') := by
  have hundefined := ResultsMatch.error (R := Value.Matches M) (add.undefinedFor_matches hl hr)
  cases hl with
  | number a =>
    cases hr with
    | number b => exact .ok (.number _)
    | string t => exact .ok (.string _)
    | _ => exact hundefined
  | string s =>
    cases hr with
    | number b => exact .ok (.string _)
    | string t => exact .ok (.string _)
    | _ => exact hundefined
  | _ => exact hundefined

theorem BinaryOp.times_matches (hl : Value.Matches M left left')
    (hr : Value.Matches M right right') :
    ResultsMatch M (Value.Matches M) (times left right) (times left' right') := by
  have hundefined := ResultsMatch.error (R := Value.Matches M) (mul.undefinedFor_matches hl hr)
  cases hl with
  | number a =>
    cases hr with
    | number b => exact .ok (.number _)
    | string t => exact repeated_matches t a
    | _ => exact hundefined
  | string s =>
    cases hr with
    | number b => exact repeated_matches s b
    | _ => exact hundefined
  | _ => exact hundefined

/-- **Operators on values respect a matching.** -/
theorem BinaryOp.apply_matches (hM : M.Lawful interner interner') (op : BinaryOp)
    (hl : Value.Matches M left left') (hr : Value.Matches M right right') :
    ResultsMatch M (Value.Matches M) (op.apply left right) (op.apply left' right') := by
  cases op with
  | add => exact plus_matches hl hr
  | mul => exact times_matches hl hr
  | sub | div | mod | pow => exact onNumbers_matches _ (fun _ _ => .number _) hl hr
  | lt | le | gt | ge => exact onNumbers_matches _ (fun _ _ => .bool _) hl hr
  | and | or => exact onBools_matches _ _ hl hr
  | eq | notEq =>
    rw [apply, apply, hl.identical_eq hM hr]
    exact .ok (.bool _)
  | assign | pipe | map | reduce | filter => exact .error (undefinedFor_matches _ hl hr)

theorem UnaryOp.apply_matches (op : UnaryOp) {operand operand' : Value}
    (h : Value.Matches M operand operand') :
    ResultsMatch M (Value.Matches M) (op.apply operand) (op.apply operand') := by
  have hundefined : Failure.Matches M { cause := .unaryOperand op operand.kind }
      { cause := .unaryOperand op operand'.kind } := by
    rw [h.kind_eq]
    exact .of_isNew ⟨rfl, rfl⟩
  cases op with
  | not =>
    cases h with
    | bool b => exact .ok (.bool _)
    | number n => exact .ok (.bool _)
    | _ => exact .error hundefined
  | neg =>
    cases h with
    | number n => exact .ok (.number _)
    | _ => exact .error hundefined

end Operators

/-! ## Environments and states -/

namespace Env.Matches

variable {env env' : Env}

theorem empty : Env.Matches M .empty .empty := by
  intro x x' _
  rw [lookup_empty, lookup_empty]
  exact .none

theorem value (h : Env.Matches M env env') {x x' : Name} (hx : M.name x x') :
    Value.Matches M (env.value x) (env'.value x') := by
  have hlookup := h x x' hx
  rw [Env.value, Env.value]
  generalize env.lookup x = found, env'.lookup x' = found' at hlookup ⊢
  cases hlookup with
  | some hv => exact hv
  | none => exact .nil

theorem valueIn (h : Env.Matches M env env') {operand operand' : Operand}
    (ho : Operand.Matches M operand operand') :
    Value.Matches M (operand.valueIn env) (operand'.valueIn env') := by
  cases ho with
  | mention hident => exact h.value hident.name
  | value hv => exact hv

theorem isSome_eq (h : Env.Matches M env env') {x x' : Name} (hx : M.name x x') :
    (env.lookup x).isSome = (env'.lookup x').isSome := by
  have hlookup := h x x' hx
  generalize env.lookup x = found, env'.lookup x' = found' at hlookup ⊢
  cases hlookup <;> rfl

/-- One more binding on each side, whether or not it hides another one. -/
theorem of_lookup (hM : M.Lawful interner interner') (h : Env.Matches M env env') {x x' : Name}
    (hx : M.name x x') {v v' : Value} (hv : Value.Matches M v v') {after after' : Env}
    (hafter : ∀ y, after.lookup y = if x = y then some v else env.lookup y)
    (hafter' : ∀ y, after'.lookup y = if x' = y then some v' else env'.lookup y) :
    Env.Matches M after after' := by
  intro y y' hy
  rw [hafter, hafter']
  by_cases hxy : x = y
  · rw [if_pos hxy, if_pos ((hM.name_eq_iff hx hy).1 hxy)]
    exact .some hv
  · rw [if_neg hxy, if_neg fun hxy' => hxy ((hM.name_eq_iff hx hy).2 hxy')]
    exact h y y' hy

theorem bind (hM : M.Lawful interner interner') (h : Env.Matches M env env') {x x' : Name}
    (hx : M.name x x') {v v' : Value} (hv : Value.Matches M v v') {after after' : Env}
    (hb : env.bind? x v = some after) (hb' : env'.bind? x' v' = some after') :
    Env.Matches M after after' :=
  h.of_lookup hM hx hv (lookup_of_bind? hb) (lookup_of_bind? hb')

theorem overlay (hM : M.Lawful interner interner') {params params' : List (Name × Value)}
    (hparams : List.Forall₂ (fun p p' => M.name p.1 p'.1 ∧ Value.Matches M p.2 p'.2) params params')
    {env env' : Env} (h : Env.Matches M env env') :
    Env.Matches M (env.overlay params) (env'.overlay params') := by
  induction hparams generalizing env env' with
  | nil => exact h
  | @cons p p' ps ps' hp _ ih =>
    rw [← List.singleton_append, ← List.singleton_append, overlay_append, overlay_append]
    refine ih (h.of_lookup hM hp.1 hp.2 (fun y => ?_) fun y => ?_)
    · exact lookup_overlay_singleton env p.1 y p.2
    · exact lookup_overlay_singleton env' p'.1 y p'.2

end Env.Matches

/-- Matching functions bind matching arguments to matching parameters. -/
theorem Func.PartsMatch.bindings {f f' : Func} (h : Func.PartsMatch M f f')
    {args args' : List Value} (hargs : List.Forall₂ (Value.Matches M) args args') :
    List.Forall₂ (fun p p' => M.name p.1 p'.1 ∧ Value.Matches M p.2 p'.2)
      (f.bindings args) (f'.bindings args') := by
  have hparams := h.params
  rw [Func.bindings, Func.bindings]
  generalize f.decl.params = params, f'.decl.params = params' at hparams
  induction hparams generalizing args args' with
  | nil => exact .nil
  | cons hp _ ih =>
    cases hargs with
    | nil => exact .nil
    | cons hv hvs => exact .cons ⟨hp.name, hv⟩ (ih hvs)

namespace State.Matches

variable {s s' t t' : State} {f f' : Func} {args args' : List Value} {frame frame' : ActiveCall}
  {stack stack' : CallStack}

theorem makeList (hM : M.Lawful interner interner') (h : State.Matches M s s')
    {items items' : List Value} (hitems : List.Forall₂ (Value.Matches M) items items') :
    Value.Matches M (s.lists.make items).1 (s'.lists.make items').1 ∧
      State.Matches M { s with lists := (s.lists.make items).2 }
        { s' with lists := (s'.lists.make items').2 } :=
  ⟨.list (hM.list_of_fresh h.lists) hitems,
    h.env, h.limit, h.depth, h.channel, hM.fresh_succ h.lists⟩

theorem printLine (hM : M.Lawful interner interner') (h : State.Matches M s s') (line : String) :
    State.Matches M { s with channel := s.channel.writeLine line }
      { s' with channel := s'.channel.writeLine line } :=
  ⟨h.env, h.limit, h.depth, hM.channel_writeLine line h.channel, h.lists⟩

theorem bind (hM : M.Lawful interner interner') (h : State.Matches M s s') {x x' : Name}
    (hx : M.name x x') {v v' : Value} (hv : Value.Matches M v v') {env env' : Env}
    (hb : s.env.bind? x v = some env) (hb' : s'.env.bind? x' v' = some env') :
    State.Matches M { s with env := env } { s' with env := env' } :=
  ⟨h.env.bind hM hx hv hb hb', h.limit, h.depth, h.channel, h.lists⟩

/-- The same names are free. -/
theorem bind?_ne_none (h : State.Matches M s s') {x x' : Name} (hx : M.name x x') {v v' : Value}
    {env : Env} (hb : s.env.bind? x v = some env) : s'.env.bind? x' v' ≠ none := by
  rw [ne_eq, Env.bind?_eq_none_iff, ← h.env.isSome_eq hx, Env.lookup_eq_none_of_bind? hb]
  exact Bool.false_ne_true

theorem bind?_eq_none (h : State.Matches M s s') {x x' : Name} (hx : M.name x x') {v v' : Value}
    (hb : s.env.bind? x v = none) : s'.env.bind? x' v' = none := by
  rw [Env.bind?_eq_none_iff] at hb ⊢
  rw [← h.env.isSome_eq hx, hb]

/-- Both calls are allowed or neither is. -/
theorem push_ne_error (h : State.Matches M s s') (hpush : s.stack.push frame = .ok stack)
    {e : Failure} : s'.stack.push frame' ≠ .error e := by
  obtain ⟨hlt, -, -⟩ := CallStack.push_eq_ok_iff.1 hpush
  rw [h.limit, h.depth, CallStack.depth] at hlt
  rw [CallStack.push, dif_pos hlt]
  intro heq
  cases heq

theorem push_ne_ok (h : State.Matches M s s') {e : Failure}
    (hpush : s.stack.push frame = .error e) : s'.stack.push frame' ≠ .ok stack' := by
  intro hpush'
  obtain ⟨hlt, -, -⟩ := CallStack.push_eq_ok_iff.1 hpush'
  rw [← h.limit, ← h.depth, CallStack.depth] at hlt
  rw [CallStack.push, dif_pos hlt] at hpush
  cases hpush

theorem exceeded (h : State.Matches M s s') {name : String} {line line' : Line}
    (hline : M.line line line') :
    Failure.Matches M (s.stack.exceeded ⟨name, line⟩) (s'.stack.exceeded ⟨name, line'⟩) := by
  rw [CallStack.exceeded, CallStack.exceeded, h.limit]
  exact ⟨.recursionLimit hline, .nil⟩

theorem entered (hM : M.Lawful interner interner') (h : State.Matches M s s') (hf : M.func f f')
    (hargs : List.Forall₂ (Value.Matches M) args args')
    (hpush : s.stack.push frame = .ok stack) (hpush' : s'.stack.push frame' = .ok stack') :
    State.Matches M (s.entered f args stack) (s'.entered f' args' stack') := by
  obtain ⟨-, hmax, hframes⟩ := CallStack.push_eq_ok_iff.1 hpush
  obtain ⟨-, hmax', hframes'⟩ := CallStack.push_eq_ok_iff.1 hpush'
  have hdepth : stack.depth = stack'.depth := by
    have := h.depth
    rw [CallStack.depth, CallStack.depth] at this ⊢
    rw [hframes, hframes', Array.size_push, Array.size_push, this]
  exact ⟨h.env.overlay hM ((hM.func hf).bindings hargs), by rw [State.entered, State.entered,
    hmax, hmax', h.limit], hdepth, h.channel, h.lists⟩

theorem left (h : State.Matches M s s') (ht : State.Matches M t t') :
    State.Matches M (s.left t) (s'.left t') := by
  refine ⟨h.env, ht.limit, ?_, ht.channel, ht.lists⟩
  have := ht.depth
  simp only [State.left, CallStack.pop, CallStack.depth, Array.size_pop] at this ⊢
  rw [this]

end State.Matches

/-! ## Plans -/

section Plans

variable {α : Type} {R : α → α → Prop}

theorem Plan.Matches.ok {a a' : α} (h : R a a') : Plan.Matches M R (.ok a) (.ok a') :=
  .done (.ok h)

theorem Plan.Matches.fail {cause : Cause} (h : cause.isRecursionLimit = false) :
    Plan.Matches M R (.fail cause) (.fail cause) :=
  .done (.error (.of_isNew ⟨rfl, h⟩))

/-- Matching items stand in the same places. -/
theorem forall₂_zipIdx {R : Value → Value → Prop} {items items' : List Value}
    (h : List.Forall₂ R items items') (n : Nat) :
    List.Forall₂ (fun p p' => R p.1 p'.1 ∧ p.2 = p'.2) (items.zipIdx n) (items'.zipIdx n) := by
  induction h generalizing n with
  | nil => exact .nil
  | cons hv _ ih =>
    rw [List.zipIdx_cons, List.zipIdx_cons]
    exact .cons ⟨hv, rfl⟩ (ih (n + 1))

section Callbacks

variable {f f' : Func} {line line' : Line} {list list' : Value} {items items' : List (Value × Nat)}

theorem Plan.Matches.enterEach (hf : M.func f f') (hline : M.line line line')
    (hlist : Value.Matches M list list')
    (hitems : List.Forall₂ (fun p p' => Value.Matches M p.1 p'.1 ∧ p.2 = p'.2) items items')
    {next next' : List Value → Plan α}
    (hnext : ∀ vs vs', List.Forall₂ (Value.Matches M) vs vs' →
      Plan.Matches M R (next vs) (next' vs')) :
    Plan.Matches M R (.enterEach f line list items next)
      (.enterEach f' line' list' items' next') := by
  induction hitems generalizing next next' with
  | nil => exact hnext [] [] .nil
  | @cons p p' ps ps' hp _ ih =>
    obtain ⟨hv, hindex⟩ := hp
    rw [Plan.enterEach, Plan.enterEach, hindex]
    refine .enter hf (.cons hv (.cons (.number _) (.cons hlist .nil))) hline fun v v' hv => ?_
    exact ih fun vs vs' hvs => hnext _ _ (.cons hv hvs)

theorem Plan.Matches.enterFold (hf : M.func f f') (hline : M.line line line')
    (hlist : Value.Matches M list list')
    (hitems : List.Forall₂ (fun p p' => Value.Matches M p.1 p'.1 ∧ p.2 = p'.2) items items')
    {acc acc' : Value} (hacc : Value.Matches M acc acc') :
    Plan.Matches M (Value.Matches M) (.enterFold f line list acc items)
      (.enterFold f' line' list' acc' items') := by
  induction hitems generalizing acc acc' with
  | nil => exact .ok hacc
  | @cons p p' ps ps' hp _ ih =>
    obtain ⟨hv, hindex⟩ := hp
    rw [Plan.enterFold, Plan.enterFold, hindex]
    refine .enter hf (.cons hacc (.cons hv (.cons (.number _) (.cons hlist .nil)))) hline
      fun v v' hv => ?_
    exact ih hv

theorem Callback.accepted_matches {items items' verdicts verdicts' : List Value}
    (hitems : List.Forall₂ (Value.Matches M) items items')
    (hverdicts : List.Forall₂ (Value.Matches M) verdicts verdicts') :
    List.Forall₂ (Value.Matches M) (accepted items verdicts) (accepted items' verdicts') := by
  induction hitems generalizing verdicts verdicts' with
  | nil => exact .nil
  | cons hv _ ih =>
    cases hverdicts with
    | nil => exact .nil
    | cons hverdict hrest =>
      rw [accepted_cons, accepted_cons, hverdict.isTrueWord_eq]
      split
      · exact .cons hv (ih hrest)
      · exact ih hrest

end Callbacks

/-- **Operators take matching steps.** -/
theorem BinaryOp.plan_matches (hM : M.Lawful interner interner') (op : BinaryOp)
    {line line' : Line} (hline : M.line line line') {left left' right right' : Value}
    (hl : Value.Matches M left left') (hr : Value.Matches M right right') :
    Plan.Matches M (Value.Matches M) (op.plan line left right) (op.plan line' left' right') := by
  have hundefined : Plan.Matches M (Value.Matches M)
      (.fail (.binaryOperands op left.kind right.kind))
      (.fail (.binaryOperands op left'.kind right'.kind)) := by
    rw [hl.kind_eq, hr.kind_eq]
    exact .fail rfl
  cases op with
  | pipe =>
    cases hr with
    | function hf => exact .enter hf (.cons hl .nil) hline fun _ _ hv => .ok hv
    | _ => exact hundefined
  | map =>
    cases hr with
    | function hf =>
      cases hl with
      | list hid hitems =>
        exact .enterEach hf hline (.list hid hitems) (forall₂_zipIdx hitems 0) fun _ _ hvs =>
          .makeList hvs fun _ _ hv => .ok hv
      | _ => exact hundefined
    | _ => cases hl <;> exact hundefined
  | filter =>
    cases hr with
    | function hf =>
      cases hl with
      | list hid hitems =>
        exact .enterEach hf hline (.list hid hitems) (forall₂_zipIdx hitems 0) fun _ _ hvs =>
          .makeList (Callback.accepted_matches hitems hvs) fun _ _ hv => .ok hv
      | _ => exact hundefined
    | _ => cases hl <;> exact hundefined
  | reduce =>
    cases hr with
    | function hf =>
      cases hl with
      | list hid hitems =>
        cases hitems with
        | nil => exact .fail rfl
        | cons hfirst hrest =>
          exact .enterFold hf hline (.list hid (.cons hfirst hrest)) (forall₂_zipIdx hrest 1) hfirst
      | _ => exact hundefined
    | _ =>
      cases hl with
      | list _ hitems => cases hitems <;> exact hundefined
      | _ => exact hundefined
  | _ => exact .done (apply_matches hM _ hl hr)

theorem Operand.assignPlan_matches (hM : M.Lawful interner interner')
    {target target' value value' : Operand} (htarget : Operand.Matches M target target')
    (hvalue : Operand.Matches M value value') :
    Plan.Matches M (Operand.Matches M) (target.assignPlan interner value)
      (target'.assignPlan interner' value') := by
  cases htarget with
  | mention hident =>
    rw [assignPlan, assignPlan, hM.text_eq hident.name]
    exact .readEnv fun env env' henv => .bindOr rfl hident.name (henv.valueIn hvalue)
      (.ok (.value (henv.valueIn hvalue)))
  | value hv => exact .fail rfl

theorem Token.binaryPlan_matches (hM : M.Lawful interner interner') {op op' : Token}
    (hop : Token.Matches M op op') {left left' right right' : Operand}
    (hl : Operand.Matches M left left') (hr : Operand.Matches M right right') :
    Plan.Matches M (Operand.Matches M) (op.binaryPlan interner left right)
      (op'.binaryPlan interner' left' right') := by
  rw [binaryPlan, binaryPlan, hop.kind]
  split
  · exact .fail rfl
  · exact Operand.assignPlan_matches hM hl hr
  · exact .readEnv fun env env' henv =>
      .ask (.operation hop.line (henv.valueIn hl) (henv.valueIn hr)) fun _ _ hv => .ok (.value hv)

theorem Token.unaryPlan_matches {op op' : Token} (hop : Token.Matches M op op')
    {operand operand' : Value} (h : Value.Matches M operand operand') :
    Plan.Matches M (Operand.Matches M) (op.unaryPlan operand) (op'.unaryPlan operand') := by
  rw [unaryPlan, unaryPlan, hop.kind]
  split
  · exact .fail rfl
  · rename_i operator _
    have happly := operator.apply_matches h
    generalize operator.apply operand = r, operator.apply operand' = r' at happly ⊢
    cases happly with
    | ok hv => exact .ok (.value hv)
    | error he => exact .done (.error he)

theorem Identifier.callPlan_matches (hM : M.Lawful interner interner')
    {callee callee' : Identifier Name} (hcallee : Identifier.Matches M callee callee')
    {args args' : List (Expr Name)} (hargs : List.Forall₂ M.expr args args') :
    Plan.Matches M (Operand.Matches M) (callee.callPlan interner args)
      (callee'.callPlan interner' args') := by
  refine .readEnv fun env env' henv => ?_
  have hlookup := henv _ _ hcallee.name
  generalize env.lookup callee.name = found, env'.lookup callee'.name = found' at hlookup
  rw [hM.text_eq hcallee.name]
  cases hlookup with
  | none => exact .fail rfl
  | some hv =>
    cases hv with
    | function hf =>
      exact .ask (.values hargs) fun _ _ hvs => .enter hf hvs hcallee.line fun _ _ hv =>
        .ok (.value hv)
    | _ => exact .fail rfl

/-- Expressions that consist of matching parts take matching steps. -/
theorem Expr.PartsMatch.plan (hM : M.Lawful interner interner') {e e' : Expr Name}
    (h : Expr.PartsMatch M e e') :
    Plan.Matches M (Operand.Matches M) (e.plan interner) (e'.plan interner') := by
  cases h with
  | literal value => exact .ok (.value (.ofLiteral value))
  | «variable» hident => exact .ok (.mention hident)
  | binary hleft hop hright =>
    exact .onLine hop.line (.ask (.expr hleft) fun _ _ hl => .ask (.expr hright) fun _ _ hr =>
      Token.binaryPlan_matches hM hop hl hr)
  | unary hop hoperand =>
    exact .onLine hop.line (.ask (.value hoperand) fun _ _ hv => Token.unaryPlan_matches hop hv)
  | call hcallee hargs => exact Identifier.callPlan_matches hM hcallee hargs
  | list helements =>
    exact .ask (.values helements) fun _ _ hvs => .makeList hvs fun _ _ hv => .ok (.value hv)

theorem Stmt.PartsMatch.plan (hM : M.Lawful interner interner') {s s' : Stmt Name}
    (h : Stmt.PartsMatch M interner interner' s s') :
    Plan.Matches M (Option.Rel (Value.Matches M)) (s.plan interner) (s'.plan interner') := by
  cases h with
  | print he =>
    refine .ask (.value he) fun v v' hv => ?_
    rw [hv.worded.display_eq hM]
    exact .printLine (.ok .none)
  | expression he => exact .ask (.expr he) fun _ _ _ => .ok .none
  | conditional hc hblock =>
    refine .ask (.value hc) fun v v' hv => ?_
    rw [hv.isTrue_eq]
    split
    · exact .ask (.block hblock) fun _ _ hr => .ok hr
    · exact .ok .none
  | conditionalElse hc hblock hother =>
    refine .ask (.value hc) fun v v' hv => ?_
    rw [hv.isTrue_eq]
    split
    · exact .ask (.block hblock) fun _ _ hr => .ok hr
    · exact .ask (.block hother) fun _ _ hr => .ok hr
  | function hname hf =>
    rw [Stmt.plan, Stmt.plan, ← hM.text_eq hname] at *
    exact .bindOr rfl hname (.function hf) (.ok .none)
  | «return» he => exact .ask (.value he) fun _ _ hv => .ok (.some hv.worded)

theorem Stmt.PartsMatch.isReturn_eq {s s' : Stmt Name}
    (h : Stmt.PartsMatch M interner interner' s s') : s.isReturn = s'.isReturn := by
  cases h <;> rfl

/-- **Matching tasks take matching steps**, parentheses apart. -/
theorem Task.Matches.plan (hM : M.Lawful interner interner') {task task' : Task α}
    (h : Task.Matches M task task') :
    Plan.Matches M (M.result task) (task.bare.plan interner) (task'.bare.plan interner') := by
  cases h with
  | expr he => exact (hM.expr he).plan hM
  | value he => exact .ask (.expr he) fun _ _ ho => .readEnv fun _ _ henv => .ok (henv.valueIn ho)
  | values hes =>
    cases hes with
    | nil => exact .ok .nil
    | cons he hes =>
      exact .ask (.value he) fun _ _ hv => .ask (.values hes) fun _ _ hvs => .ok (.cons hv hvs)
  | operation hline hl hr => exact BinaryOp.plan_matches hM _ hline hl hr
  | stmt hs => exact (hM.stmt hs).plan hM
  | block hss =>
    cases hss with
    | nil => exact .ok .none
    | cons hs hrest =>
      cases hrest with
      | nil =>
        refine .ask (.stmt hs) fun _ _ hyielded => ?_
        rw [(hM.stmt hs).isReturn_eq]
        split
        · exact .ok hyielded
        · exact .ok .none
      | cons ht hrest =>
        exact .ask (.stmt hs) fun _ _ _ => .ask (.block (.cons ht hrest)) fun _ _ hr => .ok hr
  | body hss =>
    cases hss with
    | nil => exact .ok .nil
    | cons hs hrest =>
      refine .ask (.stmt hs) fun yielded yielded' hyielded => ?_
      cases hyielded with
      | none => exact .ask (.body hrest) fun _ _ hv => .ok hv
      | some hv => exact .ok hv
  | program hp =>
    cases hp with
    | nil => exact .ok trivial
    | cons hs hrest => exact .ask (.stmt hs) fun _ _ _ => .ask (.program hrest) fun _ _ h => .ok h
  | arguments hargs =>
    cases hargs with
    | nil => exact .ok .nil
    | cons ha hrest =>
      cases ha with
      | expr he =>
        exact .ask (.value he) fun _ _ hv => .ask (.arguments hrest) fun _ _ hvs =>
          .ok (.cons hv hvs)
      | value hv => exact .ask (.arguments hrest) fun _ _ hvs => .ok (.cons hv hvs)
  | call hf hargs hline =>
    exact .ask (.arguments hargs) fun _ _ hvs => .enter hf hvs hline fun _ _ hv => .ok hv

end Plans

end BindOnce

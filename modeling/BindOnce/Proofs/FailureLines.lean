import BindOnce.Proofs.Termination

/-!
# The lines of a failure

A failure carries lines.  They are said to be those of the operators that were being evaluated when
it was raised.  The evaluator does not keep a list of these: it marks the failure on its way out,
and only where it passes an operator.  This file compares the marks with the moment where the
failure was raised.  At every moment there are constructs whose evaluation has begun and not ended,
across calls, callbacks and blocks; the lines of the failure are the lines of the operators among
them, each once, the innermost first.

## What is here

* `Construct`, `Within` — the constructs that are being evaluated at a moment.
* `Plan.Raises`, `Task.Raises` — a failure is raised at a moment.
* `Ends.comesToRaise` — an evaluation that fails comes to such a moment.
* `Plan.Marks`, `Within.fails` — with which lines the failure leaves the evaluation.
* `Plan.quiet`, `Within.operator_of_raises` — the failure of an operator is raised where the
  innermost construct applies an operator.
* `failure_lines_are_operators` — the result, for everything that can be evaluated.
-/

set_option autoImplicit false
namespace BindOnce

/-! ## Moments within constructs -/

/-- A construct of a program. -/
inductive Construct where
  | expr (e : Expr Name)
  | stmt (s : Stmt Name)

/-- The line of the operator, if the construct applies one. -/
def Construct.operatorLine? : Construct → Option Line
  | .expr (.binary _ op _) => some op.line
  | .expr (.unary op _) => some op.line
  | _ => none

/-- The lines of the operators among constructs. -/
def operatorLines (constructs : List Construct) : List Line :=
  constructs.filterMap Construct.operatorLine?

/-- The construct that a task evaluates.  The other tasks are parts of the evaluation of one. -/
def Task.construct? : {α : Type} → Task α → Option Construct
  | _, .expr e => some (.expr e)
  | _, .stmt s => some (.stmt s)
  | _, _ => none

/-- Carrying out the first plan from the first state comes to carrying out the second plan from the
second state, within these constructs: their evaluation has begun and not ended since.  The
innermost comes first. -/
inductive Within (interner : Interner) :
    {α : Type} → Plan α → State → List Construct → {β : Type} → Plan β → State → Prop where
  | proceed {α : Type} {p q : Plan α} {s t : State} :
    Proceeds interner p s q t → Within interner p s [] q t
  /-- Within a task that is asked for. -/
  | ask {α β γ : Type} {p : Plan α} {task : Task β} {next : β → Plan α} {q : Plan γ}
      {s t u : State} {inner : List Construct} :
    Proceeds interner p s (.ask task next) t →
    Within interner (task.plan interner) t inner q u →
    Within interner p s (inner ++ task.construct?.toList) q u
  /-- Within the body of a function that is entered. -/
  | enter {α γ : Type} {p : Plan α} {f : Func} {args : List Value} {line : Line}
      {next : Value → Plan α} {q : Plan γ} {s t u : State} {stack : CallStack}
      {inner : List Construct} :
    Proceeds interner p s (.enter f args line next) t →
    t.stack.push ⟨f.name, line⟩ = .ok stack →
    Within interner ((Task.body f.decl.body).plan interner) (t.entered f args stack) inner q u →
    Within interner p s inner q u

/-- The next step of the plan, taken from the state, raises a failure for the cause. -/
inductive Plan.Raises {α : Type} : Plan α → State → Cause → Prop where
  | fail {cause : Cause} {s : State} : Raises (.fail cause) s cause
  /-- The name has a value. -/
  | bound {cause : Cause} {x : Name} {v : Value} {next : Plan α} {s : State} :
    s.env.bind? x v = none → Raises (.bindOr cause x v next) s cause
  /-- The call would exceed the limit. -/
  | refused {f : Func} {args : List Value} {line : Line} {next : Value → Plan α} {s : State}
      {e : Failure} :
    s.stack.push ⟨f.name, line⟩ = .error e → Raises (.enter f args line next) s e.cause

/-- Evaluating the task from the state comes to a moment within these constructs at which a failure
is raised for the cause. -/
def Task.Raises {α : Type} (interner : Interner) (task : Task α) (s : State) (cause : Cause)
    (constructs : List Construct) : Prop :=
  ∃ (inner : List Construct) (β : Type) (q : Plan β) (t : State),
    Within interner (task.plan interner) s inner q t ∧ q.Raises t cause ∧
      constructs = inner ++ task.construct?.toList

/-! ## What fails has come to such a moment -/

section Raises

variable {interner : Interner} {α β : Type} {p q : Plan α} {s t u : State}

theorem Proceeds.within {q' : Plan β} {constructs : List Construct} (h : Proceeds interner p s q t)
    (h' : Within interner q t constructs q' u) : Within interner p s constructs q' u := by
  cases h' with
  | proceed h' => exact .proceed (h.trans h')
  | ask h' hinner => exact .ask (h.trans h') hinner
  | enter h' hpush hinner => exact .enter (h.trans h') hpush hinner

/-- Some moment of carrying out the plan raises a failure for the cause. -/
def Plan.ComesToRaise (interner : Interner) (p : Plan α) (s : State) (cause : Cause) : Prop :=
  ∃ (constructs : List Construct) (β : Type) (q : Plan β) (t : State),
    Within interner p s constructs q t ∧ q.Raises t cause

theorem Proceeds.comesToRaise {cause : Cause} (h : Proceeds interner p s q t)
    (hq : q.ComesToRaise interner t cause) : p.ComesToRaise interner s cause := by
  obtain ⟨constructs, β, q', u, hwithin, hraises⟩ := hq
  exact ⟨constructs, β, q', u, h.within hwithin, hraises⟩

/-- **What fails has come to a moment at which the failure was raised.** -/
theorem Ends.comesToRaise {r : Except Failure α} (h : Ends interner p s r t) {P : Plan.Conditions}
    (hp : p.All P) (hP : ∀ e : Failure, P.failure e → e.IsNew) {e : Failure} (hr : r = .error e) :
    p.ComesToRaise interner s e.cause := by
  induction h generalizing P e with
  | @done α r s =>
    cases hr
    obtain ⟨cause, trail⟩ := e
    obtain rfl : trail = [] := (hP _ hp).1
    exact ⟨[], α, _, s, .proceed .here, .fail⟩
  | readEnv _ ih => exact (Proceeds.readEnv .here).comesToRaise (ih (hp _) hP hr)
  | makeList _ ih => exact (Proceeds.makeList .here).comesToRaise (ih (hp _) hP hr)
  | printLine _ ih => exact (Proceeds.printLine .here).comesToRaise (ih hp hP hr)
  | bindOr hb _ ih => exact (Proceeds.bindOr hb .here).comesToRaise (ih hp.2.2 hP hr)
  | bound hb =>
    cases hr
    exact ⟨[], _, _, _, .proceed .here, .bound hb⟩
  | ask h _ _ ih => exact (Proceeds.ask h .here).comesToRaise (ih (hp.2 _ h.mayGive) hP hr)
  | @askFails α β task next s t e' _ ih =>
    cases hr
    obtain ⟨constructs, γ, q, u, hwithin, hraises⟩ :=
      ih (task.all_plan interner) (fun _ h => h) rfl
    exact ⟨_, γ, q, u, .ask .here hwithin, hraises⟩
  | enter hpush h _ _ ih => exact (Proceeds.enter hpush h .here).comesToRaise (ih (hp _) hP hr)
  | enterFails hpush _ ih =>
    cases hr
    obtain ⟨constructs, γ, q, u, hwithin, hraises⟩ :=
      ih (Task.all_plan interner _) (fun _ h => h) rfl
    exact ⟨constructs, γ, q, u, .enter .here hpush hwithin, hraises⟩
  | refused hpush =>
    cases hr
    exact ⟨[], _, _, _, .proceed .here, .refused hpush⟩
  | onLine _ _ => cases hr
  | @onLineFails α line rest s t e' _ ih =>
    cases hr
    exact (Proceeds.onLine .here).comesToRaise (ih (e := e') hp hP rfl)

end Raises

/-! ## Marks -/

/-- A failure that the plan comes to leaves it with exactly these marks, the innermost first. -/
def Plan.Marks {α : Type} : List Line → Plan α → Prop
  | lines, .onLine line rest => ∃ inner, lines = inner ++ [line] ∧ rest.Marks inner
  | lines, .done _ => lines = []
  | lines, .readEnv next => lines = [] ∧ ∀ env, (next env).Marks []
  | lines, .makeList _ next => lines = [] ∧ ∀ v, (next v).Marks []
  | lines, .printLine _ next => lines = [] ∧ next.Marks []
  | lines, .bindOr _ _ _ next => lines = [] ∧ next.Marks []
  | lines, .ask _ next => lines = [] ∧ ∀ b, (next b).Marks []
  | lines, .enter _ _ _ next => lines = [] ∧ ∀ v, (next v).Marks []

section Marks

variable {interner : Interner}

theorem Plan.marks_enterEach {α : Type} (f : Func) (line : Line) (list : Value)
    (items : List (Value × Nat)) {next : List Value → Plan α} (h : ∀ vs, (next vs).Marks []) :
    (enterEach f line list items next).Marks [] := by
  induction items generalizing next with
  | nil => exact h []
  | cons item items ih => exact ⟨rfl, fun v => ih fun vs => h (v :: vs)⟩

theorem Plan.marks_enterFold (f : Func) (line : Line) (list acc : Value)
    (items : List (Value × Nat)) : (enterFold f line list acc items).Marks [] := by
  induction items generalizing acc with
  | nil => rfl
  | cons item items ih => exact ⟨rfl, fun v => ih v⟩

theorem BinaryOp.marks_plan (op : BinaryOp) (line : Line) (left right : Value) :
    (op.plan line left right).Marks [] := by
  cases op with
  | pipe =>
    cases right with
    | function f => exact ⟨rfl, fun _ => rfl⟩
    | _ => rfl
  | map =>
    simp only [plan]
    split
    · exact Plan.marks_enterEach _ _ _ _ fun _ => ⟨rfl, fun _ => rfl⟩
    · rfl
  | filter =>
    simp only [plan]
    split
    · exact Plan.marks_enterEach _ _ _ _ fun _ => ⟨rfl, fun _ => rfl⟩
    · rfl
  | reduce =>
    simp only [plan]
    split
    · rfl
    · exact Plan.marks_enterFold ..
    · rfl
  | _ => rfl

theorem Token.marks_binaryPlan (op : Token) (left right : Operand) :
    (op.binaryPlan interner left right).Marks [] := by
  unfold binaryPlan
  split
  · rfl
  · cases left with
    | mention ident => exact ⟨rfl, fun _ => ⟨rfl, rfl⟩⟩
    | value v => rfl
  · exact ⟨rfl, fun _ => ⟨rfl, fun _ => rfl⟩⟩

theorem Token.marks_unaryPlan (op : Token) (operand : Value) : (op.unaryPlan operand).Marks [] := by
  unfold unaryPlan
  split <;> rfl

theorem Identifier.marks_callPlan (callee : Identifier Name) (args : List (Expr Name)) :
    (callee.callPlan interner args).Marks [] := by
  refine ⟨rfl, fun env => ?_⟩
  dsimp only
  split
  · exact ⟨rfl, fun _ => ⟨rfl, fun _ => rfl⟩⟩
  · rfl
  · rfl

/-- **A task marks failures with the line of its operator**, if it applies one, and otherwise not at
all. -/
theorem Task.marks_plan {α : Type} (task : Task α) :
    (task.plan interner).Marks (operatorLines task.construct?.toList) := by
  cases task with
  | expr e =>
    cases e with
    | literal value => rfl
    | «variable» ident => rfl
    | group inner => exact ⟨rfl, fun _ => rfl⟩
    | binary left op right =>
      exact ⟨[], rfl, rfl, fun _ => ⟨rfl, fun _ => op.marks_binaryPlan ..⟩⟩
    | unary op operand => exact ⟨[], rfl, rfl, fun _ => op.marks_unaryPlan _⟩
    | call callee args => exact callee.marks_callPlan args
    | list elements => exact ⟨rfl, fun _ => ⟨rfl, fun _ => rfl⟩⟩
  | value e => exact ⟨rfl, fun _ => ⟨rfl, fun _ => rfl⟩⟩
  | values es =>
    cases es with
    | nil => rfl
    | cons e es => exact ⟨rfl, fun _ => ⟨rfl, fun _ => rfl⟩⟩
  | operation op line left right => exact op.marks_plan line left right
  | stmt s =>
    cases s with
    | print e => exact ⟨rfl, fun _ => ⟨rfl, rfl⟩⟩
    | expression e => exact ⟨rfl, fun _ => rfl⟩
    | conditional c block other =>
      cases other with
      | none =>
        refine ⟨rfl, fun v => ?_⟩
        dsimp only
        split
        · exact ⟨rfl, fun _ => rfl⟩
        · rfl
      | some other =>
        refine ⟨rfl, fun v => ?_⟩
        dsimp only
        split <;> exact ⟨rfl, fun _ => rfl⟩
    | function node name params body => exact ⟨rfl, rfl⟩
    | «return» e => exact ⟨rfl, fun _ => rfl⟩
  | block ss =>
    match ss with
    | [] => rfl
    | [last] => exact ⟨rfl, fun _ => rfl⟩
    | s :: t :: rest => exact ⟨rfl, fun _ => ⟨rfl, fun _ => rfl⟩⟩
  | body ss =>
    cases ss with
    | nil => rfl
    | cons s rest =>
      refine ⟨rfl, fun yielded => ?_⟩
      cases yielded with
      | none => exact ⟨rfl, fun _ => rfl⟩
      | some v => rfl
  | program p =>
    cases p with
    | nil => rfl
    | cons s rest => exact ⟨rfl, fun _ => ⟨rfl, fun _ => rfl⟩⟩
  | arguments args =>
    match args with
    | [] => rfl
    | .expr e :: rest => exact ⟨rfl, fun _ => ⟨rfl, fun _ => rfl⟩⟩
    | .value v :: rest => exact ⟨rfl, fun _ => rfl⟩
  | call f args line => exact ⟨rfl, fun _ => ⟨rfl, fun _ => rfl⟩⟩

variable {α β : Type} {p q : Plan α} {s t u : State} {cause : Cause} {lines : List Line}

theorem Plan.Raises.eq_nil_of_marks (h : q.Raises t cause) (hq : q.Marks lines) : lines = [] := by
  cases h with
  | fail => exact hq
  | bound _ => exact hq.1
  | refused _ => exact hq.1

/-- A failure that is raised has no lines yet. -/
theorem Plan.Raises.ends (h : q.Raises t cause) :
    ∃ e : Failure, Ends interner q t (.error e) t ∧ e.cause = cause ∧ e.lines = [] := by
  cases h with
  | fail => exact ⟨_, .done, rfl, rfl⟩
  | bound hb => exact ⟨_, .bound hb, rfl, rfl⟩
  | refused hpush =>
    cases CallStack.eq_exceeded_of_push hpush
    exact ⟨_, .refused hpush, rfl, rfl⟩

/-- If the rest of a plan fails, the plan fails, and the failure gets the marks of the plan. -/
theorem Proceeds.fails (h : Proceeds interner p s q t) (hp : p.Marks lines)
    (hq : ∀ lines, q.Marks lines → lines = []) {e : Failure}
    (hend : Ends interner q t (.error e) u) :
    ∃ e' : Failure, Ends interner p s (.error e') u ∧ e'.cause = e.cause ∧
      e'.lines = e.lines ++ lines := by
  induction h generalizing lines with
  | here => exact ⟨e, hend, rfl, by rw [hq lines hp, List.append_nil]⟩
  | readEnv _ ih =>
    obtain ⟨rfl, hp⟩ := hp
    obtain ⟨e', h, he'⟩ := ih (hp _) hq hend
    exact ⟨e', .readEnv h, he'⟩
  | makeList _ ih =>
    obtain ⟨rfl, hp⟩ := hp
    obtain ⟨e', h, he'⟩ := ih (hp _) hq hend
    exact ⟨e', .makeList h, he'⟩
  | printLine _ ih =>
    obtain ⟨rfl, hp⟩ := hp
    obtain ⟨e', h, he'⟩ := ih hp hq hend
    exact ⟨e', .printLine h, he'⟩
  | bindOr hb _ ih =>
    obtain ⟨rfl, hp⟩ := hp
    obtain ⟨e', h, he'⟩ := ih hp hq hend
    exact ⟨e', .bindOr hb h, he'⟩
  | ask h _ ih =>
    obtain ⟨rfl, hp⟩ := hp
    obtain ⟨e', h', he'⟩ := ih (hp _) hq hend
    exact ⟨e', .ask h h', he'⟩
  | enter hpush h _ ih =>
    obtain ⟨rfl, hp⟩ := hp
    obtain ⟨e', h', he'⟩ := ih (hp _) hq hend
    exact ⟨e', .enter hpush h h', he'⟩
  | @onLine line rest s t q _ ih =>
    obtain ⟨inner, rfl, hp⟩ := hp
    obtain ⟨e', h, hcause, hlines⟩ := ih hp hq hend
    refine ⟨e'.mark line, .onLineFails h, hcause, ?_⟩
    rw [Failure.lines_mark, hlines, List.append_assoc]

/-- **A failure gets the lines of the operators within which it is raised**, the innermost first,
and the marks of the plan that it leaves. -/
theorem Within.fails {q : Plan β} {constructs : List Construct}
    (h : Within interner p s constructs q t) (hq : q.Raises t cause) (hp : p.Marks lines) :
    ∃ (e : Failure) (u : State), Ends interner p s (.error e) u ∧ e.cause = cause ∧
      e.lines = operatorLines constructs ++ lines := by
  induction h generalizing lines with
  | proceed h =>
    obtain ⟨e, hend, hcause, hlines⟩ := hq.ends
    obtain ⟨e', hend', hcause', hlines'⟩ := h.fails hp (fun _ => hq.eq_nil_of_marks) hend
    exact ⟨e', _, hend', hcause'.trans hcause, by rw [hlines', hlines]; rfl⟩
  | @ask α β γ p task next q s t u inner h _ ih =>
    obtain ⟨e, v, hend, hcause, hlines⟩ := ih hq task.marks_plan
    obtain ⟨e', hend', hcause', hlines'⟩ := h.fails hp (fun _ hm => hm.1) (.askFails hend)
    refine ⟨e', v, hend', hcause'.trans hcause, ?_⟩
    rw [hlines', hlines, operatorLines, operatorLines, operatorLines, List.filterMap_append]
  | enter h hpush _ ih =>
    obtain ⟨e, v, hend, hcause, hlines⟩ := ih hq (Task.marks_plan _)
    obtain ⟨e', hend', hcause', hlines'⟩ := h.fails hp (fun _ hm => hm.1) (.enterFails hpush hend)
    refine ⟨e', _, hend', hcause'.trans hcause, ?_⟩
    rw [hlines', hlines]
    exact congrArg (· ++ lines) (List.append_nil _)

end Marks

/-! ## Failures of operators -/

/-- Whether it is operators that fail for such a cause. -/
def Cause.isOfOperator : Cause → Bool
  | .binaryOperands .. | .unaryOperand .. | .alreadyBound _ | .unsupportedBinaryOperator _
  | .unsupportedUnaryOperator _ | .invalidAssignmentTarget | .emptyReduce
  | .invalidRepeatCount _ => true
  | .functionAlreadyDeclared _ | .undefinedCallee _ | .notCallable _ | .recursionLimit .. => false

/-- Whether the task is to apply an operator to values. -/
def Task.isOperation : {α : Type} → Task α → Bool
  | _, .operation .. => true
  | _, _ => false

/-- Neither failing for a cause that only operators fail for, nor asking for an operation. -/
def Plan.quiet : Plan.Conditions where
  task t := t.isOperation = false
  name _ := True
  failure e := e.cause.isOfOperator = false

/-- The innermost of the constructs applies an operator. -/
def InnermostIsOperator (constructs : List Construct) : Prop :=
  ∃ (construct : Construct) (outer : List Construct) (line : Line),
    constructs = construct :: outer ∧ construct.operatorLine? = some line

section Quiet

variable {interner : Interner} {α β : Type} {p : Plan α} {q : Plan β} {s t : State} {cause : Cause}

/-- A task that is no operation and applies no operator is quiet. -/
theorem Task.quiet_plan {task : Task α} (hoperation : task.isOperation = false)
    (hlines : operatorLines task.construct?.toList = []) :
    (task.plan interner).All Plan.quiet := by
  cases task with
  | expr e =>
    cases e with
    | literal value => trivial
    | «variable» ident => trivial
    | group inner => exact ⟨rfl, fun _ _ => trivial⟩
    | binary left op right => cases hlines
    | unary op operand => cases hlines
    | call callee args =>
      intro env
      dsimp only
      split
      · exact ⟨rfl, fun _ _ _ => trivial⟩
      · exact rfl
      · exact rfl
    | list elements => exact ⟨rfl, fun _ _ _ => trivial⟩
  | value e => exact ⟨rfl, fun _ _ _ => trivial⟩
  | values es =>
    cases es with
    | nil => trivial
    | cons e es => exact ⟨rfl, fun _ _ => ⟨rfl, fun _ _ => trivial⟩⟩
  | operation op line left right => cases hoperation
  | stmt s =>
    cases s with
    | print e => exact ⟨rfl, fun _ _ => trivial⟩
    | expression e => exact ⟨rfl, fun _ _ => trivial⟩
    | conditional c block other =>
      cases other with
      | none =>
        refine ⟨rfl, fun v _ => ?_⟩
        dsimp only
        split
        · exact ⟨rfl, fun _ _ => trivial⟩
        · trivial
      | some other =>
        refine ⟨rfl, fun v _ => ?_⟩
        dsimp only
        split <;> exact ⟨rfl, fun _ _ => trivial⟩
    | function node name params body => exact ⟨rfl, trivial, trivial⟩
    | «return» e => exact ⟨rfl, fun _ _ => trivial⟩
  | block ss =>
    match ss with
    | [] => trivial
    | [last] => exact ⟨rfl, fun _ _ => trivial⟩
    | s :: t :: rest => exact ⟨rfl, fun _ _ => ⟨rfl, fun _ _ => trivial⟩⟩
  | body ss =>
    cases ss with
    | nil => trivial
    | cons s rest =>
      refine ⟨rfl, fun yielded _ => ?_⟩
      cases yielded with
      | none => exact ⟨rfl, fun _ _ => trivial⟩
      | some v => trivial
  | program p =>
    cases p with
    | nil => trivial
    | cons s rest => exact ⟨rfl, fun _ _ => ⟨rfl, fun _ _ => trivial⟩⟩
  | arguments args =>
    match args with
    | [] => trivial
    | .expr e :: rest => exact ⟨rfl, fun _ _ => ⟨rfl, fun _ _ => trivial⟩⟩
    | .value v :: rest => exact ⟨rfl, fun _ _ => trivial⟩
  | call f args line => exact ⟨rfl, fun _ _ _ => trivial⟩

theorem Task.construct?_of_isOperation {task : Task α} (h : task.isOperation = true) :
    task.construct? = none := by
  cases task with
  | operation op line left right => rfl
  | _ => cases h

/-- If nothing around the moment is left but the construct of a task, the task applies an operator,
unless it is quiet. -/
theorem Task.innermostIsOperator {task : Task α} (hoperation : task.isOperation = false)
    {inner : List Construct}
    (h : InnermostIsOperator inner ∨ inner = [] ∧ ¬ (task.plan interner).All Plan.quiet) :
    InnermostIsOperator (inner ++ task.construct?.toList) := by
  rcases h with ⟨construct, outer, line, rfl, hline⟩ | ⟨rfl, hloud⟩
  · exact ⟨construct, outer ++ task.construct?.toList, line, rfl, hline⟩
  have hlines : operatorLines task.construct?.toList ≠ [] :=
    fun hlines => hloud (Task.quiet_plan hoperation hlines)
  cases hconstruct : task.construct? with
  | none => simp [hconstruct, operatorLines] at hlines
  | some construct =>
    cases hline : construct.operatorLine? with
    | some line => exact ⟨construct, [], line, rfl, hline⟩
    | none => simp [hconstruct, operatorLines, hline] at hlines

/-- A quiet plan does not itself raise the failure of an operator. -/
theorem Plan.Raises.not_quiet (hq : q.Raises t cause) (hcause : cause.isOfOperator = true) :
    ¬ q.All Plan.quiet := by
  intro hquiet
  cases hq with
  | fail => cases hcause.symm.trans hquiet
  | bound _ => cases hcause.symm.trans hquiet.1
  | refused hpush =>
    cases CallStack.eq_exceeded_of_push hpush
    cases hcause

/-- **Failures of operators are raised within an operator**, as the innermost construct, unless what
is carried out is a part of the evaluation of an operator. -/
theorem Within.operator_of_raises {constructs : List Construct}
    (h : Within interner p s constructs q t) (hq : q.Raises t cause)
    (hcause : cause.isOfOperator = true) :
    InnermostIsOperator constructs ∨ constructs = [] ∧ ¬ p.All Plan.quiet := by
  induction h with
  | proceed h => exact .inr ⟨rfl, fun hp => hq.not_quiet hcause (h.all hp)⟩
  | @ask α β γ p task next q s t u inner h _ ih =>
    -- an operation is no construct itself; the operator that asks for it is the innermost one
    cases hoperation : task.isOperation with
    | false => exact .inl (Task.innermostIsOperator hoperation (ih hq))
    | true =>
      rw [Task.construct?_of_isOperation hoperation, Option.toList_none, List.append_nil]
      refine (ih hq).imp_right fun ⟨hinner, _⟩ => ⟨hinner, fun hp => ?_⟩
      cases hoperation.symm.trans (h.all hp).1
  | enter h hpush _ ih =>
    rcases ih hq with hinner | ⟨rfl, hloud⟩
    · exact .inl hinner
    · exact absurd (Task.quiet_plan rfl rfl) hloud

end Quiet

/-! ## The lines of a failure -/

/-- The failure of evaluating the task from the state has been raised at a moment of the evaluation.
At every moment at which a failure is raised, it is raised for this cause and within operators on
these lines, the innermost first.  If it is the failure of an operator, then of the innermost
construct, whose line is the first. -/
structure Failure.Explained {α : Type} (interner : Interner) (task : Task α) (s : State)
    (e : Failure) : Prop where
  raised : ∃ constructs, task.Raises interner s e.cause constructs
  lines : ∀ (cause : Cause) (constructs : List Construct),
    task.Raises interner s cause constructs → cause = e.cause ∧ e.lines = operatorLines constructs
  first : e.cause.isOfOperator = true → ∀ constructs, task.Raises interner s e.cause constructs →
    ∃ (construct : Construct) (outer : List Construct) (line : Line),
      constructs = construct :: outer ∧ construct.operatorLine? = some line ∧
        e.lines.head? = some line

theorem Task.explained {α : Type} {interner : Interner} {task : Task α}
    (hoperation : task.isOperation = false) {s t : State} {e : Failure}
    (h : Ends interner (task.plan interner) s (.error e) t) : e.Explained interner task s := by
  have hlines (cause : Cause) (constructs : List Construct)
      (hraises : task.Raises interner s cause constructs) :
      cause = e.cause ∧ e.lines = operatorLines constructs := by
    obtain ⟨inner, β, q, u, hwithin, hq, rfl⟩ := hraises
    obtain ⟨e', t', hend, hcause, hlines⟩ := hwithin.fails hq task.marks_plan
    obtain ⟨he, -⟩ := hend.unique h
    cases he
    refine ⟨hcause.symm, ?_⟩
    rw [hlines, operatorLines, operatorLines, operatorLines, List.filterMap_append]
  refine ⟨?_, hlines, fun hcause constructs hraises => ?_⟩
  · obtain ⟨inner, β, q, u, hwithin, hq⟩ :=
      h.comesToRaise (task.all_plan interner) (fun _ h => h) rfl
    exact ⟨_, inner, β, q, u, hwithin, hq, rfl⟩
  · obtain ⟨-, heq⟩ := hlines e.cause constructs hraises
    obtain ⟨inner, β, q, u, hwithin, hq, rfl⟩ := hraises
    obtain ⟨construct, outer, line, hinner, hline⟩ :=
      Task.innermostIsOperator hoperation (hwithin.operator_of_raises hq hcause)
    refine ⟨construct, outer, line, hinner, hline, ?_⟩
    rw [heq, hinner, operatorLines, List.filterMap_cons_some hline, List.head?_cons]

/-- **The lines of a failure are those of the operators within which it was raised.**  An
expression, a statement, a call or a program that fails, from whatever state, has come to a moment
at which the failure was raised.  Of the constructs that were being evaluated then, across calls,
callbacks and blocks, each operator has left its line once, the innermost first, and nothing else
has left one.  The failure of an operator has the line of that operator first. -/
theorem failure_lines_are_operators (interner : Interner) (s : State) (failure : Failure) :
    (∀ e : Expr Name, (e.run interner s).1 = .error failure →
      failure.Explained interner (.expr e) s) ∧
    (∀ e : Expr Name, (e.runValue interner s).1 = .error failure →
      failure.Explained interner (.value e) s) ∧
    (∀ stmt : Stmt Name, (stmt.run interner s).1 = .error failure →
      failure.Explained interner (.stmt stmt) s) ∧
    (∀ (f : Func) (args : List Argument) (line : Line),
      (f.run interner args line s).1 = .error failure →
      failure.Explained interner (.call f args line) s) ∧
    ∀ (i : Interpreter) (program : Program Name), (i.run program).1 = .error failure →
      failure.Explained i.interner (.program program) i.state := by
  have hends {α : Type} (interner : Interner) (task : Task α) (s : State)
      (h : (task.run interner s).1 = .error failure) :
      Ends interner (task.plan interner) s (.error failure) (task.run interner s).2 :=
    h ▸ task.ends_run s
  refine ⟨fun e h => Task.explained rfl (hends interner (.expr e) s h),
    fun e h => Task.explained rfl (hends interner (.value e) s h),
    fun stmt h => Task.explained rfl (hends interner (.stmt stmt) s h),
    fun f args line h => ?_,
    fun i program h => Task.explained rfl (hends i.interner (.program program) i.state h)⟩
  rw [← Task.run_call] at h
  exact Task.explained rfl (hends interner (.call f args line) s h)

/-- An operator that fails in a body, called by an operator within another one. -/
theorem failure_lines_are_operators_in_callback :
    let body : List (Stmt Name) :=
      [.return (.group (.binary (.variable ⟨⟨2⟩, 2⟩) ⟨.minus, 2⟩ (.literal .nil)))]
    let program : Program Name :=
      [.function 0 ⟨⟨1⟩, 1⟩ [⟨⟨2⟩, 1⟩] body,
        .print (.unary ⟨.notKeyword, 3⟩
          (.binary (.literal (.string "s")) ⟨.pipe, 4⟩ (.variable ⟨⟨1⟩, 4⟩)))]
    let i := Interpreter.new .new .interpret .waray .empty (.buffer "") none
    let failure : Failure := { cause := .binaryOperands .sub .string .nil, trail := [3, 4, 2] }
    (i.run program).1 = .error failure ∧ failure.lines = [2, 4, 3] ∧
      failure.Explained i.interner (.program program) i.state := by
  intro body program i failure
  have hrun : (i.run program).1 = .error failure := rfl
  obtain ⟨-, -, -, -, hprogram⟩ := failure_lines_are_operators i.interner i.state failure
  exact ⟨hrun, rfl, hprogram i program hrun⟩

end BindOnce

import BindOnce.Eval.Call

/-!
# Evaluation, one construct at a time

The evaluator is five functions that call each other, and what is proved of it ranges over all of
them at once.  This file takes the recursion out of the way.  A *task* is something that can be
evaluated; its *plan* says what evaluating it does first, second and so on, and leaves the
evaluation of other tasks and the calling of functions open.  A plan is not recursive: it names the
tasks it needs.  So whatever holds of all eight steps that a plan can take holds of evaluation as
a whole, and no proof has to go through the constructs of the language to find that out.

## What is here

* `Task` — what can be evaluated, by the type of its results, and `Task.runWith`, which evaluates
  it by the functions of `BindOnce.Eval`.
* `Plan` — the steps, and `Plan.runWith`, which takes them.
* `Task.plan` — the plan of a task.  This is the language, one construct at a time.
* `Task.runWith_eq` — evaluating a task is carrying out its plan.
-/

set_option autoImplicit false
namespace BindOnce

open EvalM

/-! ## Tasks -/

/-- What can be evaluated, by the type of its results. -/
inductive Task : Type → Type where
  /-- An expression; mentions of names are not looked up. -/
  | expr (e : Expr Name) : Task Operand
  /-- An expression, looked up. -/
  | value (e : Expr Name) : Task Value
  /-- Expressions in order. -/
  | values (es : List (Expr Name)) : Task (List Value)
  /-- An operator other than `=` on two values. -/
  | operation (op : BinaryOp) (line : Line) (left right : Value) : Task Value
  /-- A statement. -/
  | stmt (s : Stmt Name) : Task (Option Value)
  /-- A block of a conditional. -/
  | block (ss : List (Stmt Name)) : Task (Option Value)
  /-- The body of a function. -/
  | body (ss : List (Stmt Name)) : Task Value
  /-- Statements at top level. -/
  | program (p : Program Name) : Task Unit
  /-- The arguments of a call. -/
  | arguments (args : List Argument) : Task (List Value)
  /-- A call, with arguments yet to be evaluated. -/
  | call (f : Func) (args : List Argument) (line : Line) : Task Value

namespace Task

/-- The value of an argument, given how to call functions. -/
def argument (interner : Interner) (call : Call) : Argument → EvalM Value
  | .expr e => e.value interner call
  | .value v => return v

/-- Evaluate a task, given how to call functions. -/
def runWith (interner : Interner) (call : Call) : {α : Type} → Task α → EvalM α
  | _, .expr e => e.eval interner call
  | _, .value e => e.value interner call
  | _, .values es => Expr.evalAll interner call es
  | _, .operation op line left right => op.evaluate call line left right
  | _, .stmt s => s.exec interner call
  | _, .block ss => Stmt.execBlock interner call ss
  | _, .body ss => Stmt.execBody interner call ss
  | _, .program p => Stmt.execAll interner call p
  | _, .arguments args => args.mapM (argument interner call)
  | _, .call f args line => do
    let values ← args.mapM (argument interner call)
    call f values line

/-- Evaluate a task. -/
def run {α : Type} (interner : Interner) (task : Task α) : EvalM α :=
  task.runWith interner (callNow interner)

theorem argument_callNow (interner : Interner) :
    argument interner (callNow interner) = Argument.run interner := by
  funext a
  cases a <;> rfl

theorem run_call (interner : Interner) (f : Func) (args : List Argument) (line : Line) :
    (call f args line).run interner = f.run interner args line := by
  rw [run, runWith, argument_callNow, Func.run]

end Task

/-! ## Plans -/

/-- What is left to do for a result of type `α`. -/
inductive Plan (α : Type) : Type 1 where
  /-- Nothing: this is how it ends. -/
  | done (result : Except Failure α)
  /-- Look at the environment in use. -/
  | readEnv (next : Env → Plan α)
  /-- Make a list. -/
  | makeList (items : List Value) (next : Value → Plan α)
  /-- Write a line. -/
  | printLine (line : String) (next : Plan α)
  /-- Bind a name, or fail for the given cause if it has a value. -/
  | bindOr (cause : Cause) (x : Name) (v : Value) (next : Plan α)
  /-- Evaluate another task. -/
  | ask {β : Type} (task : Task β) (next : β → Plan α)
  /-- Enter a function: run its body with one more call active. -/
  | enter (f : Func) (args : List Value) (line : Line) (next : Value → Plan α)
  /-- Go on within an operator on the given line. -/
  | onLine (line : Line) (rest : Plan α)

namespace Plan

variable {α : Type}

/-- End with a result. -/
abbrev ok (a : α) : Plan α := .done (.ok a)

/-- Fail. -/
abbrev fail (cause : Cause) : Plan α := .done (.error { cause := cause })

/-- Carry out a plan, given how to call functions. -/
def runWith (interner : Interner) (call : Call) : Plan α → EvalM α
  | .done result => ofExcept result
  | .readEnv next => do (next (← env)).runWith interner call
  | .makeList items next => do (next (← EvalM.makeList items)).runWith interner call
  | .printLine line next => do
    EvalM.printLine line
    next.runWith interner call
  | .bindOr cause x v next => do
    EvalM.bindOr cause x v
    next.runWith interner call
  | .ask task next => do (next (← task.runWith interner call)).runWith interner call
  | .enter f args line next => do (next (← call f args line)).runWith interner call
  | .onLine line rest => EvalM.onLine line (rest.runWith interner call)

/-- Call a function for every item of a list, in order, and collect the results. -/
def enterEach (f : Func) (line : Line) (list : Value) :
    List (Value × Nat) → (List Value → Plan α) → Plan α
  | [], next => next []
  | (item, i) :: items, next =>
    .enter f [item, .ofIndex i, list] line fun v =>
      enterEach f line list items fun vs => next (v :: vs)

/-- Call a function for every item of a list, in order, with the result of the call before. -/
def enterFold (f : Func) (line : Line) (list : Value) : Value → List (Value × Nat) → Plan Value
  | acc, [] => .ok acc
  | acc, (item, i) :: items =>
    .enter f [acc, item, .ofIndex i, list] line fun v => enterFold f line list v items

end Plan

/-! ## The plans of the constructs -/

/-- The plan of `left op right` on values. -/
def BinaryOp.plan (line : Line) (op : BinaryOp) (left right : Value) : Plan Value :=
  match op with
  | .pipe =>
    match right with
    | .function f => .enter f [left] line .ok
    | other => .fail (.binaryOperands .pipe left.kind other.kind)
  | .map =>
    match left, right with
    | .list _ items, .function f =>
      .enterEach f line left items.zipIdx fun vs => .makeList vs .ok
    | _, _ => .fail (.binaryOperands .map left.kind right.kind)
  | .filter =>
    match left, right with
    | .list _ items, .function f =>
      .enterEach f line left items.zipIdx fun vs => .makeList (Callback.accepted items vs) .ok
    | _, _ => .fail (.binaryOperands .filter left.kind right.kind)
  | .reduce =>
    match left, right with
    | .list _ [], .function _ => .fail .emptyReduce
    | .list _ (first :: rest), .function f => .enterFold f line left first (rest.zipIdx 1)
    | _, _ => .fail (.binaryOperands .reduce left.kind right.kind)
  | op => .done (op.apply left right)

/-- The plan of `target = value`, with both sides evaluated. -/
def Operand.assignPlan (interner : Interner) (target value : Operand) : Plan Operand :=
  match target with
  | .value _ => .fail .invalidAssignmentTarget
  | .mention ident => .readEnv fun env =>
    .bindOr (.alreadyBound (interner.text ident.name)) ident.name (value.valueIn env)
      (.ok (.value (value.valueIn env)))

/-- The plan of the operator that a token denotes, with both operands evaluated. -/
def Token.binaryPlan (interner : Interner) (op : Token) (left right : Operand) : Plan Operand :=
  match BinaryOp.ofToken? op.kind with
  | none => .fail (.unsupportedBinaryOperator op.kind)
  | some .assign => left.assignPlan interner right
  | some operator => .readEnv fun env =>
    .ask (.operation operator op.line (left.valueIn env) (right.valueIn env)) fun v =>
      .ok (.value v)

/-- The plan of the operator that a token denotes, with its operand evaluated. -/
def Token.unaryPlan (op : Token) (operand : Value) : Plan Operand :=
  match UnaryOp.ofToken? op.kind with
  | none => .fail (.unsupportedUnaryOperator op.kind)
  | some operator => .done ((operator.apply operand).map .value)

/-- The plan of a call in an expression.  The function is looked up before the arguments are
evaluated. -/
def Identifier.callPlan (interner : Interner) (callee : Identifier Name)
    (args : List (Expr Name)) : Plan Operand :=
  .readEnv fun env =>
    match env.lookup callee.name with
    | some (.function f) => .ask (.values args) fun vs =>
      .enter f vs callee.line fun v => .ok (.value v)
    | some _ => .fail (.notCallable (interner.text callee.name))
    | none => .fail (.undefinedCallee (interner.text callee.name))

/-- The plan of an expression. -/
def Expr.plan (interner : Interner) : Expr Name → Plan Operand
  | .literal value => .ok (.value (.ofLiteral value))
  | .variable ident => .ok (.mention ident)
  | .group inner => .ask (.expr inner) .ok
  | .binary left op right => .onLine op.line <|
    .ask (.expr left) fun l => .ask (.expr right) fun r => op.binaryPlan interner l r
  | .unary op operand => .onLine op.line <| .ask (.value operand) fun v => op.unaryPlan v
  | .call callee args => callee.callPlan interner args
  | .list elements => .ask (.values elements) fun vs => .makeList vs fun v => .ok (.value v)

/-- The plan of a statement. -/
def Stmt.plan (interner : Interner) : Stmt Name → Plan (Option Value)
  | .print expr => .ask (.value expr) fun v => .printLine v.worded.display (.ok none)
  | .expression expr => .ask (.expr expr) fun _ => .ok none
  | .conditional condition thenBlock none => .ask (.value condition) fun v =>
    if v.isTrue then .ask (.block thenBlock) .ok else .ok none
  | .conditional condition thenBlock (some elseBlock) => .ask (.value condition) fun v =>
    if v.isTrue then .ask (.block thenBlock) .ok else .ask (.block elseBlock) .ok
  | .function node name params body =>
    .bindOr (.functionAlreadyDeclared (interner.text name.name)) name.name
      (.function ⟨⟨node, name, params, body⟩, interner.text name.name⟩) (.ok none)
  | .return expr => .ask (.value expr) fun v => .ok (some v.worded)

/-- The plan of a task. -/
def Task.plan (interner : Interner) : {α : Type} → Task α → Plan α
  | _, .expr e => e.plan interner
  | _, .value e => .ask (.expr e) fun operand => .readEnv fun env => .ok (operand.valueIn env)
  | _, .values [] => .ok []
  | _, .values (e :: es) => .ask (.value e) fun v => .ask (.values es) fun vs => .ok (v :: vs)
  | _, .operation op line left right => op.plan line left right
  | _, .stmt s => s.plan interner
  | _, .block [] => .ok none
  | _, .block [last] => .ask (.stmt last) fun yielded =>
    .ok (if last.isReturn then yielded else none)
  | _, .block (s :: t :: rest) => .ask (.stmt s) fun _ => .ask (.block (t :: rest)) .ok
  | _, .body [] => .ok .nil
  | _, .body (s :: rest) => .ask (.stmt s) fun
    | some v => .ok v
    | none => .ask (.body rest) .ok
  | _, .program [] => .ok ()
  | _, .program (s :: rest) => .ask (.stmt s) fun _ => .ask (.program rest) .ok
  | _, .arguments [] => .ok []
  | _, .arguments (.expr e :: rest) => .ask (.value e) fun v =>
    .ask (.arguments rest) fun vs => .ok (v :: vs)
  | _, .arguments (.value v :: rest) => .ask (.arguments rest) fun vs => .ok (v :: vs)
  | _, .call f args line => .ask (.arguments args) fun vs => .enter f vs line .ok

/-! ## Evaluating a task is carrying out its plan -/

section RunWith

variable (interner : Interner) (call : Call)

@[simp]
theorem EvalM.ofExcept_ok {α : Type} (a : α) : (ofExcept (.ok a) : EvalM α) = pure a := rfl

/-- Looking twice shows the same environment. -/
theorem EvalM.env_bind_env {α : Type} (f : Env → Env → EvalM α) :
    (env >>= fun e => env >>= fun e' => f e e') = env >>= fun e => f e e := rfl

theorem EvalM.ofExcept_map {α β : Type} (f : α → β) (r : Except Failure α) :
    (ofExcept (r.map f) : EvalM β) = do return f (← ofExcept r) := by
  cases r <;> rfl

theorem Plan.runWith_enterEach {α : Type} (f : Func) (line : Line) (list : Value)
    (items : List (Value × Nat)) (next : List Value → Plan α) :
    (Plan.enterEach f line list items next).runWith interner call =
      (items.mapM fun (item, i) => call f [item, .ofIndex i, list] line) >>=
        fun vs => (next vs).runWith interner call := by
  induction items generalizing next with
  | nil => simp [enterEach]
  | cons item items ih => simp [enterEach, runWith, ih]

theorem Plan.runWith_enterFold (f : Func) (line : Line) (list acc : Value)
    (items : List (Value × Nat)) :
    (Plan.enterFold f line list acc items).runWith interner call =
      items.foldlM (fun acc (item, i) => call f [acc, item, .ofIndex i, list] line) acc := by
  induction items generalizing acc with
  | nil => rfl
  | cons item items ih => simp [enterFold, runWith, ih]

theorem BinaryOp.runWith_plan (op : BinaryOp) (line : Line) (left right : Value) :
    (op.plan line left right).runWith interner call = op.evaluate call line left right := by
  cases op with
  | pipe =>
    cases right with
    | function f => simp [plan, evaluate, Callback.pipe, Plan.runWith]
    | _ => rfl
  | map =>
    cases left with
    | list id items =>
      cases right with
      | function f =>
        simp [plan, evaluate, Callback.map, Callback.callEach, Plan.runWith_enterEach,
          Plan.runWith]
      | _ => rfl
    | _ => rfl
  | filter =>
    cases left with
    | list id items =>
      cases right with
      | function f =>
        simp [plan, evaluate, Callback.filter, Callback.keepEach_eq, Callback.callEach,
          Plan.runWith_enterEach, Plan.runWith]
      | _ => rfl
    | _ => rfl
  | reduce =>
    cases left with
    | list id items =>
      cases right with
      | function f =>
        cases items with
        | nil => rfl
        | cons first rest => exact Plan.runWith_enterFold ..
      | _ => cases items <;> rfl
    | _ => rfl
  | _ => rfl

theorem Operand.runWith_assignPlan (target value : Operand) :
    (target.assignPlan interner value).runWith interner call = target.assign interner value := by
  cases target with
  | mention ident => simp [assignPlan, assign, Plan.runWith, read]
  | value v => rfl

theorem Token.runWith_binaryPlan (op : Token) (left right : Operand) :
    (op.binaryPlan interner left right).runWith interner call =
      op.applyBinary interner call left right := by
  rw [binaryPlan, applyBinary]
  cases BinaryOp.ofToken? op.kind with
  | none => rfl
  | some operator =>
    cases operator with
    | assign => exact Operand.runWith_assignPlan ..
    | _ => simp [Plan.runWith, Task.runWith, Operand.read, EvalM.env_bind_env]

theorem Token.runWith_unaryPlan (op : Token) (operand : Value) :
    (op.unaryPlan operand).runWith interner call = op.applyUnary operand := by
  rw [unaryPlan, applyUnary]
  cases UnaryOp.ofToken? op.kind with
  | none => rfl
  | some operator => exact EvalM.ofExcept_map ..

theorem Identifier.runWith_callPlan (callee : Identifier Name) (args : List (Expr Name)) :
    (callee.callPlan interner args).runWith interner call = do
      let f ← callee.callee interner
      let values ← Expr.evalAll interner call args
      return .value (← call f values callee.line) := by
  simp only [callPlan, Identifier.callee, Plan.runWith, bind_assoc]
  refine bind_congr fun env => ?_
  cases env.lookup callee.name with
  | none => rfl
  | some v => cases v <;> simp [Plan.runWith, Task.runWith] <;> rfl

theorem Expr.runWith_plan (e : Expr Name) :
    (e.plan interner).runWith interner call = e.eval interner call := by
  cases e with
  | literal value => rw [Expr.eval]; rfl
  | «variable» ident => rw [Expr.eval]; rfl
  | group inner => simp [Expr.plan, Expr.eval, Plan.runWith, Task.runWith]
  | binary left op right =>
    simp only [Expr.plan, Expr.eval, Plan.runWith, Task.runWith, Token.runWith_binaryPlan]
  | unary op operand =>
    simp [Expr.plan, Expr.eval, Plan.runWith, Task.runWith, Token.runWith_unaryPlan, Expr.value]
  | call callee args =>
    rw [Expr.plan, Identifier.runWith_callPlan, Expr.eval]
  | list elements => simp [Expr.plan, Expr.eval, Plan.runWith, Task.runWith]

theorem Stmt.runWith_plan (s : Stmt Name) :
    (s.plan interner).runWith interner call = s.exec interner call := by
  cases s with
  | print expr => simp [Stmt.plan, Stmt.exec, Plan.runWith, Task.runWith]
  | expression expr => simp [Stmt.plan, Stmt.exec, Plan.runWith, Task.runWith]
  | conditional condition thenBlock elseBlock =>
    cases elseBlock with
    | none =>
      simp only [Stmt.plan, Stmt.exec, Plan.runWith, Task.runWith]
      refine bind_congr fun v => ?_
      cases v.isTrue <;> simp [Plan.runWith, Task.runWith]
    | some elseBlock =>
      simp only [Stmt.plan, Stmt.exec, Plan.runWith, Task.runWith]
      refine bind_congr fun v => ?_
      cases v.isTrue <;> simp [Plan.runWith, Task.runWith]
  | function node name params body =>
    simp [Stmt.plan, Stmt.exec, Plan.runWith, FunctionDecl.declare]
  | «return» expr => simp [Stmt.plan, Stmt.exec, Plan.runWith, Task.runWith]

/-- **Evaluating a task is carrying out its plan.**  How functions are called does not matter. -/
theorem Task.runWith_eq {α : Type} (task : Task α) :
    task.runWith interner call = (task.plan interner).runWith interner call := by
  cases task with
  | expr e => rw [runWith, plan, Expr.runWith_plan]
  | value e => simp [runWith, plan, Plan.runWith, Expr.value, Operand.read]
  | values es =>
    cases es with
    | nil => rw [runWith, Expr.evalAll]; rfl
    | cons e es => simp [runWith, plan, Plan.runWith, Expr.evalAll, Expr.value]
  | operation op line left right => rw [runWith, plan, BinaryOp.runWith_plan]
  | stmt s => rw [runWith, plan, Stmt.runWith_plan]
  | block ss =>
    cases ss with
    | nil => rw [runWith, Stmt.execBlock]; rfl
    | cons s rest => cases rest <;> simp [runWith, plan, Plan.runWith, Stmt.execBlock]
  | body ss =>
    cases ss with
    | nil => rw [runWith, Stmt.execBody]; rfl
    | cons s rest =>
      simp only [runWith, plan, Plan.runWith, Stmt.execBody]
      refine bind_congr fun yielded => ?_
      cases yielded <;> simp [runWith, Plan.runWith]
  | program p =>
    cases p with
    | nil => rw [runWith, Stmt.execAll]; rfl
    | cons s rest => simp [runWith, plan, Plan.runWith, Stmt.execAll]
  | arguments args =>
    cases args with
    | nil => simp [runWith, plan, Plan.runWith]
    | cons a rest => cases a <;> simp [runWith, plan, Plan.runWith, argument]
  | call f args line => simp [runWith, plan, Plan.runWith]

end RunWith

end BindOnce

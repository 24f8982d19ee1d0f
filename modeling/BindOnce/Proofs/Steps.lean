import BindOnce.Proofs.Plan

/-!
# What the steps of a plan can be

The plan of a task is written down construct by construct in `BindOnce.Proofs.Plan`.  This file goes
through the constructs once more and notes what can be said of every step without running anything:
which tasks are asked for, which names are bound, which failures are raised.  Later files only use
the summary.

The one delicate construct is `=`.  Which name it binds depends on what its left side evaluates to.
Only a variable, in any number of parentheses, evaluates to the mention of a name
(`Expr.mentioned?`), so what a task *may give* is part of the bookkeeping.

## What is here

* `Expr.targets`, `Stmt.targets`, `Task.targets` — the names to the left of an `=` and those of
  function declarations, outside function bodies.
* `Task.size` — how large a task is.
* `Plan.All` — every step of a plan satisfies the given conditions.
* `Task.all_plan` — the summary: the plan of a task asks for smaller tasks with no further targets,
  binds targets of the task, and raises failures that are new and not about the limit on calls.
-/

set_option autoImplicit false
namespace BindOnce

/-! ## The names that a tree may bind -/

section Targets

variable {ν : Type}

/-- The identifier that an expression mentions, in any number of parentheses. -/
def Expr.mentioned? : Expr ν → Option (Identifier ν)
  | .variable ident => some ident
  | .group inner => inner.mentioned?
  | _ => none

/-- The name that `left op right` may bind itself. -/
def Expr.assigned (left : Expr ν) (op : Token) : List ν :=
  if op.kind = .equal then (left.mentioned?.map (·.name)).toList else []

mutual

/-- The names to the left of an `=`, anywhere in an expression. -/
def Expr.targets : Expr ν → List ν
  | .literal _ => []
  | .variable _ => []
  | .group inner => inner.targets
  | .binary left op right => left.assigned op ++ (left.targets ++ right.targets)
  | .unary _ operand => operand.targets
  | .call _ args => Expr.allTargets args
  | .list elements => Expr.allTargets elements

/-- The names to the left of an `=`, anywhere in the expressions. -/
def Expr.allTargets : List (Expr ν) → List ν
  | [] => []
  | e :: es => e.targets ++ Expr.allTargets es

end

mutual

/-- The names that a statement may bind.  Both blocks of a conditional count; the body of a function
does not. -/
def Stmt.targets : Stmt ν → List ν
  | .print expr => expr.targets
  | .expression expr => expr.targets
  | .conditional condition thenBlock none => condition.targets ++ Stmt.allTargets thenBlock
  | .conditional condition thenBlock (some elseBlock) =>
    condition.targets ++ (Stmt.allTargets thenBlock ++ Stmt.allTargets elseBlock)
  | .function _ name _ _ => [name.name]
  | .return expr => expr.targets

/-- The names that statements may bind. -/
def Stmt.allTargets : List (Stmt ν) → List ν
  | [] => []
  | s :: rest => s.targets ++ Stmt.allTargets rest

end

end Targets

/-- The names that evaluating an argument may bind. -/
def Argument.targets : Argument → List Name
  | .expr e => e.targets
  | .value _ => []

namespace Task

/-- The names that evaluating a task may bind. -/
def targets : {α : Type} → Task α → List Name
  | _, .expr e => e.targets
  | _, .value e => e.targets
  | _, .values es => Expr.allTargets es
  | _, .operation .. => []
  | _, .stmt s => s.targets
  | _, .block ss => Stmt.allTargets ss
  | _, .body ss => Stmt.allTargets ss
  | _, .program p => Stmt.allTargets p
  | _, .arguments args => args.flatMap Argument.targets
  | _, .call _ args _ => args.flatMap Argument.targets

/-- How large a task is.  Operators on values count for nothing: what they do is enter functions. -/
noncomputable def size : {α : Type} → Task α → Nat
  | _, .expr e => 2 * sizeOf e
  | _, .value e => 2 * sizeOf e + 1
  | _, .values es => 2 * sizeOf es
  | _, .operation .. => 0
  | _, .stmt s => 2 * sizeOf s
  | _, .block ss => 2 * sizeOf ss
  | _, .body ss => 2 * sizeOf ss
  | _, .program p => 2 * sizeOf p
  | _, .arguments args => 2 * sizeOf args
  | _, .call _ args _ => 2 * sizeOf args + 1

/-- What a task may result in: an expression results in the mention of a name only if it is a
variable in parentheses. -/
def MayGive : {α : Type} → Task α → α → Prop
  | _, .expr e, .mention ident => e.mentioned? = some ident
  | _, _, _ => True

end Task

/-! ## Conditions on steps -/

/-- Whether a call was refused because it would have exceeded the limit. -/
def Cause.isRecursionLimit : Cause → Bool
  | .recursionLimit .. => true
  | _ => false

/-- A failure that has not passed any operator yet, and is not about the limit on calls. -/
def Failure.IsNew (e : Failure) : Prop := e.trail = [] ∧ e.cause.isRecursionLimit = false

/-- Conditions on the tasks that are asked for, the names that are bound and the failures that are
raised. -/
structure Plan.Conditions where
  task : {β : Type} → Task β → Prop
  name : Name → Prop
  failure : Failure → Prop

namespace Plan

/-- Every step of the plan satisfies the conditions, whatever the steps before it result in. -/
def All {α : Type} (P : Conditions) : Plan α → Prop
  | .done (.ok _) => True
  | .done (.error e) => P.failure e
  | .readEnv next => ∀ env, (next env).All P
  | .makeList _ next => ∀ v, (next v).All P
  | .printLine _ next => next.All P
  | .bindOr cause x _ next => P.failure { cause := cause } ∧ P.name x ∧ next.All P
  | .ask task next => P.task task ∧ ∀ b, task.MayGive b → (next b).All P
  | .enter _ _ _ next => ∀ v, (next v).All P
  | .onLine _ rest => rest.All P

/-- Calling a function once or many times is none of the steps that conditions are about. -/
theorem all_enterEach {α : Type} {P : Conditions} (f : Func) (line : Line) (list : Value)
    (items : List (Value × Nat)) {next : List Value → Plan α} (h : ∀ vs, (next vs).All P) :
    (enterEach f line list items next).All P := by
  induction items generalizing next with
  | nil => exact h []
  | cons item items ih => exact fun v => ih fun vs => h (v :: vs)

theorem all_enterFold {P : Conditions} (f : Func) (line : Line) (list acc : Value)
    (items : List (Value × Nat)) : (enterFold f line list acc items).All P := by
  induction items generalizing acc with
  | nil => trivial
  | cons item items ih => exact fun v => ih v

end Plan

/-! ## The failures of operators are new -/

section Operations

variable {e : Failure}

theorem BinaryOp.isNew_undefinedFor (op : BinaryOp) (left right : Value) :
    (op.undefinedFor left right).IsNew := ⟨rfl, rfl⟩

theorem isNew_of_repeated {s : String} {count : Float} (h : repeated s count = .error e) :
    e.IsNew := by
  rcases repeated_cases s count with ⟨t, heq⟩ | heq <;> cases heq.symm.trans h
  exact ⟨rfl, rfl⟩

theorem BinaryOp.isNew_of_onNumbers {op : BinaryOp} {f : Float → Float → Value}
    {left right : Value} (h : op.onNumbers f left right = .error e) : e.IsNew := by
  unfold onNumbers at h
  split at h <;> cases h
  exact op.isNew_undefinedFor left right

theorem BinaryOp.isNew_of_onBools {op : BinaryOp} {f : Bool → Bool → Bool} {left right : Value}
    (h : op.onBools f left right = .error e) : e.IsNew := by
  unfold onBools at h
  split at h <;> cases h
  exact op.isNew_undefinedFor left right

theorem BinaryOp.isNew_of_plus {left right : Value} (h : plus left right = .error e) :
    e.IsNew := by
  unfold plus at h
  split at h <;> cases h
  exact isNew_undefinedFor ..

theorem BinaryOp.isNew_of_times {left right : Value} (h : times left right = .error e) :
    e.IsNew := by
  unfold times at h
  split at h
  · cases h
  · exact isNew_of_repeated h
  · exact isNew_of_repeated h
  · cases h
    exact isNew_undefinedFor ..

theorem BinaryOp.isNew_of_apply {op : BinaryOp} {left right : Value}
    (h : op.apply left right = .error e) : e.IsNew := by
  cases op with
  | add => exact isNew_of_plus h
  | mul => exact isNew_of_times h
  | sub | div | mod | pow | lt | le | gt | ge => exact isNew_of_onNumbers h
  | and | or => exact isNew_of_onBools h
  | eq | notEq => cases h
  | assign | pipe | map | reduce | filter =>
    cases h
    exact isNew_undefinedFor ..

theorem UnaryOp.isNew_of_apply {op : UnaryOp} {operand : Value}
    (h : op.apply operand = .error e) : e.IsNew := by
  unfold apply at h
  split at h <;> cases h
  exact ⟨rfl, rfl⟩

end Operations

/-! ## What the plan of a task can do -/

/-- Asking for smaller tasks with no further targets, binding targets, and raising new failures. -/
def Task.conditions {α : Type} (task : Task α) : Plan.Conditions where
  task t := t.size < task.size ∧ t.targets ⊆ task.targets
  name x := x ∈ task.targets
  failure := Failure.IsNew

theorem BinaryOp.ofToken?_eq_assign_iff {k : TokenKind} :
    ofToken? k = some .assign ↔ k = .equal := by
  cases k <;> simp [ofToken?]

section AllPlan

variable {P : Plan.Conditions}

theorem Plan.all_fail {α : Type} (hP : ∀ e : Failure, e.IsNew → P.failure e) {cause : Cause}
    (h : cause.isRecursionLimit = false) : (Plan.fail cause : Plan α).All P :=
  hP _ ⟨rfl, h⟩

theorem BinaryOp.all_done_apply (hP : ∀ e : Failure, e.IsNew → P.failure e) (op : BinaryOp)
    (left right : Value) : (Plan.done (op.apply left right)).All P := by
  cases h : op.apply left right with
  | ok v => trivial
  | error e => exact hP e (isNew_of_apply h)

theorem BinaryOp.all_plan (hP : ∀ e : Failure, e.IsNew → P.failure e) (op : BinaryOp) (line : Line)
    (left right : Value) : (op.plan line left right).All P := by
  cases op with
  | pipe =>
    cases right with
    | function f => exact fun _ => trivial
    | _ => exact Plan.all_fail hP rfl
  | map =>
    simp only [plan]
    split
    · exact Plan.all_enterEach _ _ _ _ fun _ _ => trivial
    · exact Plan.all_fail hP rfl
  | filter =>
    simp only [plan]
    split
    · exact Plan.all_enterEach _ _ _ _ fun _ _ => trivial
    · exact Plan.all_fail hP rfl
  | reduce =>
    simp only [plan]
    split
    · exact Plan.all_fail hP rfl
    · exact Plan.all_enterFold ..
    · exact Plan.all_fail hP rfl
  | _ => exact all_done_apply hP ..

theorem Operand.all_assignPlan (hP : ∀ e : Failure, e.IsNew → P.failure e) (interner : Interner)
    {target : Operand} (value : Operand)
    (hname : ∀ ident : Identifier Name, target = .mention ident → P.name ident.name) :
    (target.assignPlan interner value).All P := by
  cases target with
  | mention ident => exact fun env => ⟨hP _ ⟨rfl, rfl⟩, hname ident rfl, trivial⟩
  | value v => exact Plan.all_fail hP rfl

theorem Token.all_binaryPlan (hP : ∀ e : Failure, e.IsNew → P.failure e) (interner : Interner)
    (op : Token) {left : Operand} (right : Operand)
    (htask : ∀ (operator : BinaryOp) (l r : Value), P.task (.operation operator op.line l r))
    (hname : op.kind = .equal → ∀ ident : Identifier Name, left = .mention ident →
      P.name ident.name) : (op.binaryPlan interner left right).All P := by
  unfold binaryPlan
  split
  · exact Plan.all_fail hP rfl
  · exact Operand.all_assignPlan hP interner right (hname (BinaryOp.ofToken?_eq_assign_iff.1 ‹_›))
  · exact fun env => ⟨htask .., fun _ _ => trivial⟩

theorem Token.all_unaryPlan (hP : ∀ e : Failure, e.IsNew → P.failure e) (op : Token)
    (operand : Value) : (op.unaryPlan operand).All P := by
  unfold unaryPlan
  split
  · exact Plan.all_fail hP rfl
  · rename_i operator _
    cases h : operator.apply operand with
    | ok v => trivial
    | error e => exact hP e (UnaryOp.isNew_of_apply h)

theorem Expr.all_plan (interner : Interner) (e : Expr Name) :
    (e.plan interner).All (Task.expr e).conditions := by
  cases e with
  | literal value => trivial
  | «variable» ident => trivial
  | group inner =>
    exact ⟨⟨by simp [Task.size], by simp [Task.targets, targets]⟩, fun _ _ => trivial⟩
  | binary left op right =>
    have hsize : 0 < (Task.expr (.binary left op right)).size ∧
        (Task.expr left).size < (Task.expr (.binary left op right)).size ∧
        (Task.expr right).size < (Task.expr (.binary left op right)).size := by
      simp only [Task.size, Expr.binary.sizeOf_spec]
      omega
    refine ⟨⟨hsize.2.1, by simp [Task.targets, targets]⟩, fun l hl =>
      ⟨⟨hsize.2.2, by simp [Task.targets, targets]⟩, fun r _ => ?_⟩⟩
    refine op.all_binaryPlan (fun _ h => h) interner r
      (fun _ _ _ => ⟨hsize.1, by simp [Task.targets]⟩) ?_
    rintro hop ident rfl
    have hident : left.mentioned? = some ident := hl
    simp [Task.conditions, Task.targets, targets, assigned, hop, hident]
  | unary op operand =>
    refine ⟨⟨?_, by simp [Task.targets, targets]⟩, fun v _ => op.all_unaryPlan (fun _ h => h) v⟩
    simp only [Task.size, Expr.unary.sizeOf_spec]
    omega
  | call callee args =>
    simp only [plan, Identifier.callPlan, Plan.All]
    intro env
    split
    · refine ⟨⟨?_, by simp [Task.targets, targets]⟩, fun _ _ _ => trivial⟩
      simp only [Task.size, Expr.call.sizeOf_spec]
      omega
    · exact ⟨rfl, rfl⟩
    · exact ⟨rfl, rfl⟩
  | list elements =>
    exact ⟨⟨by simp [Task.size], by simp [Task.targets, targets]⟩, fun _ _ _ => trivial⟩

theorem Stmt.all_plan (interner : Interner) (s : Stmt Name) :
    (s.plan interner).All (Task.stmt s).conditions := by
  cases s with
  | print expr =>
    refine ⟨⟨?_, by simp [Task.targets, targets]⟩, fun _ _ => trivial⟩
    simp only [Task.size, Stmt.print.sizeOf_spec]
    omega
  | expression expr =>
    exact ⟨⟨by simp [Task.size], by simp [Task.targets, targets]⟩, fun _ _ => trivial⟩
  | conditional condition thenBlock elseBlock =>
    have hsize :
        (Task.value condition).size <
            (Task.stmt (.conditional condition thenBlock elseBlock)).size ∧
          (Task.block thenBlock).size <
            (Task.stmt (.conditional condition thenBlock elseBlock)).size := by
      simp only [Task.size, Stmt.conditional.sizeOf_spec]
      omega
    cases elseBlock with
    | none =>
      simp only [plan, Plan.All]
      refine ⟨⟨hsize.1, by simp [Task.targets, targets]⟩, fun v _ => ?_⟩
      split
      · exact ⟨⟨hsize.2, by simp [Task.targets, targets]⟩, fun _ _ => trivial⟩
      · trivial
    | some elseBlock =>
      have helse : (Task.block elseBlock).size <
          (Task.stmt (.conditional condition thenBlock (some elseBlock))).size := by
        simp only [Task.size, Stmt.conditional.sizeOf_spec, Option.some.sizeOf_spec]
        omega
      simp only [plan, Plan.All]
      refine ⟨⟨hsize.1, by simp [Task.targets, targets]⟩, fun v _ => ?_⟩
      split
      · exact ⟨⟨hsize.2, by simp [Task.targets, targets]⟩, fun _ _ => trivial⟩
      · exact ⟨⟨helse, by simp [Task.targets, targets]⟩, fun _ _ => trivial⟩
  | function node name params body =>
    exact ⟨⟨rfl, rfl⟩, by simp [Task.conditions, Task.targets, targets], trivial⟩
  | «return» expr =>
    refine ⟨⟨?_, by simp [Task.targets, targets]⟩, fun _ _ => trivial⟩
    simp only [Task.size, Stmt.return.sizeOf_spec]
    omega

/-- A list is larger than its head, and by more than what looking up a value adds. -/
theorem Task.size_head_lt {α : Type} [SizeOf α] (a : α) (as : List α) :
    2 * sizeOf a + 1 < 2 * sizeOf (a :: as) := by
  rw [List.cons.sizeOf_spec]
  omega

theorem Task.size_tail_lt {α : Type} [SizeOf α] (a : α) (as : List α) :
    2 * sizeOf as < 2 * sizeOf (a :: as) := by
  rw [List.cons.sizeOf_spec]
  omega

/-- **What the plan of a task can do**: ask for smaller tasks with no further targets, bind targets
of the task, and raise new failures. -/
theorem Task.all_plan {α : Type} (interner : Interner) (task : Task α) :
    (task.plan interner).All task.conditions := by
  cases task with
  | expr e => exact e.all_plan interner
  | value e => exact ⟨⟨by simp [size], by simp [targets]⟩, fun _ _ _ => trivial⟩
  | values es =>
    cases es with
    | nil => trivial
    | cons e es =>
      exact ⟨⟨size_head_lt e es, by simp [targets, Expr.allTargets]⟩, fun _ _ =>
        ⟨⟨size_tail_lt e es, by simp [targets, Expr.allTargets]⟩, fun _ _ => trivial⟩⟩
  | operation op line left right => exact BinaryOp.all_plan (fun _ h => h) ..
  | stmt s => exact s.all_plan interner
  | block ss =>
    match ss with
    | [] => trivial
    | [last] =>
      exact ⟨⟨Nat.lt_of_succ_lt (size_head_lt last []), by simp [targets, Stmt.allTargets]⟩,
        fun _ _ => trivial⟩
    | s :: t :: rest =>
      exact ⟨⟨Nat.lt_of_succ_lt (size_head_lt s (t :: rest)), by simp [targets, Stmt.allTargets]⟩,
        fun _ _ => ⟨⟨size_tail_lt s (t :: rest), by simp [targets, Stmt.allTargets]⟩,
          fun _ _ => trivial⟩⟩
  | body ss =>
    cases ss with
    | nil => trivial
    | cons s rest =>
      refine ⟨⟨Nat.lt_of_succ_lt (size_head_lt s rest), by simp [targets, Stmt.allTargets]⟩,
        fun yielded _ => ?_⟩
      cases yielded with
      | none =>
        exact ⟨⟨size_tail_lt s rest, by simp [targets, Stmt.allTargets]⟩, fun _ _ => trivial⟩
      | some v => trivial
  | program p =>
    cases p with
    | nil => trivial
    | cons s rest =>
      exact ⟨⟨Nat.lt_of_succ_lt (size_head_lt s rest), by simp [targets, Stmt.allTargets]⟩,
        fun _ _ => ⟨⟨size_tail_lt s rest, by simp [targets, Stmt.allTargets]⟩,
          fun _ _ => trivial⟩⟩
  | arguments args =>
    match args with
    | [] => trivial
    | .expr e :: rest =>
      have hsize : (Task.value e).size < (Task.arguments (.expr e :: rest)).size := by
        simp only [size, List.cons.sizeOf_spec, Argument.expr.sizeOf_spec]
        omega
      exact ⟨⟨hsize, by simp [targets, Argument.targets]⟩, fun _ _ =>
        ⟨⟨size_tail_lt (Argument.expr e) rest, by simp [targets, Argument.targets]⟩,
          fun _ _ => trivial⟩⟩
    | .value v :: rest =>
      exact ⟨⟨size_tail_lt (Argument.value v) rest, by simp [targets, Argument.targets]⟩,
        fun _ _ => trivial⟩
  | call f args line => exact ⟨⟨by simp [size], by simp [targets]⟩, fun _ _ _ => trivial⟩

end AllPlan
end BindOnce

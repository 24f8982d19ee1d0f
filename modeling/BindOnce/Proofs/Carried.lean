import BindOnce.Proofs.Steps

/-!
# Evaluation passes lists on

No step of an evaluation looks for a list anywhere but in the values it works on: operators hand
them to functions and get values back, look-ups find what was bound, and the only new lists are
those of `makeList` steps, of items that are at hand.  So a property that lists have and hand down
to their items is kept, as long as the lists that are made have it.

## What is here

* `Task.givenValues`, `Task.resultValues`, `Plan.stepValues` — the values in a task, in what a task
  results in, and in the first step of a plan.
* `Value.Hereditary` — properties that matter for lists only and pass to items.
* `Plan.Carries` — every step works on values that have the property, if the steps before have
  resulted in such.
* `Task.plan_carries` — plans of tasks do.
-/

set_option autoImplicit false
namespace BindOnce

/-! ## The values in tasks, results and steps -/

/-- The value of an argument that is at hand. -/
def Argument.values : Argument → List Value
  | .expr _ => []
  | .value v => [v]

/-- The values that a task is about. -/
def Task.givenValues : {α : Type} → Task α → List Value
  | _, .operation _ _ left right => [left, right]
  | _, .arguments args => args.flatMap Argument.values
  | _, .call _ args _ => args.flatMap Argument.values
  | _, _ => []

/-- The values in what a task results in. -/
def Task.resultValues : {α : Type} → Task α → α → List Value
  | _, .expr _, .mention _ => []
  | _, .expr _, .value v => [v]
  | _, .value _, v | _, .operation .., v | _, .body _, v | _, .call .., v => [v]
  | _, .values _, vs | _, .arguments _, vs => vs
  | _, .stmt _, v? | _, .block _, v? => v?.toList
  | _, .program _, _ => []

/-- The values that the first step of a plan works on. -/
def Plan.stepValues {α : Type} : Plan α → List Value
  | .makeList items _ => items
  | .bindOr _ _ v _ => [v]
  | .ask task _ => task.givenValues
  | .enter _ args _ _ => args
  | _ => []

/-! ## Properties that are passed on -/

/-- A property that matters for lists only, and that the items of a list have if the list has it. -/
structure Value.Hereditary (P : Value → Prop) : Prop where
  of_kind : ∀ v : Value, v.kind ≠ .list → P v
  item : ∀ {id : ListId} {items : List Value}, P (.list id items) → ∀ v ∈ items, P v

/-- Names are bound to values with the property only. -/
def Env.Carries (P : Value → Prop) (env : Env) : Prop :=
  ∀ (x : Name) (v : Value), env.lookup x = some v → P v

theorem Env.Carries.overlay {P : Value → Prop} {env : Env} (h : env.Carries P) (f : Func)
    {args : List Value} (hargs : ∀ v ∈ args, P v) : (env.overlay (f.bindings args)).Carries P := by
  intro x v hx
  rw [lookup_overlay, Option.or_eq_some_iff] at hx
  rcases hx with hparam | ⟨-, hx⟩
  · obtain ⟨before, after, hmem, -⟩ := List.lookup_eq_some_iff.1 hparam
    have hbound : (x, v) ∈ f.bindings args := by
      rw [← List.mem_reverse, hmem]
      exact List.mem_append_right before List.mem_cons_self
    exact hargs v (List.of_mem_zip hbound).2
  · exact h x v hx

/-- Every step of the plan works on values with the property, whatever the steps before it result in
as long as that has the property, and the end result satisfies `R`. -/
def Plan.Carries (P : Value → Prop) {α : Type} (R : α → Prop) : Plan α → Prop
  | .done (.ok a) => R a
  | .done (.error _) => True
  | .readEnv next => ∀ env : Env, env.Carries P → (next env).Carries P R
  | .makeList items next => (∀ v ∈ items, P v) ∧ ∀ v, P v → (next v).Carries P R
  | .printLine _ next => next.Carries P R
  | .bindOr _ _ v next => P v ∧ next.Carries P R
  | .ask task next =>
    (∀ v ∈ task.givenValues, P v) ∧ ∀ b, (∀ v ∈ task.resultValues b, P v) → (next b).Carries P R
  | .enter _ args _ next => (∀ v ∈ args, P v) ∧ ∀ v, P v → (next v).Carries P R
  | .onLine _ rest => rest.Carries P R

theorem Plan.Carries.stepValues {P : Value → Prop} {α : Type} {R : α → Prop} {p : Plan α}
    (h : p.Carries P R) : ∀ v ∈ p.stepValues, P v := by
  cases p with
  | makeList items next => exact h.1
  | bindOr cause x v next => exact fun w hw => List.mem_singleton.1 hw ▸ h.1
  | ask task next => exact h.1
  | enter f args line next => exact h.1
  | _ => exact fun _ hv => nomatch hv

/-! ## Operators do not result in lists -/

section Operators

variable {left right v : Value}

theorem kind_ne_list_of_repeated {s : String} {count : Float} (h : repeated s count = .ok v) :
    v.kind ≠ .list := by
  rcases repeated_cases s count with ⟨t, heq⟩ | heq <;> cases heq.symm.trans h
  nofun

theorem BinaryOp.kind_ne_list_of_onNumbers {op : BinaryOp} {f : Float → Float → Value}
    (hf : ∀ a b, (f a b).kind ≠ .list) (h : op.onNumbers f left right = .ok v) :
    v.kind ≠ .list := by
  unfold onNumbers at h
  split at h <;> cases h
  exact hf _ _

theorem BinaryOp.kind_ne_list_of_onBools {op : BinaryOp} {f : Bool → Bool → Bool}
    (h : op.onBools f left right = .ok v) : v.kind ≠ .list := by
  unfold onBools at h
  split at h <;> cases h
  nofun

theorem BinaryOp.kind_ne_list_of_plus (h : plus left right = .ok v) : v.kind ≠ .list := by
  unfold plus at h
  split at h <;> cases h <;> nofun

theorem BinaryOp.kind_ne_list_of_times (h : times left right = .ok v) : v.kind ≠ .list := by
  unfold times at h
  split at h
  · cases h
    nofun
  · exact kind_ne_list_of_repeated h
  · exact kind_ne_list_of_repeated h
  · cases h

theorem BinaryOp.kind_ne_list_of_apply {op : BinaryOp} (h : op.apply left right = .ok v) :
    v.kind ≠ .list := by
  cases op with
  | add => exact kind_ne_list_of_plus h
  | mul => exact kind_ne_list_of_times h
  | sub | div | mod | pow | lt | le | gt | ge =>
    exact kind_ne_list_of_onNumbers (fun _ _ h => by cases h) h
  | and | or => exact kind_ne_list_of_onBools h
  | eq | notEq => cases h; nofun
  | assign | pipe | map | reduce | filter => cases h

theorem UnaryOp.kind_ne_list_of_apply {op : UnaryOp} {operand : Value}
    (h : op.apply operand = .ok v) : v.kind ≠ .list := by
  unfold apply at h
  split at h <;> cases h <;> nofun

end Operators

/-! ## Plans carry hereditary properties -/

section Carries

variable {P : Value → Prop} {α : Type} {R : α → Prop}

namespace Value.Hereditary

theorem worded (hP : Value.Hereditary P) {v : Value} (h : P v) : P v.worded := by
  cases v with
  | bool b => cases b <;> exact hP.of_kind _ nofun
  | nil => exact hP.of_kind _ nofun
  | _ => exact h

theorem ofLiteral (hP : Value.Hereditary P) (l : Literal) : P (.ofLiteral l) := by
  cases l <;> exact hP.of_kind _ nofun

theorem valueIn (hP : Value.Hereditary P) {env : Env} (henv : env.Carries P) {operand : Operand}
    (h : ∀ v, operand = .value v → P v) : P (operand.valueIn env) := by
  cases operand with
  | value v => exact h v rfl
  | mention ident =>
    rw [Operand.valueIn, Env.value]
    cases hv : env.lookup ident.name with
    | none => exact hP.of_kind _ nofun
    | some v => exact henv _ _ hv

end Value.Hereditary

/-- What an expression results in has the property, if it is a value. -/
theorem Operand.carries_iff {e : Expr Name} {operand : Operand} :
    (∀ v ∈ (Task.expr e).resultValues operand, P v) ↔ ∀ v, operand = .value v → P v := by
  cases operand <;> simp [Task.resultValues]

theorem Plan.carries_done {r : Except Failure α} (h : ∀ a, r = .ok a → R a) :
    (Plan.done r).Carries P R := by
  cases r with
  | ok a => exact h a rfl
  | error e => trivial

theorem Plan.carries_enterEach (hP : Value.Hereditary P) (f : Func) (line : Line) {list : Value}
    (hlist : P list) {items : List (Value × Nat)} (hitems : ∀ p ∈ items, P p.1)
    {next : List Value → Plan α} (hnext : ∀ vs, (∀ v ∈ vs, P v) → (next vs).Carries P R) :
    (enterEach f line list items next).Carries P R := by
  induction items generalizing next with
  | nil => exact hnext [] nofun
  | cons p ps ih =>
    rw [List.forall_mem_cons] at hitems
    refine ⟨?_, fun v hv => ih hitems.2 fun vs hvs => hnext _ (List.forall_mem_cons.2 ⟨hv, hvs⟩)⟩
    simpa using ⟨hitems.1, hP.of_kind _ nofun, hlist⟩

theorem Plan.carries_enterFold (hP : Value.Hereditary P) (f : Func) (line : Line) {list acc : Value}
    (hlist : P list) (hacc : P acc) {items : List (Value × Nat)} (hitems : ∀ p ∈ items, P p.1) :
    (enterFold f line list acc items).Carries P P := by
  induction items generalizing acc with
  | nil => exact hacc
  | cons p ps ih =>
    rw [List.forall_mem_cons] at hitems
    refine ⟨?_, fun v hv => ih hv hitems.2⟩
    simpa using ⟨hacc, hitems.1, hP.of_kind _ nofun, hlist⟩

theorem BinaryOp.plan_carries (hP : Value.Hereditary P) (op : BinaryOp) (line : Line)
    {left right : Value} (hl : P left) (hr : P right) : (op.plan line left right).Carries P P := by
  have happly := Plan.carries_done (P := P) (R := P) (r := op.apply left right)
    fun v hv => hP.of_kind v (kind_ne_list_of_apply hv)
  have hitem {items : List Value} (h : ∀ v ∈ items, P v) (n : Nat) : ∀ p ∈ items.zipIdx n, P p.1 :=
    fun p hp => h p.1 (List.fst_mem_of_mem_zipIdx hp)
  cases op with
  | pipe =>
    cases right with
    | function f => exact ⟨by simpa using hl, fun _ hv => hv⟩
    | _ => trivial
  | map =>
    simp only [plan]
    split
    · refine Plan.carries_enterEach hP _ _ hl (hitem (hP.item hl) 0) fun vs hvs => ?_
      exact ⟨hvs, fun _ hv => hv⟩
    · trivial
  | filter =>
    simp only [plan]
    split
    · rename_i items _
      refine Plan.carries_enterEach hP _ _ hl (hitem (hP.item hl) 0) fun vs _ => ?_
      have hkept := Callback.accepted_sublist items vs
      exact ⟨fun v hv => hP.item hl v (hkept.subset hv), fun _ hv => hv⟩
    · trivial
  | reduce =>
    simp only [plan]
    split
    · trivial
    · have hitems := List.forall_mem_cons.1 (hP.item hl)
      exact Plan.carries_enterFold hP _ _ hl hitems.1 (hitem hitems.2 1)
    · trivial
  | _ => exact happly

theorem Operand.assignPlan_carries (hP : Value.Hereditary P) (interner : Interner)
    (target : Operand) {value : Operand} (hvalue : ∀ v, value = .value v → P v) :
    (target.assignPlan interner value).Carries P fun o => ∀ v, o = .value v → P v := by
  cases target with
  | value v => trivial
  | mention ident =>
    intro env henv
    have hv := hP.valueIn henv hvalue
    exact ⟨hv, fun v h => by cases h; exact hv⟩

theorem Token.binaryPlan_carries (hP : Value.Hereditary P) (interner : Interner) (op : Token)
    {left right : Operand} (hl : ∀ v, left = .value v → P v) (hr : ∀ v, right = .value v → P v) :
    (op.binaryPlan interner left right).Carries P fun o => ∀ v, o = .value v → P v := by
  unfold binaryPlan
  split
  · trivial
  · exact Operand.assignPlan_carries hP interner left hr
  · intro env henv
    refine ⟨?_, fun v hv w h => ?_⟩
    · simpa [Task.givenValues] using ⟨hP.valueIn henv hl, hP.valueIn henv hr⟩
    · cases h
      exact hv v (List.mem_singleton_self v)

theorem Token.unaryPlan_carries (hP : Value.Hereditary P) (op : Token) (operand : Value) :
    (op.unaryPlan operand).Carries P fun o => ∀ v, o = .value v → P v := by
  unfold unaryPlan
  split
  · trivial
  · rename_i operator _
    refine Plan.carries_done fun o ho v hv => hP.of_kind v ?_
    subst hv
    cases h : operator.apply operand with
    | error e => rw [h] at ho; cases ho
    | ok w =>
      rw [h] at ho
      cases ho
      exact UnaryOp.kind_ne_list_of_apply h

theorem Expr.plan_carries (hP : Value.Hereditary P) (interner : Interner) (e : Expr Name) :
    (e.plan interner).Carries P fun o => ∀ v, o = .value v → P v := by
  cases e with
  | literal value =>
    rintro _ ⟨⟩
    exact hP.ofLiteral value
  | «variable» ident => nofun
  | group inner => exact ⟨nofun, fun _ ho => Operand.carries_iff.1 ho⟩
  | binary left op right =>
    refine ⟨nofun, fun l hl => ⟨nofun, fun r hr => ?_⟩⟩
    exact op.binaryPlan_carries hP interner (Operand.carries_iff.1 hl) (Operand.carries_iff.1 hr)
  | unary op operand => exact ⟨nofun, fun v _ => op.unaryPlan_carries hP v⟩
  | call callee args =>
    intro env _
    dsimp only
    split
    · refine ⟨nofun, fun vs hvs => ⟨hvs, ?_⟩⟩
      rintro v hv _ ⟨⟩
      exact hv
    · trivial
    · trivial
  | list elements =>
    refine ⟨nofun, fun vs hvs => ⟨hvs, ?_⟩⟩
    rintro v hv _ ⟨⟩
    exact hv

theorem Stmt.plan_carries (hP : Value.Hereditary P) (interner : Interner) (s : Stmt Name) :
    (s.plan interner).Carries P fun v? => ∀ v ∈ v?.toList, P v := by
  cases s with
  | print expr => exact ⟨nofun, fun _ _ => nofun⟩
  | expression expr => exact ⟨nofun, fun _ _ => nofun⟩
  | conditional condition thenBlock elseBlock =>
    cases elseBlock with
    | none =>
      refine ⟨nofun, fun v _ => ?_⟩
      dsimp only
      split
      · exact ⟨nofun, fun _ h => h⟩
      · nofun
    | some elseBlock =>
      refine ⟨nofun, fun v _ => ?_⟩
      dsimp only
      split <;> exact ⟨nofun, fun _ h => h⟩
  | function node name params body => exact ⟨hP.of_kind _ nofun, nofun⟩
  | «return» expr =>
    refine ⟨nofun, fun v hv w hw => ?_⟩
    cases List.mem_singleton.1 hw
    exact hP.worded (hv v (List.mem_singleton_self v))

/-- **The plan of a task carries hereditary properties**, from the values that the task is about to
those that it results in. -/
theorem Task.plan_carries (hP : Value.Hereditary P) (interner : Interner) {task : Task α}
    (h : ∀ v ∈ task.givenValues, P v) :
    (task.plan interner).Carries P fun a => ∀ v ∈ task.resultValues a, P v := by
  cases task with
  | expr e =>
    simp only [Operand.carries_iff]
    exact e.plan_carries hP interner
  | value e =>
    refine ⟨nofun, fun o ho env henv v hv => ?_⟩
    cases List.mem_singleton.1 hv
    exact hP.valueIn henv (Operand.carries_iff.1 ho)
  | values es =>
    cases es with
    | nil => nofun
    | cons e es =>
      exact ⟨nofun, fun v hv => ⟨nofun, fun vs hvs => List.forall_mem_cons.2
        ⟨hv v (List.mem_singleton_self v), hvs⟩⟩⟩
  | operation op line left right =>
    simp only [resultValues, List.mem_singleton, forall_eq]
    exact op.plan_carries hP line (h left List.mem_cons_self) (h right (by simp [givenValues]))
  | stmt s => exact s.plan_carries hP interner
  | block ss =>
    match ss with
    | [] => nofun
    | [last] =>
      refine ⟨nofun, fun v? hv => ?_⟩
      dsimp only
      split
      · exact hv
      · nofun
    | s :: t :: rest => exact ⟨nofun, fun _ _ => ⟨nofun, fun _ h => h⟩⟩
  | body ss =>
    cases ss with
    | nil =>
      intro v hv
      cases List.mem_singleton.1 hv
      exact hP.of_kind _ nofun
    | cons s rest =>
      refine ⟨nofun, fun v? hv => ?_⟩
      cases v? with
      | none => exact ⟨nofun, fun _ h => h⟩
      | some v => exact hv
  | program p =>
    cases p with
    | nil => nofun
    | cons s rest => exact ⟨nofun, fun _ _ => ⟨nofun, fun _ h => h⟩⟩
  | arguments args =>
    match args with
    | [] => nofun
    | .expr e :: rest =>
      exact ⟨nofun, fun v hv => ⟨h, fun vs hvs => List.forall_mem_cons.2
        ⟨hv v (List.mem_singleton_self v), hvs⟩⟩⟩
    | .value v :: rest =>
      rw [givenValues, List.flatMap_cons, Argument.values, List.singleton_append,
        List.forall_mem_cons] at h
      exact ⟨h.2, fun vs hvs => List.forall_mem_cons.2 ⟨h.1, hvs⟩⟩
  | call f args line =>
    refine ⟨h, fun vs hvs => ⟨hvs, fun v hv w hw => ?_⟩⟩
    cases List.mem_singleton.1 hw
    exact hv

/-- Bodies of functions carry hereditary properties from what is bound to what they return. -/
theorem Func.body_carries (hP : Value.Hereditary P) (interner : Interner) (f : Func) :
    ((Task.body f.decl.body).plan interner).Carries P P := by
  have h : ((Task.body f.decl.body).plan interner).Carries P fun v =>
      ∀ w ∈ (Task.body f.decl.body).resultValues v, P w := Task.plan_carries hP interner nofun
  simpa only [Task.resultValues, List.mem_singleton, forall_eq] using h

end Carries

end BindOnce

import BindOnce.Proofs.Calling
import BindOnce.Proofs.Conditionals

/-!
# What yields, and what calls result in

Two rules decide what a call results in.  The body of a function stops at the first statement that
yields.  A block does not stop: it executes all its statements, and whether it yields depends on how
it is written, namely on whether it ends with a `return`.  So a conditional as the last statement of
a block never yields through it, even if its own block does.

What is yielded is a word if it was a truth value or the absent value.  A call therefore results in
the absent value just if nothing yielded, and never in a truth value.  Hence a condition that is a
call never holds, and a logical operator that is applied to a call always fails.

## What is here

* `Stmt.YieldsFrom` — the statements that yield, by their form and the block they choose.
* `Stmt.BodyComesTo`, `Stmt.BodyExecutes` — the statements of a body that a call executes, and what
  they yield.  `Stmt.bodyExecutes_of_run` has the two ways in which a body ends.
* `Expr.IsApplication` — calls and pipes, with or without parentheses.
* `calls_result_in_the_first_yield` — all of this.
-/

set_option autoImplicit false
namespace BindOnce

/-! ## Statements that yield -/

/-- The statement yields if it is executed in the state: it is a `return`, or a conditional that
chooses a block that ends with a `return`. -/
inductive Stmt.YieldsFrom (interner : Interner) (s : State) : Stmt Name → Prop where
  | return (e : Expr Name) : YieldsFrom interner s (.return e)
  | conditional {condition : Expr Name} {thenBlock : List (Stmt Name)}
      {elseBlock : Option (List (Stmt Name))} {v : Value} {t : State} {before : List (Stmt Name)}
      {e : Expr Name} :
    condition.runValue interner s = (.ok v, t) →
    Stmt.chosenBlock v thenBlock elseBlock = before ++ [.return e] →
    YieldsFrom interner s (.conditional condition thenBlock elseBlock)

section Statements

variable {interner : Interner} {s t : State}

theorem Stmt.ends_iff_run {stmt : Stmt Name} {r : Except Failure (Option Value)} :
    Ends interner (stmt.plan interner) s r t ↔ stmt.run interner s = (r, t) := by
  show Ends interner ((Task.stmt stmt).plan interner) s r t ↔ _
  exact Ends.iff_run

theorem Stmt.isReturn_iff {stmt : Stmt Name} : stmt.isReturn = true ↔ ∃ e, stmt = .return e := by
  cases stmt <;> simp [isReturn]

theorem Stmt.isSome_of_isReturn {stmt : Stmt Name} {yielded : Option Value}
    (hreturn : stmt.isReturn = true) (h : stmt.run interner s = (.ok yielded, t)) :
    yielded.isSome = true := by
  obtain ⟨e, rfl⟩ := Stmt.isReturn_iff.1 hreturn
  cases Stmt.ends_iff_run.2 h with
  | ask _ hdone =>
    cases hdone
    rfl

theorem Stmt.isSome_iff_of_execBlock {block : List (Stmt Name)} {yielded : Option Value}
    (h : Stmt.execBlock interner (callNow interner) block s = (.ok yielded, t)) :
    yielded.isSome = true ↔ ∃ before e, block = before ++ [.return e] := by
  rcases block.eq_nil_or_concat with rfl | ⟨before, last, hblock⟩
  · cases h
    simp
  · rw [List.concat_eq_append] at hblock
    subst hblock
    have hlast : (∃ before' e, before ++ [last] = before' ++ [.return e]) ↔
        last.isReturn = true := by
      simp [Stmt.isReturn_iff, List.append_singleton_inj]
    rw [hlast]
    rw [Stmt.execBlock_concat] at h
    obtain ⟨_, u, -, h⟩ := EvalM.bind_eq_ok_iff.1 h
    obtain ⟨y, w, hrun, h⟩ := EvalM.bind_eq_ok_iff.1 h
    cases h
    cases hreturn : last.isReturn with
    | false => simp
    | true => simpa using Stmt.isSome_of_isReturn hreturn hrun

theorem Stmt.isSome_iff_yieldsFrom {stmt : Stmt Name} {yielded : Option Value}
    (h : stmt.run interner s = (.ok yielded, t)) :
    yielded.isSome = true ↔ stmt.YieldsFrom interner s := by
  have hends := Stmt.ends_iff_run.2 h
  cases stmt with
  | print e =>
    cases hends with
    | ask _ h =>
      cases h with
      | printLine h =>
        cases h
        exact ⟨nofun, nofun⟩
  | expression e =>
    cases hends with
    | ask _ h =>
      cases h
      exact ⟨nofun, nofun⟩
  | conditional condition thenBlock elseBlock =>
    rw [Stmt.run, Stmt.exec_conditional] at h
    obtain ⟨v, u, hv, hblock⟩ := EvalM.bind_eq_ok_iff.1 h
    rw [Stmt.isSome_iff_of_execBlock hblock]
    constructor
    · rintro ⟨before, e, hreturn⟩
      exact .conditional hv hreturn
    · intro hyields
      cases hyields with
      | conditional hv' hreturn =>
        cases hv.symm.trans hv'
        exact ⟨_, _, hreturn⟩
  | function node name params body =>
    cases hends with
    | bindOr _ h =>
      cases h
      exact ⟨nofun, nofun⟩
  | «return» e => exact ⟨fun _ => .return e, fun _ => Stmt.isSome_of_isReturn rfl h⟩

theorem Stmt.ne_nil_of_run {stmt : Stmt Name} {v : Value}
    (h : stmt.run interner s = (.ok (some v), t)) : v ≠ .nil ∧ v.kind ≠ .boolean := by
  obtain ⟨w, rfl⟩ := (Stmt.ends_iff_run.2 h).stmt_worded
  exact ⟨w.worded_ne_nil, w.kind_worded_ne_boolean⟩

end Statements

/-! ## The statements of a body -/

/-- A body that starts in the first state comes to its statement at the position, in the other
state. -/
inductive Stmt.BodyComesTo (interner : Interner) :
    List (Stmt Name) → State → Nat → State → Prop where
  | first {stmt : Stmt Name} {rest : List (Stmt Name)} {s : State} :
    BodyComesTo interner (stmt :: rest) s 0 s
  | later {stmt : Stmt Name} {rest : List (Stmt Name)} {s t u : State} {k : Nat} :
    Spawns interner ⟨.body rest, t⟩ ⟨.body (stmt :: rest), s⟩ →
    BodyComesTo interner rest t k u → BodyComesTo interner (stmt :: rest) s (k + 1) u

/-- A body that starts in the state executes its statement at the position, and the statement yields
so. -/
def Stmt.BodyExecutes (interner : Interner) (body : List (Stmt Name)) (s : State) (k : Nat)
    (yielded : Option Value) : Prop :=
  ∃ stmt t u, body[k]? = some stmt ∧ Stmt.BodyComesTo interner body s k t ∧
    stmt.run interner t = (.ok yielded, u)

section Bodies

variable {interner : Interner} {s t : State} {stmt : Stmt Name} {body rest : List (Stmt Name)}
  {k : Nat} {yielded : Option Value}

/-- A body goes on after a statement just if that yields nothing. -/
theorem Spawns.body_cons_iff :
    Spawns interner ⟨.body rest, t⟩ ⟨.body (stmt :: rest), s⟩ ↔
      stmt.run interner s = (.ok none, t) := by
  rw [← Stmt.ends_iff_run]
  refine ⟨fun h => ?_, fun h => .ask (.ask h .here)⟩
  generalize hb : (⟨.body rest, t⟩ : Start) = b at h
  -- a body starts its first statement and, if that yields nothing, the rest; it enters no function
  cases h with
  | ask h =>
    cases h with
    | here => cases congrArg Start.body? hb
    | @ask _ _ _ _ _ _ yielded _ hstmt h =>
      cases yielded with
      | some v => cases h
      | none =>
        cases h with
        | here =>
          cases hb
          exact hstmt
        | ask _ h => cases h
  | enter h _ =>
    cases h with
    | @ask _ _ _ _ _ _ yielded _ _ h =>
      cases yielded with
      | some v => cases h
      | none => cases h with | ask _ h => cases h

theorem Stmt.BodyComesTo.unique {t' : State} (h : Stmt.BodyComesTo interner body s k t)
    (h' : Stmt.BodyComesTo interner body s k t') : t = t' := by
  induction h with
  | first =>
    cases h'
    rfl
  | later h _ ih =>
    cases h' with
    | later h' hrest' =>
      cases (Spawns.body_cons_iff.1 h).symm.trans (Spawns.body_cons_iff.1 h')
      exact ih hrest'

namespace Stmt.BodyExecutes

theorem unique {yielded' : Option Value} (h : Stmt.BodyExecutes interner body s k yielded)
    (h' : Stmt.BodyExecutes interner body s k yielded') : yielded = yielded' := by
  obtain ⟨stmt, t, u, hstmt, hcomes, hrun⟩ := h
  obtain ⟨stmt', t', u', hstmt', hcomes', hrun'⟩ := h'
  cases hstmt.symm.trans hstmt'
  cases hcomes.unique hcomes'
  cases hrun.symm.trans hrun'
  rfl

theorem first (h : stmt.run interner s = (.ok yielded, t)) :
    Stmt.BodyExecutes interner (stmt :: rest) s 0 yielded :=
  ⟨stmt, s, t, rfl, .first, h⟩

theorem later (h : stmt.run interner s = (.ok none, t))
    (hrest : Stmt.BodyExecutes interner rest t k yielded) :
    Stmt.BodyExecutes interner (stmt :: rest) s (k + 1) yielded := by
  obtain ⟨stmt', u, w, hstmt, hcomes, hrun⟩ := hrest
  exact ⟨stmt', u, w, hstmt, .later (Spawns.body_cons_iff.2 h) hcomes, hrun⟩

/-- The statements before a position in a longer body, the new first one included. -/
theorem before_succ {n : Nat} (h : stmt.run interner s = (.ok none, t))
    (hrest : ∀ j < n, Stmt.BodyExecutes interner rest t j none) :
    ∀ j < n + 1, Stmt.BodyExecutes interner (stmt :: rest) s j none := by
  intro j hj
  cases j with
  | zero => exact first h
  | succ j => exact later h (hrest j (Nat.lt_of_succ_lt_succ hj))

end Stmt.BodyExecutes

/-- The two ways in which a body ends well: nothing yields and all statements are executed, or one
yields and it is the last that is executed. -/
theorem Stmt.bodyExecutes_of_run {v : Value}
    (h : (Task.body body).run interner s = (.ok v, t)) :
    (v = .nil ∧ ∀ k < body.length, Stmt.BodyExecutes interner body s k none) ∨
    (v ≠ .nil ∧ ∃ k, (∀ j < k, Stmt.BodyExecutes interner body s j none) ∧
      Stmt.BodyExecutes interner body s k (some v) ∧
      ∀ j > k, ∀ u, ¬ Stmt.BodyComesTo interner body s j u) := by
  -- the rest of the body starts in the state that the first statement leaves
  induction body generalizing s with
  | nil =>
    cases h
    exact .inl ⟨rfl, by simp⟩
  | cons stmt rest ih =>
    cases Ends.iff_run.2 h with
    | @ask _ _ _ _ _ u _ yielded _ hstmt hrest =>
      have hrun : stmt.run interner s = (.ok yielded, u) := Stmt.ends_iff_run.1 hstmt
      cases yielded with
      | some w =>
        cases hrest
        refine .inr ⟨(Stmt.ne_nil_of_run hrun).1, 0, nofun, .first hrun, fun j hj u hcomes => ?_⟩
        cases hcomes with
        | first => exact Nat.lt_irrefl 0 hj
        | later hgoes _ => cases hrun.symm.trans (Spawns.body_cons_iff.1 hgoes)
      | none =>
        cases hrest with
        | ask hrest hdone =>
          cases hdone
          rcases ih (Ends.iff_run.1 hrest) with ⟨hv, hall⟩ | ⟨hv, k, hbefore, hk, hafter⟩
          · exact .inl ⟨hv, .before_succ hrun hall⟩
          · refine .inr ⟨hv, k + 1, .before_succ hrun hbefore, .later hrun hk,
              fun j hj u hcomes => ?_⟩
            cases hcomes with
            | first => exact Nat.not_lt_zero _ hj
            | later hgoes hrest' =>
              cases hrun.symm.trans (Spawns.body_cons_iff.1 hgoes)
              exact hafter _ (Nat.lt_of_succ_lt_succ hj) _ hrest'

/-- A call that ends well has executed the body, and that has ended with the same value. -/
theorem Func.body_of_run {f : Func} {args : List Argument} {line : Line} {v : Value}
    (h : f.run interner args line s = (.ok v, t)) :
    ∃ start u, Spawns interner ⟨.body f.decl.body, start⟩ ⟨.call f args line, s⟩ ∧
      (Task.body f.decl.body).run interner start = (.ok v, u) := by
  rw [← Task.run_call] at h
  cases Ends.iff_run.2 h with
  | ask hargs hcall =>
    cases hcall with
    | enter hpush hbody hdone =>
      cases hdone
      exact ⟨_, _, .enter (.ask hargs .here) hpush, Ends.iff_run.1 hbody⟩

end Bodies

/-! ## Applications -/

/-- The expression is a call or a pipe, possibly in parentheses. -/
inductive Expr.IsApplication {ν : Type} : Expr ν → Prop where
  | call (callee : Identifier ν) (args : List (Expr ν)) : IsApplication (.call callee args)
  | pipe (left : Expr ν) (line : Line) (right : Expr ν) :
    IsApplication (.binary left ⟨.pipe, line⟩ right)
  | group {inner : Expr ν} : IsApplication inner → IsApplication (.group inner)

section Applications

variable {interner : Interner} {s t : State}

theorem BinaryOp.kind_ne_boolean_of_pipe {line : Line} {left right v : Value}
    (h : Ends interner ((Task.operation .pipe line left right).plan interner) s (.ok v) t) :
    v.kind ≠ .boolean := by
  cases right with
  | function f =>
    cases h with
    | enter _ hbody hdone =>
      cases hdone
      exact hbody.body_kind_ne_boolean
  | _ => cases h

/-- An application evaluates to a value, not to the mention of a name, and never to a truth
value. -/
theorem Expr.IsApplication.value_of_ends {e : Expr Name} (he : e.IsApplication) {o : Operand}
    (h : Ends interner (e.plan interner) s (.ok o) t) :
    ∃ v, o = .value v ∧ v.kind ≠ .boolean := by
  induction he generalizing t with
  | call callee args =>
    cases h with
    | readEnv h =>
      dsimp only at h
      split at h
      · cases h with
        | ask _ h =>
          cases h with
          | enter _ hbody hdone =>
            cases hdone
            exact ⟨_, rfl, hbody.body_kind_ne_boolean⟩
      · cases h
      · cases h
  | pipe left line right =>
    cases h with
    | onLine h =>
      cases h with
      | ask _ h =>
        cases h with
        | ask _ h =>
          cases h with
          | readEnv h =>
            cases h with
            | ask hpipe hdone =>
              cases hdone
              exact ⟨_, rfl, BinaryOp.kind_ne_boolean_of_pipe hpipe⟩
  | group _ ih =>
    cases h with
    | ask h hdone =>
      cases hdone
      exact ih h

theorem Expr.IsApplication.kind_ne_boolean {e : Expr Name} (he : e.IsApplication) {v : Value}
    (h : e.runValue interner s = (.ok v, t)) : v.kind ≠ .boolean := by
  have hends : Ends interner ((Task.value e).plan interner) s (.ok v) t := Ends.iff_run.2 h
  cases hends with
  | ask hexpr hread =>
    obtain ⟨w, rfl, hw⟩ := he.value_of_ends hexpr
    cases hread with
    | readEnv hdone =>
      cases hdone
      exact hw

theorem Stmt.run_conditional_of_isApplication {condition : Expr Name}
    (hcondition : condition.IsApplication) (thenBlock : List (Stmt Name))
    (elseBlock : Option (List (Stmt Name))) :
    (Stmt.conditional condition thenBlock elseBlock).run interner s =
      (condition.runValue interner >>= fun _ =>
        (Task.block (elseBlock.getD [])).run interner) s := by
  rw [Stmt.run, Stmt.exec_conditional, EvalM.bind_apply, EvalM.bind_apply, Expr.runValue]
  rcases hv : condition.value interner (callNow interner) s with ⟨e | v, t⟩
  · rfl
  · have hfalse := Value.isTrue_eq_false_of_kind (hcondition.kind_ne_boolean hv)
    dsimp only
    rw [Stmt.chosenBlock, hfalse]
    rfl

theorem BinaryOp.kinds_of_onBools {op : BinaryOp} {f : Bool → Bool → Bool} {left right v : Value}
    (h : op.onBools f left right = .ok v) : left.kind = .boolean ∧ right.kind = .boolean := by
  unfold onBools at h
  split at h
  · exact ⟨rfl, rfl⟩
  · cases h

theorem Token.kinds_of_ends {op : Token} {left right o : Operand}
    (hop : op.kind = .andKeyword ∨ op.kind = .orKeyword)
    (h : Ends interner (op.binaryPlan interner left right) s (.ok o) t) :
    (left.valueIn s.env).kind = .boolean ∧ (right.valueIn s.env).kind = .boolean := by
  unfold binaryPlan at h
  rcases hop with hkind | hkind
  all_goals
    rw [hkind] at h
    cases h with
    | readEnv h =>
      cases h with
      | ask hdone _ =>
        simp only [Task.plan, BinaryOp.plan] at hdone
        generalize hr : BinaryOp.apply _ (left.valueIn s.env) (right.valueIn s.env) = r at hdone
        cases hdone
        exact BinaryOp.kinds_of_onBools hr

theorem Expr.IsApplication.fails_in_logic {left right : Expr Name} {op : Token}
    (hop : op.kind = .andKeyword ∨ op.kind = .orKeyword)
    (h : left.IsApplication ∨ right.IsApplication) :
    ∃ e t, (Expr.binary left op right).run interner s = (.error e, t) := by
  rcases hrun : (Expr.binary left op right).run interner s with ⟨e | o, t⟩
  · exact ⟨e, t, rfl⟩
  exfalso
  have hends : Ends interner ((Task.expr (.binary left op right)).plan interner) s (.ok o) t :=
    Ends.iff_run.2 hrun
  cases hends with
  | onLine hends =>
    cases hends with
    | ask hleft hends =>
      cases hends with
      | ask hright hends =>
        obtain ⟨hl, hr⟩ := Token.kinds_of_ends hop hends
        rcases h with h | h
        · obtain ⟨v, rfl, hv⟩ := h.value_of_ends hleft
          exact hv hl
        · obtain ⟨v, rfl, hv⟩ := h.value_of_ends hright
          exact hv hr

end Applications

/-- **A call results in what is yielded first.**  A statement yields just if it is a `return` or a
conditional that chooses a block that ends with one, and it yields neither the absent value nor a
truth value.  So a call results in the absent value just if all statements of the body have been
executed and none has yielded.  Otherwise it results in what the first of them that yields does
yield, and the body comes to none after that.  It never results in a truth value.  Hence a
conditional with an application for a condition does what the condition does and then what its other
block does, and a logical operator with an application on either side fails. -/
theorem calls_result_in_the_first_yield (interner : Interner) :
    (∀ (stmt : Stmt Name) (s t : State) (yielded : Option Value),
      stmt.run interner s = (.ok yielded, t) →
        (yielded.isSome = true ↔ stmt.YieldsFrom interner s) ∧
        ∀ v, yielded = some v → v ≠ .nil ∧ v.kind ≠ .boolean) ∧
    (∀ (f : Func) (args : List Argument) (line : Line) (s t : State) (v : Value),
      f.run interner args line s = (.ok v, t) →
        v.kind ≠ .boolean ∧
        ∃ start, Spawns interner ⟨.body f.decl.body, start⟩ ⟨.call f args line, s⟩ ∧
          (v = .nil ↔
            ∀ k < f.decl.body.length, Stmt.BodyExecutes interner f.decl.body start k none) ∧
          (v ≠ .nil → ∃ k, (∀ j < k, Stmt.BodyExecutes interner f.decl.body start j none) ∧
            Stmt.BodyExecutes interner f.decl.body start k (some v) ∧
            ∀ j > k, ∀ u, ¬ Stmt.BodyComesTo interner f.decl.body start j u)) ∧
    (∀ (condition : Expr Name) (thenBlock : List (Stmt Name))
      (elseBlock : Option (List (Stmt Name))) (s : State), condition.IsApplication →
        (Stmt.conditional condition thenBlock elseBlock).run interner s =
          (condition.runValue interner >>= fun _ =>
            (Task.block (elseBlock.getD [])).run interner) s) ∧
    (∀ (left right : Expr Name) (op : Token) (s : State),
      op.kind = .andKeyword ∨ op.kind = .orKeyword → left.IsApplication ∨ right.IsApplication →
        ∃ e t, (Expr.binary left op right).run interner s = (.error e, t)) := by
  refine ⟨fun stmt s t yielded h => ?_, fun f args line s t v h => ?_,
    fun condition thenBlock elseBlock s h => ?_, fun left right op s hop h => ?_⟩
  · refine ⟨Stmt.isSome_iff_yieldsFrom h, ?_⟩
    rintro v rfl
    exact Stmt.ne_nil_of_run h
  · obtain ⟨start, u, hstart, hbody⟩ := Func.body_of_run h
    refine ⟨Ends.body_kind_ne_boolean (Ends.iff_run.2 hbody), start, hstart, ?_⟩
    rcases Stmt.bodyExecutes_of_run hbody with ⟨hv, hall⟩ | ⟨hv, k, hbefore, hk, hafter⟩
    · exact ⟨⟨fun _ => hall, fun _ => hv⟩, fun hne => absurd hv hne⟩
    · refine ⟨⟨fun hnil => absurd hnil hv, fun hall => ?_⟩, fun _ => ⟨k, hbefore, hk, hafter⟩⟩
      -- the statement at `k` yields `v`, so it is not the case that none yields
      obtain ⟨stmt, -, -, hstmt, -⟩ := id hk
      cases hk.unique (hall k (List.getElem?_eq_some_iff.1 hstmt).1)
  · exact Stmt.run_conditional_of_isApplication h thenBlock elseBlock
  · exact Expr.IsApplication.fails_in_logic hop h

/-- A body with a block in which a `return` is not the last statement, then a block that ends with
one, then a `return`.  The second yields. -/
theorem calls_result_in_the_first_yield_late :
    let early : Stmt Name :=
      .conditional (.literal (.bool true))
        [.return (.literal (.string "early")), .print (.literal .nil)] none
    let late : Stmt Name :=
      .conditional (.literal (.bool true)) [.return (.literal (.string "late"))] none
    let f : Func := ⟨⟨0, ⟨⟨1⟩, 1⟩, [], [early, late, .return (.literal (.bool true))]⟩, "f"⟩
    let s : State :=
      ⟨Env.empty.overlay [(⟨1⟩, .function f)],
        { maxDepth := 1, size_le := Nat.zero_le _ }, .buffer "", {}⟩
    let call : Expr Name := .group (.call ⟨⟨1⟩, 1⟩ [])
    ¬ early.YieldsFrom .new s ∧ late.YieldsFrom .new s ∧
    (∃ start k, Spawns .new ⟨.body f.decl.body, start⟩ ⟨.call f [] 1, s⟩ ∧
      Stmt.BodyExecutes .new f.decl.body start k (some (.string "late")) ∧
      ∀ j > k, ∀ u, ¬ Stmt.BodyComesTo .new f.decl.body start j u) ∧
    (Stmt.conditional call [.print call] none).run .new s =
      (call.runValue .new >>= fun _ => (Task.block []).run .new) s ∧
    ∃ e t, (Expr.binary (.literal (.bool true)) ⟨.andKeyword, 1⟩ call).run .new s =
      (.error e, t) := by
  intro early late f s call
  obtain ⟨hyields, hcall, hcondition, hlogic⟩ := calls_result_in_the_first_yield .new
  have happlication : call.IsApplication := .group (.call _ _)
  have hearly := (hyields early s _ none rfl).1
  have hlate := (hyields late s _ (some (.string "late")) rfl).1
  obtain ⟨-, start, hstart, -, hfirst⟩ := hcall f [] 1 s _ (.string "late") rfl
  obtain ⟨k, -, hk, hafter⟩ := hfirst nofun
  refine ⟨fun h => absurd (hearly.2 h) nofun, hlate.1 rfl, ⟨start, k, hstart, hk, hafter⟩, ?_, ?_⟩
  · exact hcondition call _ none s happlication
  · exact hlogic _ call _ s (.inl rfl) (.inr happlication)

end BindOnce

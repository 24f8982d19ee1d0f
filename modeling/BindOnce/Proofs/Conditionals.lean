import BindOnce.Interpreter
import BindOnce.Proofs.Plan

/-!
# Conditionals at top level

There are three loops over statements: one for programs, one for blocks, one for function bodies.
The first two execute all statements and differ only in that a block may yield.  At top level nobody
asks what a statement yields.  So there a conditional is worth as much as its condition followed by
the block that it chooses: a block opens no scope, a `return` in it stops nothing, and what was done
before a failure stays done in either case.

## What is here

* `Stmt.chosenBlock` — the block that a conditional chooses; `Stmt.exec_conditional` says that a
  conditional executes nothing else.
* `Stmt.execBlock_concat` — what a block yields, by its last statement.
* `Interpreter.runInTurn` — programs run one after the other, which is as good as running them in
  one piece (`Interpreter.runInTurn_eq_run_flatten`).
* `Interpreter.holdsAfter` — whether a condition evaluates to truth after a program has been run.
* `conditional_unfolds_at_top_level` — a program with a conditional and the same program with the
  conditional unfolded.
-/

set_option autoImplicit false
namespace BindOnce

/-! ## Blocks -/

/-- The block that a conditional chooses for a value of its condition; a missing block is empty. -/
def Stmt.chosenBlock (v : Value) (thenBlock : List (Stmt Name))
    (elseBlock : Option (List (Stmt Name))) : List (Stmt Name) :=
  if v.isTrue then thenBlock else elseBlock.getD []

section Blocks

variable (interner : Interner) (call : Call)

theorem Stmt.exec_conditional (condition : Expr Name) (thenBlock : List (Stmt Name))
    (elseBlock : Option (List (Stmt Name))) :
    (Stmt.conditional condition thenBlock elseBlock).exec interner call =
      condition.value interner call >>= fun v =>
        Stmt.execBlock interner call (Stmt.chosenBlock v thenBlock elseBlock) := by
  cases elseBlock with
  | none =>
    rw [Stmt.exec]
    refine bind_congr fun v => ?_
    cases h : v.isTrue <;> simp [Stmt.chosenBlock, h, Stmt.execBlock]
  | some elseBlock =>
    rw [Stmt.exec]
    refine bind_congr fun v => ?_
    cases h : v.isTrue <;> simp [Stmt.chosenBlock, h]

theorem Stmt.execAll_append (p q : List (Stmt Name)) :
    Stmt.execAll interner call (p ++ q) =
      Stmt.execAll interner call p >>= fun _ => Stmt.execAll interner call q := by
  induction p with
  | nil => simp [Stmt.execAll]
  | cons s rest ih => simp [Stmt.execAll, ih]

/-- A block executes all its statements.  What the last one yields counts if it is a `return`. -/
theorem Stmt.execBlock_concat (ss : List (Stmt Name)) (last : Stmt Name) :
    Stmt.execBlock interner call (ss ++ [last]) = do
      Stmt.execAll interner call ss
      let yielded ← last.exec interner call
      return if last.isReturn then yielded else none := by
  induction ss with
  | nil => simp [Stmt.execAll, Stmt.execBlock]
  | cons s rest ih =>
    rw [Stmt.execAll, bind_assoc, ← ih]
    -- the two clauses of `execBlock` differ in what follows the first statement
    cases rest <;> rfl

/-- A block runs as statements at top level do, but for what it yields. -/
theorem Stmt.execBlock_bind_pure (ss : List (Stmt Name)) :
    (Stmt.execBlock interner call ss >>= fun _ => pure ()) = Stmt.execAll interner call ss := by
  rcases ss.eq_nil_or_concat with rfl | ⟨ss, last, rfl⟩
  · rfl
  · simp [Stmt.execBlock_concat, Stmt.execAll_append, Stmt.execAll]

/-- Looking a value up changes nothing, so a value that is dropped need not be looked up. -/
theorem Expr.value_bind (e : Expr Name) {α : Type} (x : EvalM α) :
    (e.value interner call >>= fun _ => x) = (e.eval interner call >>= fun _ => x) := by
  rw [Expr.value, bind_assoc]
  rfl

theorem Stmt.execAll_conditional_cons (condition : Expr Name) (thenBlock : List (Stmt Name))
    (elseBlock : Option (List (Stmt Name))) (rest : List (Stmt Name)) :
    Stmt.execAll interner call (.conditional condition thenBlock elseBlock :: rest) =
      condition.value interner call >>= fun v =>
        Stmt.execAll interner call (Stmt.chosenBlock v thenBlock elseBlock ++ rest) := by
  rw [Stmt.execAll, Stmt.exec_conditional, bind_assoc]
  refine bind_congr fun v => ?_
  rw [Stmt.execAll_append, ← Stmt.execBlock_bind_pure _ _ (Stmt.chosenBlock ..), bind_assoc]
  simp only [pure_bind]

theorem Stmt.execAll_expression_cons (e : Expr Name) (rest : List (Stmt Name)) :
    Stmt.execAll interner call (.expression e :: rest) =
      e.value interner call >>= fun _ => Stmt.execAll interner call rest := by
  rw [Expr.value_bind, Stmt.execAll, Stmt.exec, bind_assoc]
  simp

end Blocks

/-! ## Programs in pieces -/

namespace Interpreter

theorem run_append (i : Interpreter) (p q : Program Name) :
    i.run (p ++ q) =
      match i.run p with
      | (.ok (), j) => j.run q
      | (.error e, j) => (.error e, j) := by
  simp only [run, Program.exec, Stmt.execAll_append, EvalM.bind_apply]
  rcases Stmt.execAll i.interner (callNow i.interner) p i.state with ⟨e | _, t⟩ <;> rfl

/-- Run programs one after the other.  The first failure ends it. -/
def runInTurn (i : Interpreter) : List (Program Name) → Except Failure Unit × Interpreter
  | [] => (.ok (), i)
  | p :: ps =>
    match i.run p with
    | (.ok (), j) => j.runInTurn ps
    | (.error e, j) => (.error e, j)

theorem runInTurn_eq_run_flatten (i : Interpreter) (ps : List (Program Name)) :
    i.runInTurn ps = i.run ps.flatten := by
  induction ps generalizing i with
  | nil => rfl
  | cons p ps ih =>
    rw [runInTurn, List.flatten_cons, run_append]
    simp only [ih]

/-! ## Unfolding -/

/-- Whether a condition evaluates to truth once the program has been run.  It does not if either
fails. -/
def holdsAfter (i : Interpreter) (program : Program Name) (condition : Expr Name) : Bool :=
  match i.run program with
  | (.ok (), j) =>
    match (condition.runValue j.interner j.state).1 with
    | .ok v => v.isTrue
    | .error _ => false
  | (.error _, _) => false

theorem holdsAfter_of_run {i j : Interpreter} {program : Program Name} {condition : Expr Name}
    {v : Value} {t : State} (hrun : i.run program = (.ok (), j))
    (hv : condition.runValue j.interner j.state = (.ok v, t)) :
    i.holdsAfter program condition = v.isTrue := by
  rw [holdsAfter, hrun]
  dsimp only
  rw [hv]

theorem holdsAfter_iff {i : Interpreter} {program : Program Name} {condition : Expr Name} :
    i.holdsAfter program condition = true ↔
      ∃ j t, i.run program = (.ok (), j) ∧
        condition.runValue j.interner j.state = (.ok (.bool true), t) := by
  constructor
  · intro h
    rcases hrun : i.run program with ⟨e | _, j⟩
    · rw [holdsAfter, hrun] at h
      cases h
    · rcases hv : condition.runValue j.interner j.state with ⟨e | v, t⟩
      · rw [holdsAfter, hrun] at h
        dsimp only at h
        rw [hv] at h
        cases h
      · rw [holdsAfter_of_run hrun hv] at h
        exact ⟨j, t, rfl, by rw [hv, Value.isTrue_iff.1 h]⟩
  · rintro ⟨j, t, hrun, hv⟩
    exact holdsAfter_of_run hrun hv

/-- A conditional runs as its condition does and then the block that it chooses.  If the condition
fails, any block will do. -/
theorem run_conditional_cons (i : Interpreter) {condition : Expr Name}
    {thenBlock block : Program Name} {elseBlock : Option (Program Name)} (after : Program Name)
    (hblock : ∀ v t, condition.runValue i.interner i.state = (.ok v, t) →
      block = Stmt.chosenBlock v thenBlock elseBlock) :
    i.run (.conditional condition thenBlock elseBlock :: after) =
      i.run (.expression condition :: (block ++ after)) := by
  rw [Expr.runValue] at hblock
  simp only [run, Program.exec, Stmt.execAll_conditional_cons, Stmt.execAll_expression_cons,
    EvalM.bind_apply]
  generalize condition.value i.interner (callNow i.interner) i.state = outcome at hblock ⊢
  obtain ⟨e | v, t⟩ := outcome
  · rfl
  · rw [hblock v t rfl]

end Interpreter

/-- **A conditional at top level unfolds.**  Put the condition in its place, as a statement of its
own, and after it the statements of the block that it chooses, whatever they are.  The program comes
to the same result or failure, and leaves the same interpreter: bindings, output and lists.  Either
program may also be run in pieces. -/
theorem conditional_unfolds_at_top_level (i : Interpreter) (before after : Program Name)
    (condition : Expr Name) (thenBlock : Program Name) (elseBlock : Option (Program Name)) :
    let block := if i.holdsAfter before condition then thenBlock else elseBlock.getD []
    let folded := before ++ [.conditional condition thenBlock elseBlock] ++ after
    let unfolded := before ++ [.expression condition] ++ block ++ after
    i.run folded = i.run unfolded ∧
    i.runInTurn [before, [.conditional condition thenBlock elseBlock], after] = i.run folded ∧
    i.runInTurn [before, [.expression condition], block, after] = i.run unfolded := by
  intro block folded unfolded
  refine ⟨?_, ?_, ?_⟩
  · simp only [folded, unfolded, List.append_assoc]
    rw [Interpreter.run_append, Interpreter.run_append]
    rcases hbefore : i.run before with ⟨e | _, j⟩
    · rfl
    · refine j.run_conditional_cons after fun v t hv => ?_
      -- `block` has been chosen by the value that the condition has here
      dsimp only [block]
      rw [Interpreter.holdsAfter_of_run hbefore hv, Stmt.chosenBlock]
  · simp [Interpreter.runInTurn_eq_run_flatten, folded]
  · simp [Interpreter.runInTurn_eq_run_flatten, unfolded]

end BindOnce

import BindOnce.Interpreter
import BindOnce.Proofs.HandInHand
import BindOnce.Proofs.Holds
import BindOnce.Proofs.NamesInTrees
import BindOnce.Proofs.SingleAssignment

/-!
# Bindings that are not mentioned

A call hands all the bindings of its caller to the body, and what the body calls in turn gets them
too.  So whether a binding matters cannot be read off the tree that is evaluated: a function that is
bound there, or that sits in a list, may look at it.  It can be read off the tree together with
these functions.  Take a collection of names with which the tree and every function that one can get
hold of by one of the names make do.  Bindings of other names are handed on but never looked at.

The matching for this lets everything stand for itself, so long as it makes do with the names.  That
evaluation stays within them is what its lawfulness says.

## What is here

* `Value.NamesIn`, `Env.ClosedOn` — functions make do with given names.
* `Env.AgreeOn` — two environments bind given names alike.
* `Matching.within` — everything that makes do with given names stands for itself.
* `Indistinct` — what two evaluations have in common that start in environments which agree on given
  names.
* `unmentioned_bindings_irrelevant` — it is so for expressions, statements and programs.
-/

set_option autoImplicit false
namespace BindOnce

/-! ## Making do with names -/

/-- All functions that the value holds make do with the names, of which they use some for
themselves, for their parameters and in their bodies. -/
def Value.NamesIn (N : Set Name) (v : Value) : Prop :=
  ∀ f : Func, v.Holds (.function f) → ∀ x ∈ f.decl.names, x ∈ N

/-- All functions that one can get hold of by one of the names make do with the names. -/
def Env.ClosedOn (N : Set Name) (env : Env) : Prop :=
  ∀ x ∈ N, ∀ v : Value, env.lookup x = some v → v.NamesIn N

/-- The same names among the given ones are bound, and to the same values. -/
def Env.AgreeOn (N : Set Name) (env env' : Env) : Prop :=
  ∀ x ∈ N, env.lookup x = env'.lookup x

/-- Everything stands for itself, if it makes do with the names. -/
def Matching.within (N : Set Name) : Matching where
  name x x' := x = x' ∧ x ∈ N
  func f f' := f = f' ∧ ∀ x ∈ f.decl.names, x ∈ N
  expr e e' := e = e' ∧ ∀ x ∈ e.names, x ∈ N
  stmt s s' := s = s' ∧ ∀ x ∈ s.names, x ∈ N

section Within

variable {N : Set Name}

theorem Matching.within_rigid (N : Set Name) : (within N).Rigid where
  name h := h.1
  line h := h
  list h := h
  func h := h.1

theorem Value.matches_within_iff {v : Value} : Value.Matches (.within N) v v ↔ v.NamesIn N := by
  constructor
  · intro h f hf
    cases h.holds hf with
    | function hfunc => exact hfunc.2
  · exact fun h => .of_holds (fun _ _ _ => rfl) fun f hf => ⟨rfl, h f hf⟩

/-- Environments match if they agree on the names and do not lead beyond them. -/
theorem Env.matches_within_iff {env env' : Env} :
    Env.Matches (.within N) env env' ↔ env.AgreeOn N env' ∧ env.ClosedOn N := by
  constructor
  · intro h
    have hagree : env.AgreeOn N env' := fun x hx =>
      (Matching.within_rigid N).option_eq (h x x ⟨rfl, hx⟩)
    refine ⟨hagree, fun x hx v hv => Value.matches_within_iff.1 ?_⟩
    have hlookup := h x x ⟨rfl, hx⟩
    rw [← hagree x hx, hv] at hlookup
    cases hlookup with
    | some hv => exact hv
  · rintro ⟨hagree, hclosed⟩ x _ ⟨rfl, hx⟩
    rw [← hagree x hx]
    cases hv : env.lookup x with
    | none => exact .none
    | some v => exact .some (Value.matches_within_iff.2 (hclosed x hx v hv))

theorem Expr.forall₂_within {es : List (Expr Name)} (h : ∀ x ∈ allNames es, x ∈ N) :
    List.Forall₂ (Matching.within N).expr es es := by
  rw [allNames_eq_flatMap] at h
  exact List.forall₂_same.2 fun e he => ⟨rfl, fun x hx => h x (List.mem_flatMap_of_mem he hx)⟩

theorem Stmt.forall₂_within {ss : List (Stmt Name)} (h : ∀ x ∈ allNames ss, x ∈ N) :
    List.Forall₂ (Matching.within N).stmt ss ss := by
  rw [allNames_eq_flatMap] at h
  exact List.forall₂_same.2 fun s hs => ⟨rfl, fun x hx => h x (List.mem_flatMap_of_mem hs hx)⟩

theorem Identifier.forall₂_within {idents : List (Identifier Name)}
    (h : ∀ x ∈ idents.map (·.name), x ∈ N) :
    List.Forall₂ (Identifier.Matches (.within N)) idents idents :=
  List.forall₂_same.2 fun _ hident => ⟨⟨rfl, h _ (List.mem_map_of_mem hident)⟩, rfl⟩

theorem Expr.partsMatch_within : ∀ e : Expr Name, (∀ x ∈ e.names, x ∈ N) →
    Expr.PartsMatch (.within N) e.bare e.bare
  | .group inner, h => partsMatch_within inner h
  | .literal value, _ => .literal value
  | .variable _, h => .variable ⟨⟨rfl, h _ (List.mem_singleton_self _)⟩, rfl⟩
  | .binary .., h => by
    rw [names, List.forall_mem_append] at h
    exact .binary ⟨rfl, h.1⟩ ⟨rfl, rfl⟩ ⟨rfl, h.2⟩
  | .unary .., h => .unary ⟨rfl, rfl⟩ ⟨rfl, h⟩
  | .call .., h => by
    rw [names, List.forall_mem_cons] at h
    exact .call ⟨⟨rfl, h.1⟩, rfl⟩ (forall₂_within h.2)
  | .list _, h => .list (forall₂_within h)

theorem Stmt.partsMatch_within (interner : Interner) {s : Stmt Name} (h : ∀ x ∈ s.names, x ∈ N) :
    Stmt.PartsMatch (.within N) interner interner s s := by
  cases s with
  | print e => exact .print ⟨rfl, h⟩
  | expression e => exact .expression ⟨rfl, h⟩
  | conditional c block other =>
    cases other with
    | none =>
      rw [names, List.forall_mem_append] at h
      exact .conditional ⟨rfl, h.1⟩ (forall₂_within h.2)
    | some other =>
      rw [names, List.forall_mem_append, List.forall_mem_append] at h
      exact .conditionalElse ⟨rfl, h.1⟩ (forall₂_within h.2.1) (forall₂_within h.2.2)
  | function node name params body =>
    -- the names in the statement are those of the declaration that the function carries
    exact .function ⟨rfl, h _ List.mem_cons_self⟩ ⟨rfl, h⟩
  | «return» e => exact .return ⟨rfl, h⟩

/-- **Evaluation stays within the names.** -/
theorem Matching.within_lawful (N : Set Name) (interner : Interner) :
    (within N).Lawful interner interner where
  name_eq_iff := by
    rintro x _ y _ ⟨rfl, -⟩ ⟨rfl, -⟩
    exact Iff.rfl
  text_eq := by
    rintro x _ ⟨rfl, -⟩
    rfl
  func := by
    rintro f _ ⟨rfl, h⟩
    rw [FunctionDecl.names, List.forall_mem_cons, List.forall_mem_append] at h
    exact ⟨rfl, Identifier.forall₂_within h.2.1, Stmt.forall₂_within h.2.2⟩
  func_same := by
    rintro f _ g _ ⟨rfl, -⟩ ⟨rfl, -⟩
    rfl
  expr := by
    rintro e _ ⟨rfl, h⟩
    exact e.partsMatch_within h
  stmt := by
    rintro s _ ⟨rfl, h⟩
    exact Stmt.partsMatch_within interner h

end Within

/-! ## Two evaluations -/

/-- The outcomes of two evaluations, one in each environment, that cannot be told apart by the
names: they have the same result or failure, the same output, the same active calls and the same
lists made.  The environments that they leave agree on the names, again without leading beyond them,
and bindings of other names are as before. -/
structure Indistinct (N : Set Name) (env env' : Env) {α : Type}
    (first second : Except Failure α × State) : Prop where
  result : first.1 = second.1
  channel : first.2.channel = second.2.channel
  stack : first.2.stack = second.2.stack
  lists : first.2.lists = second.2.lists
  agree : first.2.env.AgreeOn N second.2.env
  closed : first.2.env.ClosedOn N
  kept : ∀ x ∉ N, first.2.env.lookup x = env.lookup x
  kept' : ∀ x ∉ N, second.2.env.lookup x = env'.lookup x

/-- A task that makes do with the names, evaluated in two environments that agree on them. -/
theorem Task.indistinct (interner : Interner) {N : Set Name} {α : Type} {task : Task α}
    (htask : Task.Matches (.within N) task task) (htargets : ∀ x ∈ task.targets, x ∈ N)
    {env env' : Env} (hagree : env.AgreeOn N env') (hclosed : env.ClosedOn N) (s : State) :
    Indistinct N env env' (task.run interner { s with env := env })
      (task.run interner { s with env := env' }) := by
  have hs : State.Matches (.within N) { s with env := env } { s with env := env' } :=
    ⟨Env.matches_within_iff.2 ⟨hagree, hclosed⟩, rfl, rfl, rfl, rfl⟩
  obtain ⟨hr, ht⟩ := htask.hand_in_hand (Matching.within_lawful N interner) hs
  obtain ⟨hagree', hclosed'⟩ := Env.matches_within_iff.1 ht.env
  have hstack (env : Env) : (task.run interner { s with env := env }).2.stack = s.stack :=
    (task.ends_run { s with env := env }).stack_eq
  exact
    { result := (Matching.within_rigid N).results_eq hr
      channel := ht.channel
      stack := (hstack env).trans (hstack env').symm
      lists := congrArg ListSupply.mk ht.lists
      agree := hagree'
      closed := hclosed'
      kept := fun x hx => (task.env_grows _).lookup_eq fun h => hx (htargets x h)
      kept' := fun x hx => (task.env_grows _).lookup_eq fun h => hx (htargets x h) }

/-- **Bindings that are not mentioned do not interfere.**  Take names with which a tree makes do, as
does every function that can be got hold of by one of them.  In two environments that agree on these
names, and with all else alike, evaluating the tree has the same result or the same failure, the
same output, and the same active calls.  The environments that it leaves agree on the names again,
and what other names are bound to is what it was. -/
theorem unmentioned_bindings_irrelevant (i : Interpreter) {N : Set Name} {env env' : Env}
    (hagree : env.AgreeOn N env') (hclosed : env.ClosedOn N) :
    let start (env : Env) : State := { i.state with env := env }
    (∀ e : Expr Name, (∀ x ∈ e.names, x ∈ N) →
      Indistinct N env env' (e.run i.interner (start env)) (e.run i.interner (start env')) ∧
      Indistinct N env env' (e.runValue i.interner (start env))
        (e.runValue i.interner (start env'))) ∧
    (∀ s : Stmt Name, (∀ x ∈ s.names, x ∈ N) →
      Indistinct N env env' (s.run i.interner (start env)) (s.run i.interner (start env'))) ∧
    ∀ program : Program Name, (∀ x ∈ Stmt.allNames program, x ∈ N) →
      let first := { i with state := start env }.run program
      let second := { i with state := start env' }.run program
      Indistinct N env env' (first.1, first.2.state) (second.1, second.2.state) := by
  intro start
  refine ⟨fun e he => ⟨?_, ?_⟩, fun s hs => ?_, fun program hprogram => ?_⟩
  · exact (Task.expr e).indistinct i.interner (.expr ⟨rfl, he⟩)
      (fun x hx => he x (e.targets_subset_names hx)) hagree hclosed i.state
  · exact (Task.value e).indistinct i.interner (.value ⟨rfl, he⟩)
      (fun x hx => he x (e.targets_subset_names hx)) hagree hclosed i.state
  · exact (Task.stmt s).indistinct i.interner (.stmt ⟨rfl, hs⟩)
      (fun x hx => hs x (s.targets_subset_names hx)) hagree hclosed i.state
  · have htargets : Stmt.allTargets program ⊆ Stmt.allNames program :=
      Stmt.allTargets_subset_allNames fun s _ => s.targets_subset_names
    exact (Task.program program).indistinct i.interner (.program (Stmt.forall₂_within hprogram))
      (fun x hx => hprogram x (htargets hx)) hagree hclosed i.state

/-- A list of functions, each of which is called by another function, with and without a binding
that none of them mentions. -/
theorem unmentioned_bindings_irrelevant_in_list :
    let f : Func := ⟨⟨0, ⟨⟨3⟩, 1⟩, [], [.return (.list [])]⟩, ""⟩
    let g : Func := ⟨⟨1, ⟨⟨2⟩, 2⟩, [⟨⟨4⟩, 2⟩], [.return (.call ⟨⟨4⟩, 2⟩ [])]⟩, ""⟩
    let names : List Name := [⟨1⟩, ⟨2⟩, ⟨3⟩, ⟨4⟩]
    let N : Set Name := {x | x ∈ names}
    let env := (Env.empty.overlay [(⟨1⟩, .list 0 [.function f])]).overlay [(⟨2⟩, .function g)]
    let env' := env.overlay [(⟨5⟩, .nil)]
    let e : Expr Name := .binary (.variable ⟨⟨1⟩, 3⟩) ⟨.mapKeyword, 3⟩ (.variable ⟨⟨2⟩, 3⟩)
    let i := Interpreter.new .new .interpret .waray .empty (.terminal "") none ⟨1⟩
    let first := e.run i.interner { i.state with env := env }
    let second := e.run i.interner { i.state with env := env' }
    env.AgreeOn N env' ∧ env.ClosedOn N ∧ (∀ x ∈ e.names, x ∈ N) ∧
      first.1 = .ok (.value (.list 2 [.list 1 []])) ∧ Indistinct N env env' first second := by
  intro f g names N env env' e i first second
  have hagree : env.AgreeOn N env' := by
    intro x hx
    have hne : (⟨5⟩ : Name) ≠ x := fun h => absurd (h ▸ hx : ⟨5⟩ ∈ names) (by decide)
    exact ((env.lookup_overlay_singleton ⟨5⟩ x .nil).trans (if_neg hne)).symm
  have hnames : (∀ x ∈ f.decl.names, x ∈ names) ∧ ∀ x ∈ g.decl.names, x ∈ names := by decide
  have hf : Value.NamesIn N (.list 0 [.function f]) :=
    Value.matches_within_iff.1 (.list rfl (.cons (.function ⟨rfl, hnames.1⟩) .nil))
  have hg : Value.NamesIn N (.function g) :=
    Value.matches_within_iff.1 (.function ⟨rfl, hnames.2⟩)
  have hclosed : env.ClosedOn N := by
    intro x _ v hv
    rw [Env.lookup_overlay_singleton, Env.lookup_overlay_singleton, Env.lookup_empty] at hv
    split at hv
    · cases hv
      exact hg
    · split at hv <;> cases hv
      exact hf
  have he : ∀ x ∈ e.names, x ∈ names := by decide
  exact ⟨hagree, hclosed, he, rfl,
    ((unmentioned_bindings_irrelevant i hagree hclosed).1 e he).1⟩

end BindOnce

import BindOnce.Interpreter
import BindOnce.Proofs.NamesInTrees
import BindOnce.Proofs.SelfMatching
import Mathlib.Data.List.Nodup
import Mathlib.Data.Set.Function

/-!
# Where functions come from

Functions are values.  They are bound, put into lists, passed and returned, and a declaration in the
body of a function is carried out anew with every call.  For all that, a program cannot get hold of
a function that nobody declared: each has the tree of a `function` statement, which stands in the
program or in the body of a function that was there before, and bears the name that is written
there.  Functions are compared by declaration, so it does not matter how often a declaration has
been carried out.

The argument matches evaluation with itself.  Functions that come from a given stock of declarations
stand for themselves, and so do statements all whose declarations are in the stock.

## What is here

* `Stmt.declarations` — the declarations in a statement, those in bodies of functions included.
* `Program.declarationsWith` — the stock of a program: what is declared in it and in the functions
  that are there before.
* `Matching.ofOrigin` — what comes from a stock stands for itself.
* `Interpreter.Encounters` — the functions that a program gets hold of while it runs.
* `functions_come_from_declarations` — they come from the stock, are named as declared, and are
  identical if they come from one declaration.
-/

set_option autoImplicit false
namespace BindOnce

/-! ## Declarations -/

section Declarations

variable {ν : Type}

mutual

/-- The declarations in a statement, those in bodies of functions included. -/
def Stmt.declarations : Stmt ν → List (FunctionDecl ν)
  | .conditional _ thenBlock none => Stmt.allDeclarations thenBlock
  | .conditional _ thenBlock (some elseBlock) =>
    Stmt.allDeclarations thenBlock ++ Stmt.allDeclarations elseBlock
  | .function node name params body => ⟨node, name, params, body⟩ :: Stmt.allDeclarations body
  | .print _ | .expression _ | .return _ => []

/-- The declarations in statements. -/
def Stmt.allDeclarations : List (Stmt ν) → List (FunctionDecl ν)
  | [] => []
  | s :: ss => s.declarations ++ Stmt.allDeclarations ss

end

/-- The statement that makes a declaration. -/
def FunctionDecl.toStmt (decl : FunctionDecl ν) : Stmt ν :=
  .function decl.node decl.name decl.params decl.body

variable {s : Stmt ν} {ss : List (Stmt ν)} {decl inner : FunctionDecl ν}

theorem Stmt.mem_allDeclarations :
    decl ∈ allDeclarations ss ↔ ∃ s ∈ ss, decl ∈ s.declarations := by
  induction ss with
  | nil => simp [allDeclarations]
  | cons s ss ih => simp [allDeclarations, ih]

/-- What is declared in the body of a declaration is declared wherever that stands. -/
theorem Stmt.mem_declarations_of_body (hdecl : decl ∈ s.declarations)
    (hinner : inner ∈ allDeclarations decl.body) : inner ∈ s.declarations := by
  induction s using Stmt.inductionOn with
  | print e | expression e | «return» e => cases hdecl
  | conditional c block ih =>
    simp only [declarations, mem_allDeclarations] at hdecl ⊢
    obtain ⟨s, hs, hdecl⟩ := hdecl
    exact ⟨s, hs, ih s hs hdecl⟩
  | conditionalElse c block other ih₁ ih₂ =>
    simp only [declarations, List.mem_append, mem_allDeclarations] at hdecl ⊢
    rcases hdecl with ⟨s, hs, hdecl⟩ | ⟨s, hs, hdecl⟩
    · exact .inl ⟨s, hs, ih₁ s hs hdecl⟩
    · exact .inr ⟨s, hs, ih₂ s hs hdecl⟩
  | function node name params body ih =>
    simp only [declarations, List.mem_cons] at hdecl ⊢
    rcases hdecl with rfl | hdecl
    · exact .inr hinner
    · obtain ⟨s, hs, hdecl⟩ := mem_allDeclarations.1 hdecl
      exact .inr (mem_allDeclarations.2 ⟨s, hs, ih s hs hdecl⟩)

theorem Stmt.mem_allDeclarations_of_body (hdecl : decl ∈ allDeclarations ss)
    (hinner : inner ∈ allDeclarations decl.body) : inner ∈ allDeclarations ss := by
  obtain ⟨s, hs, hdecl⟩ := mem_allDeclarations.1 hdecl
  exact mem_allDeclarations.2 ⟨s, hs, s.mem_declarations_of_body hdecl hinner⟩

/-- The declarations of the functions that are there, those in their bodies, and those in the
program. -/
def Program.declarationsWith (known : Set (FunctionDecl ν)) (program : Program ν) :
    Set (FunctionDecl ν) :=
  {decl | decl ∈ known ∨ (∃ outer ∈ known, decl ∈ Stmt.allDeclarations outer.body) ∨
    decl ∈ Stmt.allDeclarations program}

/-- What is declared in the body of a declaration in the stock is in the stock. -/
theorem Program.declarationsWith_of_body {known : Set (FunctionDecl ν)} {program : Program ν}
    (hdecl : decl ∈ program.declarationsWith known)
    (hinner : inner ∈ Stmt.allDeclarations decl.body) :
    inner ∈ program.declarationsWith known := by
  rcases hdecl with hknown | ⟨outer, houter, hdecl⟩ | hdecl
  · exact .inr (.inl ⟨decl, hknown, hinner⟩)
  · exact .inr (.inl ⟨outer, houter, Stmt.mem_allDeclarations_of_body hdecl hinner⟩)
  · exact .inr (.inr (Stmt.mem_allDeclarations_of_body hdecl hinner))

end Declarations

/-! ## The matching -/

/-- Functions of the one set stand for themselves, and so do statements with declarations of the
other set only. -/
def Matching.ofOrigin (functions : Set Func) (stock : Set (FunctionDecl Name)) : Matching where
  func f f' := f = f' ∧ f ∈ functions
  stmt s s' := s = s' ∧ ∀ decl ∈ s.declarations, decl ∈ stock

section OfOrigin

variable {functions : Set Func} {stock : Set (FunctionDecl Name)} {interner : Interner}

theorem Matching.stmts_ofOrigin {ss : List (Stmt Name)}
    (h : ∀ decl ∈ Stmt.allDeclarations ss, decl ∈ stock) :
    List.Forall₂ (ofOrigin functions stock).stmt ss ss :=
  List.forall₂_same.2 fun s hs =>
    ⟨rfl, fun decl hdecl => h decl (Stmt.mem_allDeclarations.2 ⟨s, hs, hdecl⟩)⟩

theorem Stmt.partsMatch_ofOrigin
    (hdeclared : ∀ decl ∈ stock, ⟨decl, interner.text decl.name.name⟩ ∈ functions) {s : Stmt Name}
    (h : ∀ decl ∈ s.declarations, decl ∈ stock) :
    Stmt.PartsMatch (.ofOrigin functions stock) interner interner s s := by
  cases s with
  | print e => exact .print rfl
  | expression e => exact .expression rfl
  | conditional c block other =>
    cases other with
    | none => exact .conditional rfl (Matching.stmts_ofOrigin h)
    | some other =>
      rw [declarations, List.forall_mem_append] at h
      exact .conditionalElse rfl (Matching.stmts_ofOrigin h.1) (Matching.stmts_ofOrigin h.2)
  | function node name params body =>
    exact .function rfl ⟨rfl, hdeclared _ (h _ List.mem_cons_self)⟩
  | «return» e => exact .return rfl

/-- Evaluation stays within a stock of declarations, if the functions that these make are among
those given, and declare nothing else in their bodies. -/
theorem Matching.ofOrigin_lawful
    (hbody : ∀ f ∈ functions, ∀ decl ∈ Stmt.allDeclarations f.decl.body, decl ∈ stock)
    (hdeclared : ∀ decl ∈ stock, ⟨decl, interner.text decl.name.name⟩ ∈ functions) :
    (ofOrigin functions stock).Lawful interner interner where
  func := by
    rintro f _ ⟨rfl, hf⟩
    exact ⟨rfl, List.forall₂_same.2 fun _ _ => ⟨rfl, rfl⟩, stmts_ofOrigin (hbody f hf)⟩
  func_same := by
    rintro f _ g _ ⟨rfl, -⟩ ⟨rfl, -⟩
    rfl
  expr := by
    rintro e _ rfl
    exact e.partsMatch_self (fun _ => rfl) (fun _ => rfl) fun _ => rfl
  stmt := by
    rintro s _ ⟨rfl, h⟩
    exact Stmt.partsMatch_ofOrigin hdeclared h

end OfOrigin

/-! ## The functions that a program gets hold of -/

/-- A name is bound to the function, or to a list in which it sits, however deep. -/
def Env.Provides (env : Env) (f : Func) : Prop :=
  ∃ x v, env.lookup x = some v ∧ v.Holds (.function f)

theorem Env.provides_matches_iff {functions : Set Func} {stock : Set (FunctionDecl Name)}
    {env : Env} : Env.Matches (.ofOrigin functions stock) env env ↔
      ∀ f, env.Provides f → f ∈ functions := by
  constructor
  · rintro h f ⟨x, v, hx, hf⟩
    have hv := h x x rfl
    rw [hx] at hv
    cases hv with
    | some hv => cases hv.holds hf with | function hf => exact hf.2
  · rintro h x _ rfl
    cases hx : env.lookup x with
    | none => exact .none
    | some v => exact .some (.of_holds (fun _ _ _ => rfl) fun f hf => ⟨rfl, h f ⟨x, v, hx, hf⟩⟩)

/-- The function, or a list in which it sits, is at hand at a moment while the program runs, or
bound in the program environment afterwards.  At hand are the values that are bound, the arguments
of calls and operators, and the results of all that is evaluated. -/
inductive Interpreter.Encounters (i : Interpreter) (program : Program Name) (f : Func) : Prop where
  | during {calls : List ActiveCall} {m : Moment} {n : ListId} {v : Value} :
    Reaches i.interner ((Task.program program).plan i.interner) i.state calls m.plan m.state →
    m.AtHand i.interner n v → v.Holds (.function f) → Encounters i program f
  | after : (i.run program).2.env.Provides f → Encounters i program f

/-- **A program gets hold of no other functions** than it has at the start and makes out of the
declarations that it comes across. -/
theorem Interpreter.Encounters.mem_functions {i : Interpreter} {program : Program Name} {f : Func}
    (h : i.Encounters program f) (functions : Set Func) (stock : Set (FunctionDecl Name))
    (hbody : ∀ f ∈ functions, ∀ decl ∈ Stmt.allDeclarations f.decl.body, decl ∈ stock)
    (hdeclared : ∀ decl ∈ stock, ⟨decl, i.interner.text decl.name.name⟩ ∈ functions)
    (hprogram : ∀ decl ∈ Stmt.allDeclarations program, decl ∈ stock)
    (hstart : ∀ f, i.env.Provides f → f ∈ functions) : f ∈ functions := by
  have hM : (Matching.ofOrigin functions stock).Lawful i.interner i.interner :=
    Matching.ofOrigin_lawful hbody hdeclared
  have htask : Task.Matches (.ofOrigin functions stock) (.program program) (.program program) :=
    .program (Matching.stmts_ofOrigin hprogram)
  have hs : State.Matches (.ofOrigin functions stock) i.state i.state :=
    ⟨Env.provides_matches_iff.2 hstart, rfl, rfl, rfl, rfl⟩
  have hgroups : (Matching.ofOrigin functions stock).OpensGroups := fun _ _ => rfl
  cases h with
  | during hreach hv hf =>
    obtain ⟨hplan, ht⟩ := hreach.matches_self hM hgroups (htask.plan_self hM hgroups) hs
    cases (hv.matches_self hM (fun _ => rfl) hplan ht).holds hf with
    | function hf => exact hf.2
  | after h => exact Env.provides_matches_iff.1 (htask.hand_in_hand hM hs).2.env f h

/-! ## Names and identity -/

/-- The function bears the name that is written in its declaration. -/
def Func.NamedAsDeclared (interner : Interner) (f : Func) : Prop :=
  f.name = interner.text f.decl.name.name

/-- A declaration that is carried out binds its name to the function that it makes. -/
theorem FunctionDecl.lookup_of_run {interner : Interner} {decl : FunctionDecl Name} {s t : State}
    {v : Option Value} (h : decl.toStmt.run interner s = (.ok v, t)) :
    t.env.lookup decl.name.name = some (.function ⟨decl, interner.text decl.name.name⟩) := by
  have hends : Ends interner ((Task.stmt decl.toStmt).plan interner) s (.ok v) t := Ends.iff_run.2 h
  cases hends with
  | bindOr hb hdone =>
    cases hdone
    exact (Env.lookup_of_bind? hb _).trans (if_pos rfl)

theorem Value.identical_function_iff {f g : Func} :
    (Value.function f).identical (.function g) = true ↔ f.decl.node = g.decl.node :=
  beq_iff_eq

/-- **Functions come from declarations.**  Let the functions that a program finds when it starts
come from the declarations `known`, whatever they are bound to or in whatever lists they sit.  Then
every function that the program gets hold of comes from one of these, or from a declaration in the
body of one of these or in the program, at whatever depth.  It bears the name that is written there,
if those that are there at the start do, whatever name it is bound to.

Two of these functions are identical if their declarations have the same number; if the numbers
are different for different declarations, as they are meant to be, this is to say that they come
from one declaration.  So a declaration makes identical functions, however often and wherever it is
carried out, and two declarations do not, even if they read the same. -/
theorem functions_come_from_declarations (i : Interpreter) (program : Program Name)
    (known : Set (FunctionDecl Name)) (hstart : ∀ f, i.env.Provides f → f.decl ∈ known) :
    (∀ f, i.Encounters program f → f.decl ∈ program.declarationsWith known ∧
      ((∀ g, i.env.Provides g → g.NamedAsDeclared i.interner) → f.NamedAsDeclared i.interner)) ∧
    (∀ f g, i.Encounters program f → i.Encounters program g →
      ((Value.function f).identical (.function g) = true ↔ f.decl.node = g.decl.node) ∧
      (Set.InjOn FunctionDecl.node (program.declarationsWith known) →
        ((Value.function f).identical (.function g) = true ↔ f.decl = g.decl))) ∧
    ∀ (decl decl' : FunctionDecl Name) (s s' t t' : State) (r r' : Option Value),
      decl.toStmt.run i.interner s = (.ok r, t) → decl'.toStmt.run i.interner s' = (.ok r', t') →
      ∃ f f', t.env.lookup decl.name.name = some (.function f) ∧ f.decl = decl ∧
        t'.env.lookup decl'.name.name = some (.function f') ∧ f'.decl = decl' ∧
        ((Value.function f).identical (.function f') = true ↔ decl.node = decl'.node) := by
  have hdecl : ∀ f, i.Encounters program f → f.decl ∈ program.declarationsWith known ∧
      ((∀ g, i.env.Provides g → g.NamedAsDeclared i.interner) → f.NamedAsDeclared i.interner) := by
    intro f hf
    exact hf.mem_functions
      {f | f.decl ∈ program.declarationsWith known ∧
        ((∀ g, i.env.Provides g → g.NamedAsDeclared i.interner) → f.NamedAsDeclared i.interner)}
      (program.declarationsWith known)
      (fun g hg inner hinner => Program.declarationsWith_of_body hg.1 hinner)
      (fun decl hdecl => ⟨hdecl, fun _ => rfl⟩) (fun decl hdecl => .inr (.inr hdecl))
      fun g hg => ⟨.inl (hstart g hg), fun hnames => hnames g hg⟩
  refine ⟨hdecl, fun f g hf hg => ⟨Value.identical_function_iff, fun hinj => ?_⟩, ?_⟩
  · exact Value.identical_function_iff.trans (hinj.eq_iff (hdecl f hf).1 (hdecl g hg).1)
  · intro decl decl' s s' t t' r r' h h'
    exact ⟨_, _, FunctionDecl.lookup_of_run h, rfl, FunctionDecl.lookup_of_run h', rfl,
      Value.identical_function_iff⟩

/-! ## A declaration that is carried out twice -/

namespace TwiceMade

/-- A declaration of `g`. -/
def inner : FunctionDecl Name := ⟨2, ⟨⟨2⟩, 1⟩, [], []⟩

/-- Another declaration of `g`, of the same text. -/
def given : FunctionDecl Name := ⟨0, ⟨⟨2⟩, 1⟩, [], []⟩

/-- A function `f` that makes a function `g` whenever it is called, and two calls. -/
def program : Program Name :=
  [.function 1 ⟨⟨1⟩, 1⟩ [] [inner.toStmt, .return (.variable inner.name)],
    .expression (.binary (.variable ⟨⟨3⟩, 2⟩) ⟨.equal, 2⟩ (.call ⟨⟨1⟩, 2⟩ [])),
    .expression (.binary (.variable ⟨⟨4⟩, 3⟩) ⟨.equal, 3⟩ (.call ⟨⟨1⟩, 3⟩ []))]

/-- An interpreter that starts with a function `g` in a list. -/
def interpreter : Interpreter :=
  .new ((Interner.new.push "f" rfl (by decide)).push "g" rfl (by decide)) .interpret .waray
    (Env.empty.overlay [(⟨5⟩, .list 0 [.function ⟨given, "g"⟩])])

theorem eq_given {f : Func} (h : interpreter.env.Provides f) : f = ⟨given, "g"⟩ := by
  obtain ⟨x, v, hx, hf⟩ := h
  rw [show interpreter.env = Env.empty.overlay _ from rfl, Env.lookup_overlay_singleton,
    Env.lookup_empty] at hx
  split at hx
  · cases hx
    cases hf with
    | item hmem hf =>
      cases List.mem_singleton.1 hmem
      cases hf
      rfl
  · cases hx

theorem injOn_node : Set.InjOn FunctionDecl.node (program.declarationsWith {given}) := by
  have hall : ∀ decl ∈ program.declarationsWith {given},
      decl ∈ given :: Stmt.allDeclarations program := by
    rintro decl (rfl | ⟨_, rfl, hdecl⟩ | hdecl)
    · exact List.mem_cons_self
    · cases hdecl
    · exact List.mem_cons_of_mem _ hdecl
  have hnodup : ((given :: Stmt.allDeclarations program).map FunctionDecl.node).Nodup := by decide
  intro decl hdecl decl' hdecl' hnode
  exact List.inj_on_of_nodup_map hnodup (hall decl hdecl) (hall decl' hdecl') hnode

end TwiceMade

open TwiceMade in
/-- The two calls make identical functions.  The function that was there is another one. -/
theorem functions_come_from_declarations_made_twice :
    ∃ f g h : Func, (interpreter.run program).2.env.lookup ⟨3⟩ = some (.function f) ∧
      (interpreter.run program).2.env.lookup ⟨4⟩ = some (.function g) ∧
      (interpreter.run program).2.env.lookup ⟨5⟩ = some (.list 0 [.function h]) ∧
      f.decl ∈ program.declarationsWith {given} ∧ f.NamedAsDeclared interpreter.interner ∧
      f.name = "g" ∧ (Value.function f).identical (.function g) = true ∧
      (Value.function f).identical (.function h) = false := by
  obtain ⟨hdecl, hidentical, -⟩ := functions_come_from_declarations interpreter program {given}
    fun f hf => congrArg Func.decl (eq_given hf)
  have hx : (interpreter.run program).2.env.lookup ⟨3⟩ = some (.function ⟨inner, "g"⟩) := rfl
  have hy : (interpreter.run program).2.env.lookup ⟨4⟩ = some (.function ⟨inner, "g"⟩) := rfl
  have hz : (interpreter.run program).2.env.lookup ⟨5⟩ =
      some (.list 0 [.function ⟨given, "g"⟩]) := rfl
  have hf : interpreter.Encounters program ⟨inner, "g"⟩ := .after ⟨⟨3⟩, _, hx, .self⟩
  have hh : interpreter.Encounters program ⟨given, "g"⟩ :=
    .after ⟨⟨5⟩, _, hz, .item List.mem_cons_self .self⟩
  obtain ⟨hstock, hname⟩ := hdecl _ hf
  have hnamed : Func.NamedAsDeclared interpreter.interner ⟨inner, "g"⟩ := hname fun g hg => by
    cases eq_given hg
    rfl
  have hsame := ((hidentical _ _ hf hf).2 injOn_node).2 rfl
  have hother : (Value.function ⟨inner, "g"⟩).identical (.function ⟨given, "g"⟩) = false := by
    refine Bool.eq_false_iff.2 fun h => ?_
    cases (hidentical _ _ hf hh).1.1 h
  exact ⟨_, _, _, hx, hy, hz, hstock, hnamed, rfl, hsame, hother⟩

end BindOnce

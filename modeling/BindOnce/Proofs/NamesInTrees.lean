import BindOnce.Proofs.Steps
import BindOnce.Syntax.Traverse

/-!
# The names in a tree

Which names occur in an expression or a statement, in whatever place: mentioned, called, declared,
as a parameter, in the body of a function.  What a tree does can only depend on these names, so they
are what a renaming has to take care of (`BindOnce.Proofs.InterningOrder`) and what decides which
bindings matter (`BindOnce.Proofs.Unmentioned`).

Trees contain lists of trees, so an induction over them is an induction over two things at once.  It
is done once, in `Expr.inductionOn` and `Stmt.inductionOn`; what follows uses these.

## What is here

* `Expr.names`, `Stmt.names`, `FunctionDecl.names` — the names in a tree.
* `Expr.inductionOn`, `Stmt.inductionOn` — a property of trees that passes from parts to wholes.
* `Expr.targets_subset_names`, `Stmt.targets_subset_names` — only names in the tree are bound.
* `Expr.names_mapNames`, `Expr.mapNames_mapNames` and the same for statements — renaming the
  identifiers of a tree.
-/

set_option autoImplicit false
namespace BindOnce

/-! ## The names -/

section Names

variable {ν : Type}

mutual

/-- The names in an expression. -/
def Expr.names : Expr ν → List ν
  | .literal _ => []
  | .variable ident => [ident.name]
  | .group inner => inner.names
  | .binary left _ right => left.names ++ right.names
  | .unary _ operand => operand.names
  | .call callee args => callee.name :: Expr.allNames args
  | .list elements => Expr.allNames elements

/-- The names in expressions. -/
def Expr.allNames : List (Expr ν) → List ν
  | [] => []
  | e :: es => e.names ++ Expr.allNames es

end

mutual

/-- The names in a statement, those in bodies of functions included. -/
def Stmt.names : Stmt ν → List ν
  | .print expr => expr.names
  | .expression expr => expr.names
  | .conditional condition thenBlock none => condition.names ++ Stmt.allNames thenBlock
  | .conditional condition thenBlock (some elseBlock) =>
    condition.names ++ (Stmt.allNames thenBlock ++ Stmt.allNames elseBlock)
  | .function _ name params body => name.name :: (params.map (·.name) ++ Stmt.allNames body)
  | .return expr => expr.names

/-- The names in statements. -/
def Stmt.allNames : List (Stmt ν) → List ν
  | [] => []
  | s :: ss => s.names ++ Stmt.allNames ss

end

/-- The names in a declaration: the declared one, the parameters, and those in the body. -/
def FunctionDecl.names (decl : FunctionDecl ν) : List ν :=
  decl.name.name :: (decl.params.map (·.name) ++ Stmt.allNames decl.body)

theorem Expr.allNames_eq_flatMap (es : List (Expr ν)) : allNames es = es.flatMap names := by
  induction es with
  | nil => rfl
  | cons e es ih => rw [allNames, ih, List.flatMap_cons]

theorem Stmt.allNames_eq_flatMap (ss : List (Stmt ν)) : allNames ss = ss.flatMap names := by
  induction ss with
  | nil => rfl
  | cons s ss ih => rw [allNames, ih, List.flatMap_cons]

end Names

/-! ## Induction -/

section Induction

variable {ν : Type}

/-- What passes from the parts of expressions to the whole holds of all expressions. -/
@[elab_as_elim]
theorem Expr.inductionOn {P : Expr ν → Prop} (e : Expr ν) (literal : ∀ value, P (.literal value))
    («variable» : ∀ ident, P (.variable ident)) (group : ∀ inner, P inner → P (.group inner))
    (binary : ∀ left op right, P left → P right → P (.binary left op right))
    (unary : ∀ op operand, P operand → P (.unary op operand))
    (call : ∀ callee args, (∀ e ∈ args, P e) → P (.call callee args))
    (list : ∀ elements, (∀ e ∈ elements, P e) → P (.list elements)) : P e :=
  @Expr.rec ν P (fun es => ∀ e ∈ es, P e) literal «variable» group binary unary call list
    (fun _ h => nomatch h) (fun _ _ he hes => List.forall_mem_cons.2 ⟨he, hes⟩) e

/-- What passes from the blocks and bodies in statements to the whole holds of all statements. -/
@[elab_as_elim]
theorem Stmt.inductionOn {P : Stmt ν → Prop} (s : Stmt ν) (print : ∀ expr, P (.print expr))
    (expression : ∀ expr, P (.expression expr))
    (conditional : ∀ condition thenBlock, (∀ s ∈ thenBlock, P s) →
      P (.conditional condition thenBlock none))
    (conditionalElse : ∀ condition thenBlock elseBlock, (∀ s ∈ thenBlock, P s) →
      (∀ s ∈ elseBlock, P s) → P (.conditional condition thenBlock (some elseBlock)))
    (function : ∀ node name params body, (∀ s ∈ body, P s) → P (.function node name params body))
    («return» : ∀ expr, P (.return expr)) : P s :=
  @Stmt.rec ν P (fun ss => ∀ s ∈ ss, P s) (fun block? => ∀ block ∈ block?, ∀ s ∈ block, P s)
    print expression
    (fun condition thenBlock elseBlock hthen helse =>
      match elseBlock, helse with
      | none, _ => conditional condition thenBlock hthen
      | some elseBlock, helse => conditionalElse condition thenBlock elseBlock hthen (helse _ rfl))
    function «return» (fun _ h => nomatch h)
    (fun _ _ hs hss => List.forall_mem_cons.2 ⟨hs, hss⟩) (fun _ h => nomatch h)
    (fun _ h _ hblock => Option.some.inj hblock ▸ h) s

end Induction

/-! ## Only names in the tree are bound -/

section Targets

variable {ν : Type}

theorem append_subset_append {as as' bs bs' : List ν} (h : as ⊆ as') (h' : bs ⊆ bs') :
    as ++ bs ⊆ as' ++ bs' :=
  List.append_subset.2
    ⟨List.subset_append_of_subset_left bs' h, List.subset_append_of_subset_right as' h'⟩

theorem Expr.name_mem_names_of_mentioned? {ident : Identifier ν} : ∀ {e : Expr ν},
    e.mentioned? = some ident → ident.name ∈ e.names
  | .variable _, h => by
    cases h
    exact List.mem_singleton_self _
  | .group inner, h => name_mem_names_of_mentioned? (e := inner) h

theorem Expr.assigned_subset_names (left : Expr ν) (op : Token) :
    left.assigned op ⊆ left.names := by
  intro x hx
  rw [assigned] at hx
  split at hx
  · rw [Option.mem_toList, Option.map_eq_some_iff] at hx
    obtain ⟨ident, hident, rfl⟩ := hx
    exact name_mem_names_of_mentioned? hident
  · cases hx

theorem Expr.allTargets_subset_allNames {es : List (Expr ν)}
    (h : ∀ e ∈ es, e.targets ⊆ e.names) : allTargets es ⊆ allNames es := by
  induction es with
  | nil => exact List.Subset.refl _
  | cons e es ih =>
    rw [List.forall_mem_cons] at h
    exact append_subset_append h.1 (ih h.2)

theorem Expr.targets_subset_names (e : Expr ν) : e.targets ⊆ e.names := by
  induction e using Expr.inductionOn with
  | literal value => exact List.Subset.refl _
  | «variable» ident => exact List.nil_subset _
  | group inner ih => exact ih
  | binary left op right hleft hright =>
    rw [targets, names, ← List.append_assoc]
    refine append_subset_append ?_ hright
    exact List.append_subset.2 ⟨left.assigned_subset_names op, hleft⟩
  | unary op operand ih => exact ih
  | call callee args ih => exact List.subset_cons_of_subset _ (allTargets_subset_allNames ih)
  | list elements ih => exact allTargets_subset_allNames ih

theorem Stmt.allTargets_subset_allNames {ss : List (Stmt ν)}
    (h : ∀ s ∈ ss, s.targets ⊆ s.names) : allTargets ss ⊆ allNames ss := by
  induction ss with
  | nil => exact List.Subset.refl _
  | cons s ss ih =>
    rw [List.forall_mem_cons] at h
    exact append_subset_append h.1 (ih h.2)

theorem Stmt.targets_subset_names (s : Stmt ν) : s.targets ⊆ s.names := by
  induction s using Stmt.inductionOn with
  | print expr => exact expr.targets_subset_names
  | expression expr => exact expr.targets_subset_names
  | conditional condition thenBlock hthen =>
    exact append_subset_append condition.targets_subset_names
      (allTargets_subset_allNames hthen)
  | conditionalElse condition thenBlock elseBlock hthen helse =>
    exact append_subset_append condition.targets_subset_names
      (append_subset_append (allTargets_subset_allNames hthen)
        (allTargets_subset_allNames helse))
  | function node name params body _ => exact List.cons_subset_cons _ (List.nil_subset _)
  | «return» expr => exact expr.targets_subset_names

end Targets

/-! ## Renaming -/

section MapNames

variable {ν μ ξ : Type} (f : ν → μ)

/-- The declaration with other identifiers. -/
def FunctionDecl.mapNames (decl : FunctionDecl ν) : FunctionDecl μ where
  node := decl.node
  name := ⟨f decl.name.name, decl.name.line⟩
  params := decl.params.map fun param => ⟨f param.name, param.line⟩
  body := decl.body.map (Stmt.mapNames f)

theorem Expr.traverseAll_eq_map (es : List (Expr ν)) :
    Id.run (traverseAll (fun x => pure (f x)) es) = es.map (mapNames f) := by
  induction es with
  | nil => rfl
  | cons e es ih => exact congrArg (e.mapNames f :: ·) ih

@[simp]
theorem Expr.mapNames_literal (value : Literal) :
    (Expr.literal value : Expr ν).mapNames f = .literal value := rfl

@[simp]
theorem Expr.mapNames_variable (ident : Identifier ν) :
    (Expr.variable ident).mapNames f = .variable ⟨f ident.name, ident.line⟩ := rfl

@[simp]
theorem Expr.mapNames_group (inner : Expr ν) :
    (Expr.group inner).mapNames f = .group (inner.mapNames f) := rfl

@[simp]
theorem Expr.mapNames_binary (left : Expr ν) (op : Token) (right : Expr ν) :
    (Expr.binary left op right).mapNames f =
      .binary (left.mapNames f) op (right.mapNames f) := rfl

@[simp]
theorem Expr.mapNames_unary (op : Token) (operand : Expr ν) :
    (Expr.unary op operand).mapNames f = .unary op (operand.mapNames f) := rfl

@[simp]
theorem Expr.mapNames_call (callee : Identifier ν) (args : List (Expr ν)) :
    (Expr.call callee args).mapNames f =
      .call ⟨f callee.name, callee.line⟩ (args.map (mapNames f)) := by
  rw [← traverseAll_eq_map]
  rfl

@[simp]
theorem Expr.mapNames_list (elements : List (Expr ν)) :
    (Expr.list elements).mapNames f = .list (elements.map (mapNames f)) := by
  rw [← traverseAll_eq_map]
  rfl

theorem Stmt.traverseAll_eq_map (ss : List (Stmt ν)) :
    Id.run (traverseAll (fun x => pure (f x)) ss) = ss.map (mapNames f) := by
  induction ss with
  | nil => rfl
  | cons s ss ih => exact congrArg (s.mapNames f :: ·) ih

@[simp]
theorem Stmt.mapNames_print (expr : Expr ν) :
    (Stmt.print expr).mapNames f = .print (expr.mapNames f) := rfl

@[simp]
theorem Stmt.mapNames_expression (expr : Expr ν) :
    (Stmt.expression expr).mapNames f = .expression (expr.mapNames f) := rfl

@[simp]
theorem Stmt.mapNames_conditional (condition : Expr ν) (thenBlock : List (Stmt ν)) :
    (Stmt.conditional condition thenBlock none).mapNames f =
      .conditional (condition.mapNames f) (thenBlock.map (mapNames f)) none := by
  rw [← traverseAll_eq_map]
  rfl

@[simp]
theorem Stmt.mapNames_conditional_some (condition : Expr ν) (thenBlock elseBlock : List (Stmt ν)) :
    (Stmt.conditional condition thenBlock (some elseBlock)).mapNames f =
      .conditional (condition.mapNames f) (thenBlock.map (mapNames f))
        (some (elseBlock.map (mapNames f))) := by
  rw [← traverseAll_eq_map, ← traverseAll_eq_map]
  rfl

@[simp]
theorem Stmt.mapNames_function (node : Nat) (name : Identifier ν) (params : List (Identifier ν))
    (body : List (Stmt ν)) :
    (Stmt.function node name params body).mapNames f =
      .function node ⟨f name.name, name.line⟩ (params.map fun param => ⟨f param.name, param.line⟩)
        (body.map (mapNames f)) := by
  have hparams : Id.run (params.mapM fun param => param.traverse fun x => pure (f x)) =
      params.map fun param => ⟨f param.name, param.line⟩ :=
    congrArg Id.run List.mapM_pure
  rw [← traverseAll_eq_map, ← hparams]
  rfl

@[simp]
theorem Stmt.mapNames_return (expr : Expr ν) :
    (Stmt.return expr).mapNames f = .return (expr.mapNames f) := rfl

/-! ### The names of a renamed tree -/

theorem Expr.allNames_map_mapNames {es : List (Expr ν)}
    (h : ∀ e ∈ es, (e.mapNames f).names = e.names.map f) :
    allNames (es.map (mapNames f)) = (allNames es).map f := by
  induction es with
  | nil => rfl
  | cons e es ih =>
    rw [List.forall_mem_cons] at h
    rw [List.map_cons, allNames, allNames, h.1, ih h.2, List.map_append]

theorem Expr.names_mapNames (e : Expr ν) : (e.mapNames f).names = e.names.map f := by
  induction e using Expr.inductionOn with
  | literal value => rfl
  | «variable» ident => rfl
  | group inner ih => exact ih
  | binary left op right hleft hright =>
    rw [mapNames_binary, names, names, hleft, hright, List.map_append]
  | unary op operand ih => exact ih
  | call callee args ih =>
    rw [mapNames_call, names, names, allNames_map_mapNames f ih, List.map_cons]
  | list elements ih => rw [mapNames_list, names, names, allNames_map_mapNames f ih]

theorem Stmt.allNames_map_mapNames {ss : List (Stmt ν)}
    (h : ∀ s ∈ ss, (s.mapNames f).names = s.names.map f) :
    allNames (ss.map (mapNames f)) = (allNames ss).map f := by
  induction ss with
  | nil => rfl
  | cons s ss ih =>
    rw [List.forall_mem_cons] at h
    rw [List.map_cons, allNames, allNames, h.1, ih h.2, List.map_append]

theorem Stmt.names_mapNames (s : Stmt ν) : (s.mapNames f).names = s.names.map f := by
  induction s using Stmt.inductionOn with
  | print expr => exact expr.names_mapNames f
  | expression expr => exact expr.names_mapNames f
  | conditional condition thenBlock hthen =>
    rw [mapNames_conditional, names, names, condition.names_mapNames, allNames_map_mapNames f hthen,
      List.map_append]
  | conditionalElse condition thenBlock elseBlock hthen helse =>
    rw [mapNames_conditional_some, names, names, condition.names_mapNames,
      allNames_map_mapNames f hthen, allNames_map_mapNames f helse, List.map_append,
      List.map_append]
  | function node name params body hbody =>
    rw [mapNames_function, names, names, allNames_map_mapNames f hbody, List.map_cons,
      List.map_append, List.map_map, List.map_map]
    rfl
  | «return» expr => exact expr.names_mapNames f

/-! ### Renaming twice -/

variable {f} {g : μ → ξ} {h : ν → ξ}

theorem Expr.map_mapNames_mapNames {es : List (Expr ν)} (hfg : ∀ x ∈ allNames es, g (f x) = h x)
    (ih : ∀ e ∈ es, (∀ x ∈ e.names, g (f x) = h x) → (e.mapNames f).mapNames g = e.mapNames h) :
    (es.map (mapNames f)).map (mapNames g) = es.map (mapNames h) := by
  rw [List.map_map]
  refine List.map_congr_left fun e he => ih e he fun x hx => hfg x ?_
  rw [allNames_eq_flatMap]
  exact List.mem_flatMap_of_mem he hx

/-- Renaming in two steps is renaming in one, if it is so for the names that occur. -/
theorem Expr.mapNames_mapNames {e : Expr ν} (hfg : ∀ x ∈ e.names, g (f x) = h x) :
    (e.mapNames f).mapNames g = e.mapNames h := by
  induction e using Expr.inductionOn with
  | literal value => rfl
  | «variable» ident => simp [hfg ident.name (List.mem_singleton_self _)]
  | group inner ih => simp [ih hfg]
  | binary left op right hleft hright =>
    rw [names, List.forall_mem_append] at hfg
    simp [hleft hfg.1, hright hfg.2]
  | unary op operand ih => simp [ih hfg]
  | call callee args ih =>
    rw [names, List.forall_mem_cons] at hfg
    rw [mapNames_call, mapNames_call, mapNames_call, map_mapNames_mapNames hfg.2 ih, hfg.1]
  | list elements ih =>
    rw [mapNames_list, mapNames_list, mapNames_list, map_mapNames_mapNames hfg ih]

theorem Stmt.map_mapNames_mapNames {ss : List (Stmt ν)} (hfg : ∀ x ∈ allNames ss, g (f x) = h x)
    (ih : ∀ s ∈ ss, (∀ x ∈ s.names, g (f x) = h x) → (s.mapNames f).mapNames g = s.mapNames h) :
    (ss.map (mapNames f)).map (mapNames g) = ss.map (mapNames h) := by
  rw [List.map_map]
  refine List.map_congr_left fun s hs => ih s hs fun x hx => hfg x ?_
  rw [allNames_eq_flatMap]
  exact List.mem_flatMap_of_mem hs hx

theorem Identifier.map_map_name {params : List (Identifier ν)}
    (hfg : ∀ x ∈ params.map (·.name), g (f x) = h x) :
    ((params.map fun param => (⟨f param.name, param.line⟩ : Identifier μ)).map fun param =>
      (⟨g param.name, param.line⟩ : Identifier ξ)) =
      params.map fun param => ⟨h param.name, param.line⟩ := by
  rw [List.map_map]
  refine List.map_congr_left fun param hparam => ?_
  rw [Function.comp_apply, hfg _ (List.mem_map_of_mem hparam)]

theorem Stmt.mapNames_mapNames {s : Stmt ν} (hfg : ∀ x ∈ s.names, g (f x) = h x) :
    (s.mapNames f).mapNames g = s.mapNames h := by
  induction s using Stmt.inductionOn with
  | print expr => simp [Expr.mapNames_mapNames hfg]
  | expression expr => simp [Expr.mapNames_mapNames hfg]
  | conditional condition thenBlock hthen =>
    rw [names, List.forall_mem_append] at hfg
    rw [mapNames_conditional, mapNames_conditional, mapNames_conditional,
      Expr.mapNames_mapNames hfg.1, map_mapNames_mapNames hfg.2 hthen]
  | conditionalElse condition thenBlock elseBlock hthen helse =>
    rw [names, List.forall_mem_append, List.forall_mem_append] at hfg
    obtain ⟨hcondition, hthen', helse'⟩ := hfg
    rw [mapNames_conditional_some, mapNames_conditional_some, mapNames_conditional_some,
      Expr.mapNames_mapNames hcondition, map_mapNames_mapNames hthen' hthen,
      map_mapNames_mapNames helse' helse]
  | function node name params body hbody =>
    rw [names, List.forall_mem_cons, List.forall_mem_append] at hfg
    obtain ⟨hname, hparams, hbody'⟩ := hfg
    rw [mapNames_function, mapNames_function, mapNames_function, hname,
      Identifier.map_map_name hparams, map_mapNames_mapNames hbody' hbody]
  | «return» expr => simp [Expr.mapNames_mapNames hfg]

theorem FunctionDecl.mapNames_mapNames {decl : FunctionDecl ν}
    (hfg : ∀ x ∈ decl.names, g (f x) = h x) :
    (decl.mapNames f).mapNames g = decl.mapNames h := by
  rw [names, List.forall_mem_cons, List.forall_mem_append] at hfg
  obtain ⟨hname, hparams, hbody⟩ := hfg
  simp only [mapNames, hname, Identifier.map_map_name hparams,
    Stmt.map_mapNames_mapNames hbody fun _ _ => Stmt.mapNames_mapNames]

end MapNames

end BindOnce

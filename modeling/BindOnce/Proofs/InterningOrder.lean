import BindOnce.Proofs.HandInHand
import BindOnce.Proofs.NamesInTrees
import BindOnce.Proofs.SingleAssignment
import BindOnce.Run

/-!
# The order of interning does not matter

A program is written with identifiers and run with positions in a table.  Which position an
identifier has depends on what was entered before, by this program or by others, so nothing that a
program does may depend on it.  It does not: the evaluator compares positions, orders its search
trees by them, and turns them into texts for messages and for the names of functions, but what it
results in is the same for every table that holds the identifiers of the program.

A tree over texts, taken through two tables, gives two trees over names.  The matching of these is
lawful, because a table gives different texts different names and gives every name its text back.

## What is here

* `Interner.nameOf`, `Program.intern_eq` — entering a program whose identifiers a table holds.
* `Matching.interned` — what comes from the same text or the same tree stands for each other.
* `Func.moved`, `Value.moved` — a function and a value, taken from one table to another.
* `interning_order_irrelevant` — a program run with two tables.
-/

set_option autoImplicit false
namespace BindOnce

/-! ## Entering what is there -/

section Enter

variable {t : Interner}

/-- The name under which the table holds a text; for a text that it does not hold, the name of the
empty text. -/
def Interner.nameOf (t : Interner) (s : String) : Name := (t.find? s).getD .empty

theorem Interner.find?_eq_nameOf {s : String} (h : (t.find? s).isSome) :
    t.find? s = some (t.nameOf s) := by
  obtain ⟨n, hn⟩ := Option.isSome_iff_exists.1 h
  rw [nameOf, hn, Option.getD_some]

theorem Interner.text_nameOf {s : String} (h : (t.find? s).isSome) : t.text (t.nameOf s) = s :=
  text_of_find? (find?_eq_nameOf h)

theorem internName_eq {s : String} (h : (t.find? s).isSome) :
    internName s t = .ok (t.nameOf s, t) :=
  Interner.intern_of_find? (Interner.find?_eq_nameOf h)

/-- A step that enters nothing is followed by the next from the same table. -/
theorem InternM.bind_eq {α β : Type} {x : InternM α} {a : α} (h : x t = .ok (a, t))
    (f : α → InternM β) : (x >>= f) t = f a t := by
  show (x t >>= fun p => f p.1 p.2) = f a t
  rw [h]
  rfl

theorem Identifier.traverse_internName {ident : Identifier String}
    (h : (t.find? ident.name).isSome) :
    ident.traverse internName t = .ok (⟨t.nameOf ident.name, ident.line⟩, t) := by
  rw [Identifier.traverse, InternM.bind_eq (internName_eq h)]
  rfl

theorem Expr.traverseAll_internName {es : List (Expr String)}
    (h : ∀ s ∈ allNames es, (t.find? s).isSome)
    (ih : ∀ e ∈ es, (∀ s ∈ e.names, (t.find? s).isSome) →
      e.traverse internName t = .ok (e.mapNames t.nameOf, t)) :
    traverseAll internName es t = .ok (es.map (mapNames t.nameOf), t) := by
  induction es with
  | nil => rfl
  | cons e es ihes =>
    rw [allNames, List.forall_mem_append] at h
    rw [List.forall_mem_cons] at ih
    rw [traverseAll, InternM.bind_eq (ih.1 h.1), InternM.bind_eq (ihes h.2 ih.2)]
    rfl

/-- Entering an expression whose identifiers the table holds leaves the table as it is. -/
theorem Expr.traverse_internName {e : Expr String} (h : ∀ s ∈ e.names, (t.find? s).isSome) :
    e.traverse internName t = .ok (e.mapNames t.nameOf, t) := by
  induction e using Expr.inductionOn with
  | literal value => rfl
  | «variable» ident =>
    rw [traverse,
      InternM.bind_eq (Identifier.traverse_internName (h _ (List.mem_singleton_self _)))]
    rfl
  | group inner ih =>
    rw [traverse, InternM.bind_eq (ih h)]
    rfl
  | binary left op right hleft hright =>
    rw [names, List.forall_mem_append] at h
    rw [traverse, InternM.bind_eq (hleft h.1),
      InternM.bind_eq (hright h.2)]
    rfl
  | unary op operand ih =>
    rw [traverse, InternM.bind_eq (ih h)]
    rfl
  | call callee args ih =>
    rw [names, List.forall_mem_cons] at h
    rw [traverse, InternM.bind_eq (Identifier.traverse_internName h.1),
      InternM.bind_eq (traverseAll_internName h.2 ih), mapNames_call]
    rfl
  | list elements ih =>
    rw [traverse, InternM.bind_eq (traverseAll_internName h ih), mapNames_list]
    rfl

theorem Stmt.traverseAll_internName {ss : List (Stmt String)}
    (h : ∀ s ∈ allNames ss, (t.find? s).isSome)
    (ih : ∀ s ∈ ss, (∀ x ∈ s.names, (t.find? x).isSome) →
      s.traverse internName t = .ok (s.mapNames t.nameOf, t)) :
    traverseAll internName ss t = .ok (ss.map (mapNames t.nameOf), t) := by
  induction ss with
  | nil => rfl
  | cons s ss ihss =>
    rw [allNames, List.forall_mem_append] at h
    rw [List.forall_mem_cons] at ih
    rw [traverseAll, InternM.bind_eq (ih.1 h.1), InternM.bind_eq (ihss h.2 ih.2)]
    rfl

theorem Identifier.mapM_traverse_internName {idents : List (Identifier String)}
    (h : ∀ s ∈ idents.map (·.name), (t.find? s).isSome) :
    (idents.mapM (Identifier.traverse internName) : InternM _) t =
      .ok (idents.map fun ident => ⟨t.nameOf ident.name, ident.line⟩, t) := by
  induction idents with
  | nil => rfl
  | cons ident idents ih =>
    rw [List.map_cons, List.forall_mem_cons] at h
    rw [List.mapM_cons, InternM.bind_eq (traverse_internName h.1), InternM.bind_eq (ih h.2)]
    rfl

theorem Stmt.traverse_internName {s : Stmt String} (h : ∀ x ∈ s.names, (t.find? x).isSome) :
    s.traverse internName t = .ok (s.mapNames t.nameOf, t) := by
  induction s using Stmt.inductionOn with
  | print expr | expression expr | «return» expr =>
    rw [traverse, InternM.bind_eq (Expr.traverse_internName h)]
    rfl
  | conditional condition thenBlock hthen =>
    rw [names, List.forall_mem_append] at h
    rw [traverse, InternM.bind_eq (Expr.traverse_internName h.1),
      InternM.bind_eq (traverseAll_internName h.2 hthen), mapNames_conditional]
    rfl
  | conditionalElse condition thenBlock elseBlock hthen helse =>
    rw [names, List.forall_mem_append, List.forall_mem_append] at h
    obtain ⟨hcondition, hthen', helse'⟩ := h
    rw [traverse, InternM.bind_eq (Expr.traverse_internName hcondition),
      InternM.bind_eq (traverseAll_internName hthen' hthen), mapNames_conditional_some]
    dsimp only
    rw [InternM.bind_eq (traverseAll_internName helse' helse)]
    rfl
  | function node name params body hbody =>
    rw [names, List.forall_mem_cons, List.forall_mem_append] at h
    obtain ⟨hname, hparams, hbody'⟩ := h
    rw [traverse, InternM.bind_eq (Identifier.traverse_internName hname),
      InternM.bind_eq (Identifier.mapM_traverse_internName hparams),
      InternM.bind_eq (traverseAll_internName hbody' hbody), mapNames_function]
    rfl

/-- **Entering a program whose identifiers the table holds** leaves the table as it is, and gives
every identifier the name that it has. -/
theorem Program.intern_eq {p : Program String} (h : ∀ s ∈ Stmt.allNames p, (t.find? s).isSome) :
    Program.intern p t = .ok (p.map (Stmt.mapNames t.nameOf), t) :=
  Stmt.traverseAll_internName h fun _ _ => Stmt.traverse_internName

end Enter

/-! ## Two tables -/

/-- Both tables hold all the texts. -/
def Interner.Share (t t' : Interner) (texts : List String) : Prop :=
  ∀ s ∈ texts, (t.find? s).isSome ∧ (t'.find? s).isSome

instance (t t' : Interner) (texts : List String) : Decidable (t.Share t' texts) :=
  inferInstanceAs (Decidable (∀ s ∈ texts, (t.find? s).isSome ∧ (t'.find? s).isSome))

/-- What comes from the same text or the same tree stands for each other, if both tables hold the
texts. -/
def Matching.interned (t t' : Interner) : Matching where
  name x x' := ∃ s : String, t.find? s = some x ∧ t'.find? s = some x'
  func f f' := f.name = f'.name ∧ ∃ decl : FunctionDecl String, t.Share t' decl.names ∧
    f.decl = decl.mapNames t.nameOf ∧ f'.decl = decl.mapNames t'.nameOf
  expr e e' := ∃ tree : Expr String, t.Share t' tree.names ∧
    e = tree.mapNames t.nameOf ∧ e' = tree.mapNames t'.nameOf
  stmt s s' := ∃ tree : Stmt String, t.Share t' tree.names ∧
    s = tree.mapNames t.nameOf ∧ s' = tree.mapNames t'.nameOf

section Interned

variable {t t' : Interner}

theorem Interner.matches_nameOf {s : String} (h : (t.find? s).isSome ∧ (t'.find? s).isSome) :
    (Matching.interned t t').name (t.nameOf s) (t'.nameOf s) :=
  ⟨s, find?_eq_nameOf h.1, find?_eq_nameOf h.2⟩

theorem Identifier.forall₂_interned {idents : List (Identifier String)}
    (h : t.Share t' (idents.map (·.name))) :
    List.Forall₂ (Identifier.Matches (.interned t t'))
      (idents.map fun ident => ⟨t.nameOf ident.name, ident.line⟩)
      (idents.map fun ident => ⟨t'.nameOf ident.name, ident.line⟩) := by
  refine List.forall₂_map_left_iff.2 (List.forall₂_map_right_iff.2 (List.forall₂_same.2 ?_))
  exact fun ident hident => ⟨Interner.matches_nameOf (h _ (List.mem_map_of_mem hident)), rfl⟩

theorem Expr.forall₂_interned {es : List (Expr String)} (h : t.Share t' (allNames es)) :
    List.Forall₂ (Matching.interned t t').expr (es.map (mapNames t.nameOf))
      (es.map (mapNames t'.nameOf)) := by
  refine List.forall₂_map_left_iff.2 (List.forall₂_map_right_iff.2 (List.forall₂_same.2 ?_))
  intro e he
  refine ⟨e, fun s hs => h s ?_, rfl, rfl⟩
  rw [allNames_eq_flatMap]
  exact List.mem_flatMap_of_mem he hs

theorem Stmt.forall₂_interned {ss : List (Stmt String)} (h : t.Share t' (allNames ss)) :
    List.Forall₂ (Matching.interned t t').stmt (ss.map (mapNames t.nameOf))
      (ss.map (mapNames t'.nameOf)) := by
  refine List.forall₂_map_left_iff.2 (List.forall₂_map_right_iff.2 (List.forall₂_same.2 ?_))
  intro s hs
  refine ⟨s, fun x hx => h x ?_, rfl, rfl⟩
  rw [allNames_eq_flatMap]
  exact List.mem_flatMap_of_mem hs hx

theorem Expr.partsMatch_interned : ∀ tree : Expr String, t.Share t' tree.names →
    Expr.PartsMatch (.interned t t') (tree.mapNames t.nameOf).bare (tree.mapNames t'.nameOf).bare
  | .group inner, h => partsMatch_interned inner h
  | .literal value, _ => .literal value
  | .variable _, h =>
    .variable ⟨Interner.matches_nameOf (h _ (List.mem_singleton_self _)), rfl⟩
  | .binary left _ right, h => by
    rw [names, Interner.Share, List.forall_mem_append] at h
    exact .binary ⟨left, h.1, rfl, rfl⟩ ⟨rfl, rfl⟩ ⟨right, h.2, rfl, rfl⟩
  | .unary _ operand, h => .unary ⟨rfl, rfl⟩ ⟨operand, h, rfl, rfl⟩
  | .call _ _, h => by
    rw [names, Interner.Share, List.forall_mem_cons] at h
    rw [mapNames_call, mapNames_call]
    exact .call ⟨Interner.matches_nameOf h.1, rfl⟩ (forall₂_interned h.2)
  | .list _, h => by
    rw [mapNames_list, mapNames_list]
    exact .list (forall₂_interned h)

theorem Stmt.partsMatch_interned {tree : Stmt String} (h : t.Share t' tree.names) :
    Stmt.PartsMatch (.interned t t') t t' (tree.mapNames t.nameOf) (tree.mapNames t'.nameOf) := by
  cases tree with
  | print e => exact .print ⟨e, h, rfl, rfl⟩
  | expression e => exact .expression ⟨e, h, rfl, rfl⟩
  | conditional c block other =>
    cases other with
    | none =>
      rw [names, Interner.Share, List.forall_mem_append] at h
      rw [mapNames_conditional, mapNames_conditional]
      exact .conditional ⟨c, h.1, rfl, rfl⟩ (forall₂_interned h.2)
    | some other =>
      rw [names, Interner.Share, List.forall_mem_append, List.forall_mem_append] at h
      rw [mapNames_conditional_some, mapNames_conditional_some]
      exact .conditionalElse ⟨c, h.1, rfl, rfl⟩ (forall₂_interned h.2.1) (forall₂_interned h.2.2)
  | function node name params body =>
    have hname := (List.forall_mem_cons.1 h).1
    rw [mapNames_function, mapNames_function]
    refine .function (Interner.matches_nameOf hname) ⟨?_, ⟨node, name, params, body⟩, h, rfl, rfl⟩
    exact (Interner.text_nameOf hname.1).trans (Interner.text_nameOf hname.2).symm
  | «return» e => exact .return ⟨e, h, rfl, rfl⟩

/-- **Evaluation cannot tell which table the names come from.** -/
theorem Matching.interned_lawful (t t' : Interner) : (interned t t').Lawful t t' where
  name_eq_iff := by
    rintro x x' y y' ⟨s, hx, hx'⟩ ⟨u, hy, hy'⟩
    rw [Interner.eq_iff_of_find? hx hy, Interner.eq_iff_of_find? hx' hy']
  text_eq := by
    rintro x x' ⟨s, hx, hx'⟩
    rw [Interner.text_of_find? hx, Interner.text_of_find? hx']
  func := by
    rintro f f' ⟨hname, decl, h, hf, hf'⟩
    rw [FunctionDecl.names, Interner.Share, List.forall_mem_cons, List.forall_mem_append] at h
    refine ⟨hname, ?_, ?_⟩
    · rw [hf, hf']
      exact Identifier.forall₂_interned h.2.1
    · rw [hf, hf']
      exact Stmt.forall₂_interned h.2.2
  func_same := by
    rintro f f' g g' ⟨-, decl, -, hf, hf'⟩ ⟨-, decl', -, hg, hg'⟩
    rw [Func.same, Func.same, hf, hf', hg, hg']
    rfl
  expr := by
    rintro e e' ⟨tree, h, rfl, rfl⟩
    exact tree.partsMatch_interned h
  stmt := by
    rintro s s' ⟨tree, h, rfl, rfl⟩
    exact Stmt.partsMatch_interned h

end Interned

/-! ## From one table to another -/

/-- The function with the identifiers of its declaration taken from the first table to the second;
declaration and declared name stay the same. -/
def Func.moved (t t' : Interner) (f : Func) : Func where
  decl := f.decl.mapNames fun x => t'.nameOf (t.text x)
  name := f.name

/-- The value with its functions taken from the first table to the second. -/
def Value.moved (t t' : Interner) (v : Value) : Value := v.map id (Func.moved t t')

/-- What a text is bound to: the value of the name that the table has for it. -/
def Env.lookupText (env : Env) (t : Interner) (s : String) : Option Value :=
  (t.find? s).bind env.lookup

section Moved

variable {t t' : Interner}

/-- Functions from the same tree are taken to each other. -/
theorem Func.moved_eq_of_matches {f f' : Func} (h : (Matching.interned t t').func f f') :
    f.moved t t' = f' := by
  obtain ⟨decl, name⟩ := f
  obtain ⟨decl', name'⟩ := f'
  obtain ⟨rfl, tree, hnames, rfl, rfl⟩ := h
  rw [moved, FunctionDecl.mapNames_mapNames fun s hs => ?_]
  rw [Interner.text_nameOf (hnames s hs).1]

theorem Value.Matches.moved_eq {v v' : Value} (h : Value.Matches (.interned t t') v v') :
    v.moved t t' = v' := by
  have hmap : v.map id (Func.moved t t') = v'.map id id :=
    h.map_eq (fun _ _ h => h) fun _ _ h => Func.moved_eq_of_matches h
  rw [Value.moved, hmap, Value.map_id]

/-- In matching environments, what a text that both tables hold is bound to corresponds. -/
theorem Env.Matches.lookupText_eq {env env' : Env} (h : Env.Matches (.interned t t') env env')
    {s : String} (hs : (t.find? s).isSome ∧ (t'.find? s).isSome) :
    env'.lookupText t' s = (env.lookupText t s).map (Value.moved t t') := by
  have hlookup := h _ _ (Interner.matches_nameOf hs)
  rw [lookupText, lookupText, Interner.find?_eq_nameOf hs.1, Interner.find?_eq_nameOf hs.2,
    Option.bind_some, Option.bind_some]
  generalize env.lookup _ = found, env'.lookup _ = found' at hlookup ⊢
  cases hlookup with
  | none => rfl
  | some hv => rw [Option.map_some, hv.moved_eq]

/-- A program run from the empty environment binds its own identifiers only. -/
theorem Interpreter.lookup_run_interned {i : Interpreter} (hi : i.env = .empty)
    {p : Program String} {x : Name}
    (h : (i.run (p.map (Stmt.mapNames t.nameOf))).2.env.lookup x ≠ none) :
    ∃ s ∈ Stmt.allNames p, x = t.nameOf s := by
  have hempty : i.env.lookup x = none := by rw [hi, Env.lookup_empty]
  have hx := Stmt.allTargets_subset_allNames (fun s _ => s.targets_subset_names)
    ((i.env_grows_run _).names_of_lookup hempty h)
  rw [Stmt.allNames_map_mapNames _ fun s _ => s.names_mapNames _, List.mem_map] at hx
  obtain ⟨s, hs, rfl⟩ := hx
  exact ⟨s, hs, rfl⟩

/-- A text that does not occur in the program is not bound. -/
theorem Interpreter.lookupText_run_interned {i : Interpreter} (hi : i.env = .empty)
    {p : Program String} (hp : ∀ s ∈ Stmt.allNames p, (t.find? s).isSome) {s : String}
    (hs : s ∉ Stmt.allNames p) :
    (i.run (p.map (Stmt.mapNames t.nameOf))).2.env.lookupText t s = none := by
  rw [Env.lookupText]
  cases hx : t.find? s with
  | none => rfl
  | some x =>
    refine Classical.not_not.1 fun hbound => ?_
    obtain ⟨u, hu, rfl⟩ := lookup_run_interned hi hbound
    exact hs ((Interner.eq_iff_of_find? hx (Interner.find?_eq_nameOf (hp u hu))).1 rfl ▸ hu)

/-- **The two runs of a program** go hand in hand. -/
theorem Interpreter.run_interned {p : Program String} (h : t.Share t' (Stmt.allNames p))
    (mode : Mode) (lang : Lang) (channel : Channel) (limit : Option Nat) (lists : ListSupply) :
    let first := (new t mode lang .empty channel limit lists).run (p.map (Stmt.mapNames t.nameOf))
    let second :=
      (new t' mode lang .empty channel limit lists).run (p.map (Stmt.mapNames t'.nameOf))
    first.1 = second.1 ∧ first.2.channel = second.2.channel ∧
      Env.Matches (.interned t t') first.2.env second.2.env := by
  have hprogram : Task.Matches (.interned t t') (.program (p.map (Stmt.mapNames t.nameOf)))
      (.program (p.map (Stmt.mapNames t'.nameOf))) := .program (Stmt.forall₂_interned h)
  have hs : State.Matches (.interned t t') (new t mode lang .empty channel limit lists).state
      (new t' mode lang .empty channel limit lists).state := ⟨.empty, rfl, rfl, rfl, rfl⟩
  obtain ⟨hr, ht⟩ := hprogram.hand_in_hand (Matching.interned_lawful t t') hs
  exact ⟨hr.eq id fun _ => rfl, ht.channel, ht.env⟩

end Moved

/-- **The order of interning does not matter.**  Take two tables that hold the identifiers of a
program, whatever else was entered into them and in whatever order.  Entering the program leaves
both as they are.  The two trees that this gives, each run with its table from the empty
environment, end with the same result or failure and the same output, report included.  Every text
is bound to corresponding values: the same ones, but for the table that the declarations of
functions are written with.  Only names with texts are bound. -/
theorem interning_order_irrelevant {t t' : Interner} {p : Program String}
    (h : t.Share t' (Stmt.allNames p)) (mode : Mode) (lang : Lang) (channel : Channel)
    (limit : Option Nat) (lists : ListSupply) :
    ∃ q q' : Program Name, Program.intern p t = .ok (q, t) ∧ Program.intern p t' = .ok (q', t') ∧
      let first := (Interpreter.new t mode lang .empty channel limit lists).run q
      let second := (Interpreter.new t' mode lang .empty channel limit lists).run q'
      first.1 = second.1 ∧ first.2.channel = second.2.channel ∧
      (∀ s : String, second.2.env.lookupText t' s =
        (first.2.env.lookupText t s).map (Value.moved t t')) ∧
      (∀ x : Name, first.2.env.lookup x ≠ none → t.find? (t.text x) = some x) ∧
      (∀ x : Name, second.2.env.lookup x ≠ none → t'.find? (t'.text x) = some x) ∧
      ∀ (config : Config) (channel : Channel),
        Program.run q t config channel = Program.run q' t' config channel := by
  have hrun (mode : Mode) (lang : Lang) (channel : Channel) (limit : Option Nat)
      (lists : ListSupply) := Interpreter.run_interned h mode lang channel limit lists
  obtain ⟨hr, hchannel, henv⟩ := hrun mode lang channel limit lists
  refine ⟨_, _, Program.intern_eq fun s hs => (h s hs).1, Program.intern_eq fun s hs => (h s hs).2,
    hr, hchannel, fun s => ?_, fun x hx => ?_, fun x hx => ?_, fun config channel => ?_⟩
  · by_cases hs : s ∈ Stmt.allNames p
    · exact henv.lookupText_eq (h s hs)
    · rw [Interpreter.lookupText_run_interned rfl (fun s hs => (h s hs).1) hs,
        Interpreter.lookupText_run_interned rfl (fun s hs => (h s hs).2) hs]
      rfl
  · obtain ⟨s, hs, rfl⟩ := Interpreter.lookup_run_interned rfl hx
    rw [Interner.text_nameOf (h s hs).1, Interner.find?_eq_nameOf (h s hs).1]
  · obtain ⟨s, hs, rfl⟩ := Interpreter.lookup_run_interned rfl hx
    rw [Interner.text_nameOf (h s hs).2, Interner.find?_eq_nameOf (h s hs).2]
  · obtain ⟨hr, hchannel, -⟩ := hrun config.mode config.lang channel none {}
    rw [Program.run_eq, Program.run_eq]
    dsimp only
    rw [hr, hchannel]

/-- A program that names a function and a value, with tables that hold the two the other way
round.  Binding the value again fails, with its identifier in the message. -/
theorem interning_order_irrelevant_swapped :
    let body : List (Stmt String) := [.return (.list [.variable ⟨"x", 1⟩])]
    let p : Program String :=
      [.function 0 ⟨"f", 1⟩ [⟨"x", 1⟩] body,
        .expression (.binary (.variable ⟨"x", 2⟩) ⟨.equal, 2⟩ (.call ⟨"f", 2⟩ [.literal .nil])),
        .expression (.binary (.variable ⟨"x", 3⟩) ⟨.equal, 3⟩ (.literal .nil))]
    let t := (Interner.new.push "x" rfl (by decide)).push "f" rfl (by decide)
    let t' := (Interner.new.push "f" rfl (by decide)).push "x" rfl (by decide)
    t.find? "x" = some ⟨1⟩ ∧ t'.find? "x" = some ⟨2⟩ ∧ t.Share t' (Stmt.allNames p) ∧
    ∃ q q' : Program Name, Program.intern p t = .ok (q, t) ∧ Program.intern p t' = .ok (q', t') ∧
      (((Interpreter.new t).run q).1 = .error ⟨.alreadyBound "x", [3]⟩ ∧
        ((Interpreter.new t').run q').1 = .error ⟨.alreadyBound "x", [3]⟩) ∧
      ((Interpreter.new t).run q).2.env.lookupText t "x" = some (.list 0 [.nil]) ∧
      ((Interpreter.new t').run q').2.env.lookupText t' "x" = some (.list 0 [.nil]) := by
  intro body p t t'
  have h : t.Share t' (Stmt.allNames p) := by decide
  obtain ⟨q, q', hq, hq', hr, -, henv, -⟩ :=
    interning_order_irrelevant h .interpret .waray (.terminal "") none {}
  have hfirst : ((Interpreter.new t).run q).1 = .error ⟨.alreadyBound "x", [3]⟩ ∧
      ((Interpreter.new t).run q).2.env.lookupText t "x" = some (.list 0 [.nil]) := by
    cases hq.symm.trans (Program.intern_eq fun s hs => (h s hs).1)
    exact ⟨rfl, rfl⟩
  have hsecond := henv "x"
  rw [hfirst.2] at hsecond
  exact ⟨rfl, rfl, h, q, q', hq, hq', ⟨hfirst.1, hr ▸ hfirst.1⟩, hfirst.2, hsecond⟩

end BindOnce

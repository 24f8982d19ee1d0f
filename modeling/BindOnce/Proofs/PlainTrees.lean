import BindOnce.Interpreter
import BindOnce.Proofs.HandInHand

/-!
# Parentheses and lines do not matter

How a program is laid out on lines and where it has parentheses beyond those that shape its tree
makes no difference to what it does.  That is less clear than it sounds, since an expression in
parentheses still counts as the mention of a name: it can be bound, and it is looked up late.

A *plain* tree is one without parentheses, and with something kept of the lines: all of it, or
nothing.  Two programs with the same plain tree go hand in hand.  The numbers of declarations may
differ too, as long as they tell the declarations apart in the same way.

## What is here

* `Expr.plain`, `Stmt.plain`, `Func.plain` — plain trees.
* `Value.plain`, `Cause.plain`, `Failure.plain` — what evaluation results in, with plain trees and
  with what is kept of the lines.
* `Matching.plain` — things that are the same when they are plain stand for each other.
* `run_of_plain_eq` — programs with the same plain tree do the same.
* `parentheses_and_lines_transparent` — the two cases that matter: nothing is kept of the lines, and
  all of it is.
-/

set_option autoImplicit false
namespace BindOnce

/-! ## Plain trees -/

section Plain

variable {ν : Type} (line : Line → Line) (node : Nat → Nat)

/-- The identifier with what is kept of its line. -/
def Identifier.plain (ident : Identifier ν) : Identifier ν := ⟨ident.name, line ident.line⟩

/-- The token with what is kept of its line. -/
def Token.plain (op : Token) : Token := ⟨op.kind, line op.line⟩

mutual

/-- The expression without parentheses, with what is kept of the lines. -/
def Expr.plain : Expr ν → Expr ν
  | .literal value => .literal value
  | .variable ident => .variable (ident.plain line)
  | .group inner => inner.plain
  | .binary left op right => .binary left.plain (op.plain line) right.plain
  | .unary op operand => .unary (op.plain line) operand.plain
  | .call callee args => .call (callee.plain line) (Expr.allPlain args)
  | .list elements => .list (Expr.allPlain elements)

/-- The expressions without parentheses, with what is kept of the lines. -/
def Expr.allPlain : List (Expr ν) → List (Expr ν)
  | [] => []
  | e :: es => e.plain :: Expr.allPlain es

end

mutual

/-- The statement without parentheses, with what is kept of the lines, and other node numbers. -/
def Stmt.plain : Stmt ν → Stmt ν
  | .print expr => .print (expr.plain line)
  | .expression expr => .expression (expr.plain line)
  | .conditional condition thenBlock none =>
    .conditional (condition.plain line) (Stmt.allPlain thenBlock) none
  | .conditional condition thenBlock (some elseBlock) =>
    .conditional (condition.plain line) (Stmt.allPlain thenBlock) (some (Stmt.allPlain elseBlock))
  | .function number name params body =>
    .function (node number) (name.plain line) (params.map (·.plain line)) (Stmt.allPlain body)
  | .return expr => .return (expr.plain line)

/-- The statements without parentheses, with what is kept of the lines, and other node numbers. -/
def Stmt.allPlain : List (Stmt ν) → List (Stmt ν)
  | [] => []
  | s :: ss => s.plain :: Stmt.allPlain ss

end

theorem Expr.allPlain_eq_map (es : List (Expr ν)) : allPlain line es = es.map (plain line) := by
  induction es with
  | nil => rfl
  | cons e es ih => rw [allPlain, ih, List.map_cons]

theorem Stmt.allPlain_eq_map (ss : List (Stmt ν)) :
    allPlain line node ss = ss.map (plain line node) := by
  induction ss with
  | nil => rfl
  | cons s ss ih => rw [allPlain, ih, List.map_cons]

/-- The parentheses around an expression are not part of the plain one. -/
theorem Expr.plain_bare : ∀ e : Expr ν, e.bare.plain line = e.plain line
  | .group inner => by rw [bare, plain, plain_bare inner]
  | .literal _ | .variable _ | .binary .. | .unary .. | .call .. | .list _ => rfl

end Plain

/-- The function with a plain body, and another node number. -/
def Func.plain (line : Line → Line) (node : Nat → Nat) (f : Func) : Func where
  decl :=
    { node := node f.decl.node
      name := f.decl.name.plain line
      params := f.decl.params.map (·.plain line)
      body := Stmt.allPlain line node f.decl.body }
  name := f.name

/-- The value, with plain functions. -/
def Value.plain (line : Line → Line) (node : Nat → Nat) (v : Value) : Value :=
  v.map id (Func.plain line node)

/-- The cause, with what is kept of the line of a call that was refused. -/
def Cause.plain (line : Line → Line) : Cause → Cause
  | .recursionLimit depth function l => .recursionLimit depth function (line l)
  | cause => cause

/-- The failure, with what is kept of the lines. -/
def Failure.plain (line : Line → Line) (e : Failure) : Failure :=
  ⟨e.cause.plain line, e.trail.map line⟩

/-! ## Plain trees have the same parts -/

/-- Things that are the same when they are plain stand for each other.  Node numbers are changed on
the one side only. -/
def Matching.plain (line : Line → Line) (node : Nat → Nat) : Matching where
  line l l' := line l = line l'
  func f f' := f.plain line node = f'.plain line id
  expr e e' := e.plain line = e'.plain line
  stmt s s' := s.plain line node = s'.plain line id

section Parts

variable {line : Line → Line} {node : Nat → Nat}

theorem forall₂_of_map_eq {α β : Type} {f g : α → β} {as as' : List α} (h : as.map f = as'.map g) :
    List.Forall₂ (fun a a' => f a = g a') as as' := by
  have hmap : List.Forall₂ Eq (as.map f) (as'.map g) := by rw [List.forall₂_eq_eq_eq, h]
  exact List.forall₂_map_left_iff.1 (List.forall₂_map_right_iff.1 hmap)

theorem Expr.forall₂_of_allPlain_eq {es es' : List (Expr Name)}
    (h : allPlain line es = allPlain line es') :
    List.Forall₂ (Matching.plain line node).expr es es' := by
  rw [allPlain_eq_map, allPlain_eq_map] at h
  exact forall₂_of_map_eq h

theorem Stmt.forall₂_of_allPlain_eq {ss ss' : List (Stmt Name)}
    (h : allPlain line node ss = allPlain line id ss') :
    List.Forall₂ (Matching.plain line node).stmt ss ss' := by
  rw [allPlain_eq_map, allPlain_eq_map] at h
  exact forall₂_of_map_eq h

theorem Identifier.matches_of_plain_eq {ident ident' : Identifier Name}
    (h : ident.plain line = ident'.plain line) :
    Identifier.Matches (.plain line node) ident ident' :=
  ⟨(Identifier.mk.inj h).1, (Identifier.mk.inj h).2⟩

theorem Identifier.forall₂_of_plain_eq {idents idents' : List (Identifier Name)}
    (h : idents.map (·.plain line) = idents'.map (·.plain line)) :
    List.Forall₂ (Identifier.Matches (.plain line node)) idents idents' :=
  (forall₂_of_map_eq h).imp fun _ _ => Identifier.matches_of_plain_eq

theorem Token.matches_of_plain_eq {op op' : Token} (h : op.plain line = op'.plain line) :
    Token.Matches (.plain line node) op op' :=
  ⟨(Token.mk.inj h).1, (Token.mk.inj h).2⟩

/-- Outside parentheses, expressions that are plainly the same are built alike. -/
theorem Expr.partsMatch_of_plain_eq {e e' : Expr Name} (h : e.plain line = e'.plain line)
    (he : ∀ inner, e ≠ .group inner) (he' : ∀ inner, e' ≠ .group inner) :
    Expr.PartsMatch (.plain line node) e e' := by
  cases e with
  | group inner => exact absurd rfl (he inner)
  | literal value =>
    cases e' with
    | group inner => exact absurd rfl (he' inner)
    | literal value' =>
      cases h
      exact .literal value
    | _ => cases h
  | «variable» ident =>
    cases e' with
    | group inner => exact absurd rfl (he' inner)
    | «variable» ident' =>
      injection h with h
      exact .variable (Identifier.matches_of_plain_eq h)
    | _ => cases h
  | binary left op right =>
    cases e' with
    | group inner => exact absurd rfl (he' inner)
    | binary left' op' right' =>
      injection h with hleft hop hright
      exact .binary hleft (Token.matches_of_plain_eq hop) hright
    | _ => cases h
  | unary op operand =>
    cases e' with
    | group inner => exact absurd rfl (he' inner)
    | unary op' operand' =>
      injection h with hop hoperand
      exact .unary (Token.matches_of_plain_eq hop) hoperand
    | _ => cases h
  | call callee args =>
    cases e' with
    | group inner => exact absurd rfl (he' inner)
    | call callee' args' =>
      injection h with hcallee hargs
      exact .call (Identifier.matches_of_plain_eq hcallee) (forall₂_of_allPlain_eq hargs)
    | _ => cases h
  | list elements =>
    cases e' with
    | group inner => exact absurd rfl (he' inner)
    | list elements' =>
      injection h with helements
      exact .list (forall₂_of_allPlain_eq helements)
    | _ => cases h

/-- Functions are plainly the same if their declarations are. -/
theorem Func.plain_eq_of_decl {node' : Nat → Nat} {number number' : Nat}
    {name name' : Identifier Name} {params params' : List (Identifier Name)}
    {body body' : List (Stmt Name)} (text : String)
    (h : (Stmt.function number name params body).plain line node =
      (Stmt.function number' name' params' body').plain line node') :
    Func.plain line node ⟨⟨number, name, params, body⟩, text⟩ =
      Func.plain line node' ⟨⟨number', name', params', body'⟩, text⟩ := by
  injection h with hnumber hname hparams hbody
  rw [Func.plain, Func.plain, hnumber, hname, hparams, hbody]

theorem Stmt.partsMatch_of_plain_eq (interner : Interner) {s s' : Stmt Name}
    (h : s.plain line node = s'.plain line id) :
    Stmt.PartsMatch (.plain line node) interner interner s s' := by
  cases s with
  | print e =>
    cases s' with
    | print e' => exact .print (Stmt.print.inj h)
    | conditional _ _ other => cases other <;> cases h
    | _ => cases h
  | expression e =>
    cases s' with
    | expression e' => exact .expression (Stmt.expression.inj h)
    | conditional _ _ other => cases other <;> cases h
    | _ => cases h
  | conditional c block other =>
    cases other with
    | none =>
      cases s' with
      | conditional c' block' other' =>
        cases other' with
        | none =>
          injection h with hc hblock _
          exact .conditional hc (forall₂_of_allPlain_eq hblock)
        | some other' =>
          injection h with _ _ hother
          cases hother
      | _ => cases h
    | some other =>
      cases s' with
      | conditional c' block' other' =>
        cases other' with
        | none =>
          injection h with _ _ hother
          cases hother
        | some other' =>
          injection h with hc hblock hother
          exact .conditionalElse hc (forall₂_of_allPlain_eq hblock)
            (forall₂_of_allPlain_eq (Option.some.inj hother))
      | _ => cases h
  | function number name params body =>
    cases s' with
    | function number' name' params' body' =>
      -- the declared names are equal, so both functions have the same text for a name
      have hname : name.name = name'.name := by
        injection h with _ hname _ _
        exact (Identifier.mk.inj hname).1
      refine .function hname ?_
      rw [← hname]
      exact Func.plain_eq_of_decl _ h
    | conditional _ _ other => cases other <;> cases h
    | _ => cases h
  | «return» e =>
    cases s' with
    | «return» e' => exact .return (Stmt.return.inj h)
    | conditional _ _ other => cases other <;> cases h
    | _ => cases h

/-- **Evaluation cannot tell a tree from its plain one**, if different declarations keep different
node numbers. -/
theorem Matching.plain_lawful (interner : Interner) (hnode : Function.Injective node) :
    (plain line node).Lawful interner interner where
  func h := by
    obtain ⟨hdecl, hname⟩ := Func.mk.inj h
    obtain ⟨-, -, hparams, hbody⟩ := FunctionDecl.mk.inj hdecl
    exact ⟨hname, Identifier.forall₂_of_plain_eq hparams, Stmt.forall₂_of_allPlain_eq hbody⟩
  func_same {f f' g g'} hf hg := by
    have hf : node f.decl.node = f'.decl.node := congrArg (fun f : Func => f.decl.node) hf
    have hg : node g.decl.node = g'.decl.node := congrArg (fun f : Func => f.decl.node) hg
    rw [Func.same, Func.same, ← hf, ← hg, Bool.eq_iff_iff, beq_iff_eq, beq_iff_eq, hnode.eq_iff]
  expr {e e'} h := by
    refine Expr.partsMatch_of_plain_eq ?_ (fun _ => Expr.bare_ne_group _ _) fun _ =>
      Expr.bare_ne_group _ _
    rw [Expr.plain_bare, Expr.plain_bare]
    exact h
  stmt := Stmt.partsMatch_of_plain_eq interner

/-! ## Matching, when everything is made plain -/

theorem Cause.Matches.plain_eq {cause cause' : Cause}
    (h : Cause.Matches (.plain line node) cause cause') : cause.plain line = cause'.plain line := by
  cases h with
  | same _ => rfl
  | recursionLimit hline =>
    have hline : line _ = line _ := hline
    rw [Cause.plain, Cause.plain, hline]

theorem Failure.Matches.plain_eq {e e' : Failure} (h : Failure.Matches (.plain line node) e e') :
    e.plain line = e'.plain line := by
  have htrail : List.Forall₂ Eq (e.trail.map line) (e'.trail.map line) :=
    List.forall₂_map_left_iff.2 (List.forall₂_map_right_iff.2 h.trail)
  rw [List.forall₂_eq_eq_eq] at htrail
  rw [Failure.plain, Failure.plain, h.cause.plain_eq, htrail]

theorem ResultsMatch.plain_eq {R : Unit → Unit → Prop} {r r' : Except Failure Unit}
    (h : ResultsMatch (.plain line node) R r r') :
    r.mapError (Failure.plain line) = r'.mapError (Failure.plain line) := by
  cases h with
  | ok _ => rfl
  | error he => rw [Except.mapError, Except.mapError, he.plain_eq]

theorem Value.Matches.plain_eq {v v' : Value} (h : Value.Matches (.plain line node) v v') :
    v.plain line node = v'.plain line id :=
  h.map_eq (fun _ _ h => h) fun _ _ h => h

theorem Env.Matches.plain_eq {env env' : Env} (h : Env.Matches (.plain line node) env env')
    (x : Name) :
    (env.lookup x).map (Value.plain line node) = (env'.lookup x).map (Value.plain line id) := by
  have hlookup := h x x rfl
  generalize env.lookup x = found, env'.lookup x = found' at hlookup ⊢
  cases hlookup with
  | none => rfl
  | some hv => rw [Option.map_some, Option.map_some, hv.plain_eq]

/-! ## Programs with the same plain tree -/

/-- **Programs with the same plain tree do the same**, from the start.  The results and what names
are bound to are plainly the same. -/
theorem run_of_plain_eq (hnode : Function.Injective node) (interner : Interner) (mode : Mode)
    (lang : Lang) (channel : Channel) (limit : Option Nat) (lists : ListSupply)
    {program program' : Program Name}
    (h : Stmt.allPlain line node program = Stmt.allPlain line id program') :
    let i := Interpreter.new interner mode lang .empty channel limit lists
    (i.run program).1.mapError (Failure.plain line) =
        (i.run program').1.mapError (Failure.plain line) ∧
      (i.run program).2.channel = (i.run program').2.channel ∧
      ∀ x : Name, ((i.run program).2.env.lookup x).map (Value.plain line node) =
        ((i.run program').2.env.lookup x).map (Value.plain line id) := by
  intro i
  have hs : State.Matches (.plain line node) i.state i.state := ⟨.empty, rfl, rfl, rfl, rfl⟩
  have hprogram : Task.Matches (.plain line node) (.program program) (.program program') :=
    .program (Stmt.forall₂_of_allPlain_eq h)
  obtain ⟨hr, ht⟩ := hprogram.hand_in_hand (Matching.plain_lawful interner hnode) hs
  exact ⟨hr.plain_eq, ht.channel, ht.env.plain_eq⟩

end Parts

/-- Results that are plainly the same are both good or both failures. -/
theorem Failure.plain_eq_cases {line : Line → Line} {r r' : Except Failure Unit}
    (h : r.mapError (plain line) = r'.mapError (plain line)) :
    (r = .ok () ∧ r' = .ok ()) ∨
      ∃ e e' : Failure, r = .error e ∧ r' = .error e' ∧ e.plain line = e'.plain line := by
  cases r with
  | ok _ =>
    cases r' with
    | ok _ => exact .inl ⟨rfl, rfl⟩
    | error _ => cases h
  | error e =>
    cases r' with
    | ok _ => cases h
    | error e' => exact .inr ⟨e, e', rfl, rfl, Except.error.inj h⟩

theorem Failure.plain_id (e : Failure) : e.plain id = e := by
  obtain ⟨cause, trail⟩ := e
  rw [plain, List.map_id]
  cases cause <;> rfl

/-- **Parentheses and lines do not matter.**  Two programs that are the same when parentheses and
lines are left out print the same, and both succeed or both fail.  Names are bound to the same
values, with corresponding functions; the failures have the same cause, except for the line of a
call that was refused, and have passed equally many operators.  If only parentheses are different,
the failures are the same. -/
theorem parentheses_and_lines_transparent (interner : Interner) (mode : Mode) (lang : Lang)
    (channel : Channel) (limit : Option Nat) (lists : ListSupply) {program program' : Program Name}
    {node : Nat → Nat} (hnode : Function.Injective node) :
    let i := Interpreter.new interner mode lang .empty channel limit lists
    let first := i.run program
    let second := i.run program'
    let lineless : Line → Line := fun _ => 0
    (Stmt.allPlain lineless node program = Stmt.allPlain lineless id program' →
      first.2.channel = second.2.channel ∧
      (∀ x : Name, (first.2.env.lookup x).map (Value.plain lineless node) =
        (second.2.env.lookup x).map (Value.plain lineless id)) ∧
      ((first.1 = .ok () ∧ second.1 = .ok ()) ∨
        ∃ e e' : Failure, first.1 = .error e ∧ second.1 = .error e' ∧
          e.cause.plain lineless = e'.cause.plain lineless ∧ e.lines.length = e'.lines.length)) ∧
    (Stmt.allPlain id node program = Stmt.allPlain id id program' →
      first.2.channel = second.2.channel ∧
      (∀ x : Name, (first.2.env.lookup x).map (Value.plain id node) =
        (second.2.env.lookup x).map (Value.plain id id)) ∧
      first.1 = second.1) := by
  intro i first second lineless
  refine ⟨fun h => ?_, fun h => ?_⟩
  · obtain ⟨hr, hchannel, henv⟩ := run_of_plain_eq hnode interner mode lang channel limit lists h
    refine ⟨hchannel, henv, ?_⟩
    rcases Failure.plain_eq_cases hr with hok | ⟨e, e', he, he', heq⟩
    · exact .inl hok
    · obtain ⟨hcause, htrail⟩ := Failure.mk.inj heq
      refine .inr ⟨e, e', he, he', hcause, ?_⟩
      have hlength := congrArg List.length htrail
      rw [List.length_map, List.length_map] at hlength
      rw [Failure.lines, Failure.lines, List.length_reverse, List.length_reverse, hlength]
  · obtain ⟨hr, hchannel, henv⟩ := run_of_plain_eq hnode interner mode lang channel limit lists h
    refine ⟨hchannel, henv, ?_⟩
    rcases Failure.plain_eq_cases hr with ⟨hok, hok'⟩ | ⟨e, e', he, he', heq⟩
    · exact hok.trans hok'.symm
    · rw [Failure.plain_id, Failure.plain_id] at heq
      exact he.trans (heq ▸ he'.symm)

/-- A target and a function in parentheses, and a layout on other lines. -/
theorem parentheses_and_lines_transparent_grouped :
    let body : List (Stmt Name) := [.return (.group (.variable ⟨⟨2⟩, 1⟩))]
    let body' : List (Stmt Name) := [.return (.variable ⟨⟨2⟩, 8⟩)]
    let program : Program Name :=
      [.function 0 ⟨⟨1⟩, 1⟩ [⟨⟨2⟩, 1⟩] body,
        .expression (.binary (.group (.variable ⟨⟨3⟩, 1⟩)) ⟨.equal, 1⟩
          (.binary (.literal (.string "s")) ⟨.pipe, 1⟩ (.group (.variable ⟨⟨1⟩, 1⟩)))),
        .print (.binary (.variable ⟨⟨3⟩, 1⟩) ⟨.slash, 1⟩ (.literal .nil))]
    let program' : Program Name :=
      [.function 5 ⟨⟨1⟩, 7⟩ [⟨⟨2⟩, 7⟩] body',
        .expression (.binary (.variable ⟨⟨3⟩, 9⟩) ⟨.equal, 9⟩
          (.binary (.literal (.string "s")) ⟨.pipe, 9⟩ (.variable ⟨⟨1⟩, 9⟩))),
        .print (.group (.binary (.variable ⟨⟨3⟩, 10⟩) ⟨.slash, 10⟩ (.literal .nil)))]
    let i := Interpreter.new .new .interpret .waray .empty (.buffer "") none
    Function.Injective (· + 5) ∧
      Stmt.allPlain (fun _ => 0) (· + 5) program = Stmt.allPlain (fun _ => 0) id program' ∧
      (i.run program).2.env.lookup ⟨3⟩ = some (.string "s") ∧
      (i.run program').2.env.lookup ⟨3⟩ = some (.string "s") ∧
      (i.run program).2.channel = (i.run program').2.channel := by
  intro body body' program program' i
  have hnode : Function.Injective (· + 5) := fun _ _ => Nat.add_right_cancel
  have hplain : Stmt.allPlain (fun _ => 0) (· + 5) program =
      Stmt.allPlain (fun _ => 0) id program' := rfl
  have h := (parentheses_and_lines_transparent .new .interpret .waray (.buffer "") none {} hnode).1
    hplain
  exact ⟨hnode, hplain, rfl, rfl, h.1⟩

end BindOnce

import BindOnce.Proofs.HandInHand
import BindOnce.Proofs.SingleAssignment

/-!
# Looking up operands early

An operator evaluates both operands and looks them up then, so in `x + (x = 5)` the left operand is
five.  One could also look up the left operand before the right one is evaluated.  That would be
another language, but the difference shows in this one pattern only: the left operand is a variable,
and the right one binds it.  Programs without the pattern, here called *orderly*, do the same either
way.

The pattern can be seen in the tree.  Nothing else that the right operand does can bind the
variable: functions bind names in an environment of their own.  And since functions come out of the
program, a look at the tree also tells that no body which is ever entered has the pattern.

## What is here

* `Expr.earlyPlan`, `Planner.early` — the language with early look-ups.  All other plans and the
  rules are the same.
* `Expr.Orderly`, `Stmt.Orderly` — trees without the pattern, bodies of functions included.
* `Matching.orderly` — values and states that hold functions with orderly bodies only.
* `EndsUnder.transfer` — how to go from one planner to another.
* `early_lookup_agrees` — orderly programs do the same either way.
-/

set_option autoImplicit false
namespace BindOnce

/-! ## The language with early look-ups -/

/-- The plan of an expression.  An operator other than `=` looks up its left operand before it
evaluates the right one. -/
def Expr.earlyPlan (interner : Interner) : Expr Name → Plan Operand
  | .binary left op right =>
    if op.kind = .equal then (Expr.binary left op right).plan interner
    else .onLine op.line <| .ask (.expr left) fun l => .readEnv fun env =>
      .ask (.expr right) fun r => op.binaryPlan interner (.value (l.valueIn env)) r
  | e => e.plan interner

/-- The plan of a task, with early look-ups. -/
def Task.earlyPlan (interner : Interner) : {α : Type} → Task α → Plan α
  | _, .expr e => e.earlyPlan interner
  | _, task => task.plan interner

/-- The plans of the language with early look-ups. -/
def Planner.early (interner : Interner) : Planner := ⟨fun task => task.earlyPlan interner⟩

/-! ## Orderly programs -/

mutual

/-- No operator other than `=`, anywhere in the expression, has a variable on its left that its
right operand may bind. -/
def Expr.Orderly : Expr Name → Prop
  | .literal _ => True
  | .variable _ => True
  | .group inner => inner.Orderly
  | .binary left op right =>
    (op.kind ≠ .equal → ∀ ident, left.mentioned? = some ident → ident.name ∉ right.targets) ∧
      left.Orderly ∧ right.Orderly
  | .unary _ operand => operand.Orderly
  | .call _ args => Expr.AllOrderly args
  | .list elements => Expr.AllOrderly elements

/-- All the expressions are orderly. -/
def Expr.AllOrderly : List (Expr Name) → Prop
  | [] => True
  | e :: es => e.Orderly ∧ Expr.AllOrderly es

end

mutual

/-- All expressions in the statement are orderly, those in bodies of functions included. -/
def Stmt.Orderly : Stmt Name → Prop
  | .print expr => expr.Orderly
  | .expression expr => expr.Orderly
  | .conditional condition thenBlock none => condition.Orderly ∧ Stmt.AllOrderly thenBlock
  | .conditional condition thenBlock (some elseBlock) =>
    condition.Orderly ∧ Stmt.AllOrderly thenBlock ∧ Stmt.AllOrderly elseBlock
  | .function _ _ _ body => Stmt.AllOrderly body
  | .return expr => expr.Orderly

/-- All the statements are orderly. -/
def Stmt.AllOrderly : List (Stmt Name) → Prop
  | [] => True
  | s :: ss => s.Orderly ∧ Stmt.AllOrderly ss

end

/-- Everything stands for itself, if what there is of it to evaluate is orderly. -/
def Matching.orderly : Matching where
  func f f' := f = f' ∧ Stmt.AllOrderly f.decl.body
  expr e e' := e = e' ∧ e.Orderly
  stmt s s' := s = s' ∧ s.Orderly

theorem Expr.forall₂_of_allOrderly :
    ∀ {es : List (Expr Name)}, AllOrderly es → List.Forall₂ Matching.orderly.expr es es
  | [], _ => .nil
  | _ :: _, h => .cons ⟨rfl, h.1⟩ (forall₂_of_allOrderly h.2)

theorem Stmt.forall₂_of_allOrderly :
    ∀ {ss : List (Stmt Name)}, AllOrderly ss → List.Forall₂ Matching.orderly.stmt ss ss
  | [], _ => .nil
  | _ :: _, h => .cons ⟨rfl, h.1⟩ (forall₂_of_allOrderly h.2)

theorem Expr.partsMatch_orderly :
    ∀ e : Expr Name, e.Orderly → Expr.PartsMatch .orderly e.bare e.bare
  | .group inner, h => partsMatch_orderly inner h
  | .literal value, _ => .literal value
  | .variable _, _ => .variable ⟨rfl, rfl⟩
  | .binary .., h => .binary ⟨rfl, h.2.1⟩ ⟨rfl, rfl⟩ ⟨rfl, h.2.2⟩
  | .unary .., h => .unary ⟨rfl, rfl⟩ ⟨rfl, h⟩
  | .call .., h => .call ⟨rfl, rfl⟩ (forall₂_of_allOrderly h)
  | .list _, h => .list (forall₂_of_allOrderly h)

theorem Stmt.partsMatch_orderly (interner : Interner) {s : Stmt Name} (h : s.Orderly) :
    Stmt.PartsMatch .orderly interner interner s s := by
  cases s with
  | print e => exact .print ⟨rfl, h⟩
  | expression e => exact .expression ⟨rfl, h⟩
  | conditional c block other =>
    cases other with
    | none => exact .conditional ⟨rfl, h.1⟩ (forall₂_of_allOrderly h.2)
    | some other =>
      exact .conditionalElse ⟨rfl, h.1⟩ (forall₂_of_allOrderly h.2.1)
        (forall₂_of_allOrderly h.2.2)
  | function node name params body => exact .function rfl ⟨rfl, h⟩
  | «return» e => exact .return ⟨rfl, h⟩

theorem Matching.orderly_lawful (interner : Interner) : orderly.Lawful interner interner where
  func := by
    rintro f _ ⟨rfl, h⟩
    exact ⟨rfl, List.forall₂_same.2 fun _ _ => ⟨rfl, rfl⟩, Stmt.forall₂_of_allOrderly h⟩
  func_same := by
    rintro f _ g _ ⟨rfl, -⟩ ⟨rfl, -⟩
    rfl
  expr := by
    rintro e _ ⟨rfl, h⟩
    exact e.partsMatch_orderly h
  stmt := by
    rintro s _ ⟨rfl, h⟩
    exact Stmt.partsMatch_orderly interner h

/-! ## The plans of orderly tasks -/

section Plans

variable {α : Type} {task : Task α}

/-- The plan of an orderly task takes orderly steps. -/
theorem Task.Matches.orderly_plan (interner : Interner) (h : Task.Matches .orderly task task) :
    Plan.Matches .orderly (Matching.orderly.result task) (task.plan interner)
      (task.plan interner) := by
  have hplan := h.plan (Matching.orderly_lawful interner)
  cases h with
  | @expr e _ he =>
    cases e with
    | group inner => exact .ask (.expr ⟨rfl, he.2⟩) fun _ _ ho => .ok ho
    | _ => exact hplan
  | _ => exact hplan

/-- So does its plan with early look-ups. -/
theorem Task.Matches.orderly_earlyPlan (interner : Interner) (h : Task.Matches .orderly task task) :
    Plan.Matches .orderly (Matching.orderly.result task) (task.earlyPlan interner)
      (task.earlyPlan interner) := by
  have hplan := h.orderly_plan interner
  cases h with
  | @expr e _ he =>
    cases e with
    | binary left op right =>
      obtain ⟨-, -, hleft, hright⟩ := he
      rw [earlyPlan, Expr.earlyPlan]
      split
      · exact hplan
      · refine .onLine rfl (.ask (.expr ⟨rfl, hleft⟩) fun l l' hl => .readEnv fun env env' henv =>
          .ask (.expr ⟨rfl, hright⟩) fun r r' hr => ?_)
        exact Token.binaryPlan_matches (Matching.orderly_lawful interner) ⟨rfl, rfl⟩
          (.value (henv.valueIn hl)) hr
    | _ => exact hplan
  | _ => exact hplan

end Plans

/-! ## From one planner to another -/

/-- The second planner does the same as carrying out the plans of the first one would, for tasks and
in states where everything stands for itself, and what does so before does so after. -/
def Planner.Follows (M : Matching) (P Q : Planner) : Prop :=
  ∀ {α : Type} (task : Task α) {s t : State} {r : Except Failure α},
    Task.Matches M task task → State.Matches M s s → EndsUnder Q (P.plan task) s r t →
    EndsUnder Q (Q.plan task) s r t ∧ ResultsMatch M (M.result task) r r ∧ State.Matches M t t

section Transfer

variable {M : Matching} {interner : Interner} {P Q : Planner} {α : Type} {s t : State}
  {r : Except Failure α}

/-- **What ends by the plans of one planner ends in the same way by those of another**, as far as
everything stands for itself.  The induction is on how the plan ends. -/
theorem EndsUnder.transfer (hM : M.Lawful interner interner)
    (hplan : ∀ {β : Type} (task : Task β), Task.Matches M task task →
      Plan.Matches M (M.result task) (P.plan task) (P.plan task))
    (hfollows : Planner.Follows M P Q) {p : Plan α} {R : α → α → Prop}
    (h : EndsUnder P p s r t) (hp : Plan.Matches M R p p) (hs : State.Matches M s s) :
    EndsUnder Q p s r t := by
  induction h with
  | done => exact .done
  | readEnv _ ih => cases hp with | readEnv hnext => exact .readEnv (ih (hnext _ _ hs.env) hs)
  | makeList _ ih =>
    cases hp with
    | makeList hitems hnext =>
      obtain ⟨hlist, hs⟩ := hs.makeList hM hitems
      exact .makeList (ih (hnext _ _ hlist) hs)
  | printLine _ ih =>
    cases hp with | printLine hnext => exact .printLine (ih hnext (hs.printLine hM _))
  | bindOr hb _ ih =>
    cases hp with
    | bindOr _ hx hv hnext => exact .bindOr hb (ih hnext (hs.bind hM hx hv hb hb))
  | bound hb => exact .bound hb
  | ask _ _ ih₁ ih₂ =>
    cases hp with
    | ask htask hnext =>
      -- the induction is about the plan of the first planner; `hfollows` replaces it
      obtain ⟨h₁, hr, ht⟩ := hfollows _ htask hs (ih₁ (hplan _ htask) hs)
      cases hr with
      | ok hb => exact .ask h₁ (ih₂ (hnext _ _ hb) ht)
  | askFails _ ih =>
    cases hp with
    | ask htask _ => exact .askFails (hfollows _ htask hs (ih (hplan _ htask) hs)).1
  | enter hpush _ _ ih₁ ih₂ =>
    cases hp with
    | enter hf hargs _ hnext =>
      have hbody := Task.Matches.body (hM.func hf).body
      have hs₁ := hs.entered hM hf hargs hpush hpush
      obtain ⟨h₁, hr, ht⟩ := hfollows _ hbody hs₁ (ih₁ (hplan _ hbody) hs₁)
      cases hr with
      | ok hv => exact .enter hpush h₁ (ih₂ (hnext _ _ hv) (hs.left ht))
  | enterFails hpush _ ih =>
    cases hp with
    | enter hf hargs _ _ =>
      have hbody := Task.Matches.body (hM.func hf).body
      have hs₁ := hs.entered hM hf hargs hpush hpush
      exact .enterFails hpush (hfollows _ hbody hs₁ (ih (hplan _ hbody) hs₁)).1
  | refused hpush => exact .refused hpush
  | onLine _ ih => cases hp with | onLine _ hrest => exact .onLine (ih hrest hs)
  | onLineFails _ ih => cases hp with | onLine _ hrest => exact .onLineFails (ih hrest hs)

end Transfer

/-! ## Early and late look-ups -/

section EarlyLate

variable {interner : Interner} {α : Type} {s t : State}

/-- The values of both operands are all that an operator other than `=` needs. -/
theorem EndsUnder.binaryPlan_of_valueIn_eq {Q : Planner} {op : Token} (hop : op.kind ≠ .equal)
    {left left' right : Operand} (hvalue : left.valueIn s.env = left'.valueIn s.env)
    {r : Except Failure Operand} (h : EndsUnder Q (op.binaryPlan interner left right) s r t) :
    EndsUnder Q (op.binaryPlan interner left' right) s r t := by
  unfold Token.binaryPlan at h ⊢
  split at h
  · exact h
  · exact absurd (BinaryOp.ofToken?_eq_assign_iff.1 ‹_›) hop
  · cases h with
    | readEnv h => exact .readEnv (hvalue ▸ h)

theorem EndsUnder.onLine_of_rest {Q : Planner} {line : Line} {p q : Plan α} {r : Except Failure α}
    (hrest : ∀ r : Except Failure α, EndsUnder Q p s r t → EndsUnder Q q s r t)
    (h : EndsUnder Q (.onLine line p) s r t) : EndsUnder Q (.onLine line q) s r t := by
  cases h with
  | onLine h => exact .onLine (hrest _ h)
  | onLineFails h => exact .onLineFails (hrest _ h)

/-- For an expression it makes no difference when operands are looked up, if the right operand of an
operator leaves what the left one is looked up as. -/
theorem EndsUnder.earlyPlan_iff {Q : Planner} {e : Expr Name} {r : Except Failure Operand}
    (hkept : ∀ (left : Expr Name) (op : Token) (right : Expr Name), e = .binary left op right →
      op.kind ≠ .equal → ∀ (l r : Operand) (s₁ s₂ : State),
        EndsUnder Q (Q.plan (.expr left)) s (.ok l) s₁ →
        EndsUnder Q (Q.plan (.expr right)) s₁ (.ok r) s₂ →
        l.valueIn s₂.env = l.valueIn s₁.env) :
    EndsUnder Q (e.earlyPlan interner) s r t ↔ EndsUnder Q (e.plan interner) s r t := by
  cases e with
  | binary left op right =>
    rw [Expr.earlyPlan, Expr.plan]
    split
    · exact Iff.rfl
    rename_i hop
    have hkept := hkept left op right rfl hop
    constructor
    · refine onLine_of_rest fun r h => ?_
      cases h with
      | ask hleft h =>
        cases h with
        | readEnv h =>
          refine .ask hleft ?_
          cases h with
          | ask hright h =>
            exact .ask hright (h.binaryPlan_of_valueIn_eq hop (hkept _ _ _ _ hleft hright).symm)
          | askFails hright => exact .askFails hright
      | askFails hleft => exact .askFails hleft
    · refine onLine_of_rest fun r h => ?_
      cases h with
      | @ask _ _ _ _ _ s₁ _ l _ hleft h =>
        refine .ask hleft (.readEnv ?_)
        cases h with
        | @ask _ _ _ _ _ s₂ _ r _ hright h =>
          have hvalue : l.valueIn s₂.env = (Operand.value (l.valueIn s₁.env)).valueIn s₂.env :=
            hkept l r s₁ s₂ hleft hright
          exact .ask hright (h.binaryPlan_of_valueIn_eq hop hvalue)
        | askFails hright => exact .askFails hright
      | askFails hleft => exact .askFails hleft
  | _ => exact Iff.rfl

/-- What the right operand does not bind is looked up as before. -/
theorem Ends.valueIn_eq {left right : Expr Name}
    (hfree : ∀ ident, left.mentioned? = some ident → ident.name ∉ right.targets) {l r : Operand}
    {s₁ s₂ : State} (hleft : Ends interner (left.plan interner) s (.ok l) s₁)
    (hright : Ends interner (right.plan interner) s₁ (.ok r) s₂) :
    l.valueIn s₂.env = l.valueIn s₁.env := by
  cases l with
  | value v => rfl
  | mention ident =>
    have hgrows : Env.Grows (· ∈ right.targets) s₁.env s₂.env :=
      hright.env_grows ((Task.expr right).all_plan interner) (fun _ ht _ hx => ht.2 hx) fun _ h => h
    have hlookup := hgrows.lookup_eq (hfree ident (Ends.mentioned?_eq left hleft))
    rw [Operand.valueIn, Operand.valueIn, Env.value, Env.value, hlookup]

/-- What is orderly before an orderly task is evaluated is so afterwards. -/
theorem Ends.orderly {task : Task α} (htask : Task.Matches .orderly task task)
    (hs : State.Matches .orderly s s) {r : Except Failure α}
    (h : Ends interner (task.plan interner) s r t) :
    ResultsMatch .orderly (Matching.orderly.result task) r r ∧ State.Matches .orderly t t := by
  have hend := htask.hand_in_hand (Matching.orderly_lawful interner) hs
  rw [Ends.iff_run.1 h] at hend
  exact hend

theorem Planner.early_follows_late :
    Planner.Follows .orderly (.early interner) (.late interner) := by
  intro α task s t r htask hs h
  suffices hlate : EndsUnder (.late interner) (task.plan interner) s r t from
    ⟨hlate, hlate.ends.orderly htask hs⟩
  cases htask with
  | expr he =>
    refine (EndsUnder.earlyPlan_iff ?_).1 h
    rintro left op right rfl hop l r s₁ s₂ hleft hright
    exact Ends.valueIn_eq (he.2.1 hop) hleft.ends hright.ends
  | _ => exact h

/-- What ends with early look-ups ends in the same way with late ones. -/
theorem EndsUnder.late_of_early {task : Task α} (htask : Task.Matches .orderly task task)
    (hs : State.Matches .orderly s s) {r : Except Failure α}
    (h : EndsUnder (.early interner) (task.earlyPlan interner) s r t) :
    Ends interner (task.plan interner) s r t := by
  have hlate := h.transfer (Matching.orderly_lawful interner)
    (fun _ htask => htask.orderly_earlyPlan interner) Planner.early_follows_late
    (htask.orderly_earlyPlan interner) hs
  exact (Planner.early_follows_late task htask hs hlate).1.ends

theorem Planner.late_follows_early :
    Planner.Follows .orderly (.late interner) (.early interner) := by
  intro α task s t r htask hs h
  suffices hearly : EndsUnder (.early interner) (task.earlyPlan interner) s r t from
    ⟨hearly, (hearly.late_of_early htask hs).orderly htask hs⟩
  cases htask with
  | expr he =>
    refine (EndsUnder.earlyPlan_iff ?_).2 h
    rintro left op right rfl hop l r s₁ s₂ hleft hright
    -- what operands leave untouched is known of late look-ups, so both are turned into these first
    obtain ⟨hfree, horderly, horderly'⟩ := he.2
    have hexpr : Task.Matches .orderly (.expr left) (.expr left) := .expr ⟨rfl, horderly⟩
    have hexpr' : Task.Matches .orderly (.expr right) (.expr right) := .expr ⟨rfl, horderly'⟩
    have hleft := EndsUnder.late_of_early hexpr hs hleft
    have hright := EndsUnder.late_of_early hexpr' (hleft.orderly hexpr hs).2 hright
    exact Ends.valueIn_eq (hfree hop) hleft hright
  | _ => exact h

/-- What ends with late look-ups ends in the same way with early ones. -/
theorem Ends.early {task : Task α} (htask : Task.Matches .orderly task task)
    (hs : State.Matches .orderly s s) {r : Except Failure α}
    (h : Ends interner (task.plan interner) s r t) :
    EndsUnder (.early interner) (task.earlyPlan interner) s r t := by
  have hearly := (EndsUnder.late_iff.2 h).transfer (Matching.orderly_lawful interner)
    (fun _ htask => htask.orderly_plan interner) Planner.late_follows_early
    (htask.orderly_plan interner) hs
  exact (Planner.late_follows_early task htask hs hearly).1

end EarlyLate

/-- **Early and late look-ups agree on orderly programs.**  Run from the empty environment, with
whatever limit on active calls, an orderly program ends with early look-ups in the way in which it
ends in the language, and in no other: with the same result or failure, the same output and the same
bindings. -/
theorem early_lookup_agrees (interner : Interner) (mode : Mode) (lang : Lang) (channel : Channel)
    (limit : Option Nat) (lists : ListSupply) {program : Program Name}
    (hprogram : Stmt.AllOrderly program) (r : Except Failure Unit) (t : State) :
    let i := Interpreter.new interner mode lang .empty channel limit lists
    EndsUnder (.early interner) ((Task.program program).earlyPlan interner) i.state r t ↔
      (i.run program).1 = r ∧ (i.run program).2.state = t := by
  intro i
  have htask : Task.Matches .orderly (.program program) (.program program) :=
    .program (Stmt.forall₂_of_allOrderly hprogram)
  have hs : State.Matches .orderly i.state i.state := ⟨.empty, rfl, rfl, rfl, rfl⟩
  constructor
  · intro h
    have hrun := Ends.iff_run.1 (h.late_of_early htask hs)
    exact ⟨congrArg Prod.fst hrun, congrArg Prod.snd hrun⟩
  · rintro ⟨rfl, rfl⟩
    exact Ends.early htask hs (Task.ends_run _ i.state)

/-- A function that binds what the left operand looks up, but in an environment of its own. -/
theorem early_lookup_agrees_across_call :
    let body : List (Stmt Name) :=
      [.return (.binary (.variable ⟨⟨2⟩, 1⟩) ⟨.equal, 1⟩ (.literal (.string "s")))]
    let program : Program Name :=
      [.function 0 ⟨⟨1⟩, 1⟩ [] body,
        .print (.binary (.group (.variable ⟨⟨2⟩, 2⟩)) ⟨.equalEqual, 2⟩ (.call ⟨⟨1⟩, 2⟩ []))]
    let i := Interpreter.new .new .interpret .waray .empty (.buffer "") (some 1)
    Stmt.AllOrderly program ∧
      EndsUnder (.early .new) ((Task.program program).earlyPlan .new) i.state (.ok ())
        (i.run program).2.state := by
  intro body program i
  have hprogram : Stmt.AllOrderly program := by
    simp [program, body, Stmt.AllOrderly, Stmt.Orderly, Expr.Orderly, Expr.AllOrderly,
      Expr.targets, Expr.allTargets]
  exact ⟨hprogram, (early_lookup_agrees .new .interpret .waray (.buffer "") (some 1) {} hprogram
    (.ok ()) (i.run program).2.state).2 ⟨rfl, rfl⟩⟩

end BindOnce

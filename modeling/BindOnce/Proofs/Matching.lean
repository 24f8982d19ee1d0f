import BindOnce.Proofs.Planner
import Mathlib.Data.List.Forall2

/-!
# When two evaluations match

Much of what can be said about the language compares two evaluations: of a program with and without
parentheses, of one call made twice.  They go hand in hand, but what they work on is not the same:
lists carry other numbers, functions other trees.  A `Matching` says which names, lines, lists,
functions and trees of the one evaluation stand for which of the other.  The relations of this file
carry that over to values, environments, states, failures and plans.

A matching has to be one that evaluation cannot see through (`Matching.Lawful`): it may take apart a
tree, compare names, compare the numbers of lists and the declarations of functions, and must find
the same on both sides.

## What is here

* `Matching` — what stands for what.
* `Value.Matches`, `Operand.Matches`, `Env.Matches`, `State.Matches` — what evaluation works on.
* `Cause.Matches`, `Failure.Matches`, `ResultsMatch` — how evaluation ends.
* `Task.Matches`, `Plan.Matches` — what is evaluated, and in which steps.
* `Matching.Lawful` — the laws.  For trees they only speak of one level: matching trees consist of
  matching parts.
-/

set_option autoImplicit false
namespace BindOnce

/-- What of one evaluation stands for what of another.  If nothing else is said, everything stands
for itself. -/
structure Matching where
  name : Name → Name → Prop := Eq
  line : Line → Line → Prop := Eq
  list : ListId → ListId → Prop := Eq
  /-- Numbers for lists that are handed out at the same moment. -/
  fresh : ListId → ListId → Prop := Eq
  func : Func → Func → Prop := Eq
  expr : Expr Name → Expr Name → Prop := Eq
  stmt : Stmt Name → Stmt Name → Prop := Eq
  channel : Channel → Channel → Prop := Eq

/-! ## Values, environments and states -/

/-- The identifiers mention matching names on matching lines. -/
structure Identifier.Matches (M : Matching) (ident ident' : Identifier Name) : Prop where
  name : M.name ident.name ident'.name
  line : M.line ident.line ident'.line

/-- The tokens are of one kind, on matching lines. -/
structure Token.Matches (M : Matching) (op op' : Token) : Prop where
  kind : op.kind = op'.kind
  line : M.line op.line op'.line

/-- The values are equal up to the numbers of lists and the functions. -/
inductive Value.Matches (M : Matching) : Value → Value → Prop where
  | number (n : Float) : Value.Matches M (.number n) (.number n)
  | string (s : String) : Value.Matches M (.string s) (.string s)
  | bool (b : Bool) : Value.Matches M (.bool b) (.bool b)
  | nil : Value.Matches M .nil .nil
  | list {id id' : ListId} {items items' : List Value} :
    M.list id id' → List.Forall₂ (Value.Matches M) items items' →
    Value.Matches M (.list id items) (.list id' items')
  | function {f f' : Func} : M.func f f' → Value.Matches M (.function f) (.function f')

/-- The operands mention matching names, or are matching values. -/
inductive Operand.Matches (M : Matching) : Operand → Operand → Prop where
  | mention {ident ident' : Identifier Name} :
    Identifier.Matches M ident ident' → Operand.Matches M (.mention ident) (.mention ident')
  | value {v v' : Value} : Value.Matches M v v' → Operand.Matches M (.value v) (.value v')

/-- Matching names are bound to matching values, or both have no value. -/
def Env.Matches (M : Matching) (env env' : Env) : Prop :=
  ∀ x x' : Name, M.name x x' → Option.Rel (Value.Matches M) (env.lookup x) (env'.lookup x')

/-- The states match; as many calls are active and may be active. -/
structure State.Matches (M : Matching) (s s' : State) : Prop where
  env : Env.Matches M s.env s'.env
  limit : s.stack.maxDepth = s'.stack.maxDepth
  depth : s.stack.depth = s'.stack.depth
  channel : M.channel s.channel s'.channel
  lists : M.fresh s.lists.next s'.lists.next

/-! ## Failures and results -/

/-- The causes are equal up to the line of a call that was refused. -/
inductive Cause.Matches (M : Matching) : Cause → Cause → Prop where
  | same {cause : Cause} : cause.isRecursionLimit = false → Cause.Matches M cause cause
  | recursionLimit {depth : Nat} {function : String} {line line' : Line} :
    M.line line line' →
    Cause.Matches M (.recursionLimit depth function line) (.recursionLimit depth function line')

/-- The failures have matching causes and have passed operators on matching lines. -/
structure Failure.Matches (M : Matching) (e e' : Failure) : Prop where
  cause : Cause.Matches M e.cause e'.cause
  trail : List.Forall₂ M.line e.trail e'.trail

/-- Both succeed, with related results, or both fail, with matching failures. -/
inductive ResultsMatch (M : Matching) {α : Type} (R : α → α → Prop) :
    Except Failure α → Except Failure α → Prop where
  | ok {a a' : α} : R a a' → ResultsMatch M R (.ok a) (.ok a')
  | error {e e' : Failure} : Failure.Matches M e e' → ResultsMatch M R (.error e) (.error e')

/-! ## Tasks and plans -/

/-- The arguments are matching expressions or matching values. -/
inductive Argument.Matches (M : Matching) : Argument → Argument → Prop where
  | expr {e e' : Expr Name} : M.expr e e' → Argument.Matches M (.expr e) (.expr e')
  | value {v v' : Value} : Value.Matches M v v' → Argument.Matches M (.value v) (.value v')

/-- The tasks are of one kind and about matching things. -/
inductive Task.Matches (M : Matching) : {α : Type} → Task α → Task α → Prop where
  | expr {e e' : Expr Name} : M.expr e e' → Task.Matches M (.expr e) (.expr e')
  | value {e e' : Expr Name} : M.expr e e' → Task.Matches M (.value e) (.value e')
  | values {es es' : List (Expr Name)} :
    List.Forall₂ M.expr es es' → Task.Matches M (.values es) (.values es')
  | operation {op : BinaryOp} {line line' : Line} {left left' right right' : Value} :
    M.line line line' → Value.Matches M left left' → Value.Matches M right right' →
    Task.Matches M (.operation op line left right) (.operation op line' left' right')
  | stmt {s s' : Stmt Name} : M.stmt s s' → Task.Matches M (.stmt s) (.stmt s')
  | block {ss ss' : List (Stmt Name)} :
    List.Forall₂ M.stmt ss ss' → Task.Matches M (.block ss) (.block ss')
  | body {ss ss' : List (Stmt Name)} :
    List.Forall₂ M.stmt ss ss' → Task.Matches M (.body ss) (.body ss')
  | program {p p' : Program Name} :
    List.Forall₂ M.stmt p p' → Task.Matches M (.program p) (.program p')
  | arguments {args args' : List Argument} :
    List.Forall₂ (Argument.Matches M) args args' →
    Task.Matches M (.arguments args) (.arguments args')
  | call {f f' : Func} {args args' : List Argument} {line line' : Line} :
    M.func f f' → List.Forall₂ (Argument.Matches M) args args' → M.line line line' →
    Task.Matches M (.call f args line) (.call f' args' line')

/-- When two results of a task match. -/
def Matching.result (M : Matching) : {α : Type} → Task α → α → α → Prop
  | _, .expr _ => Operand.Matches M
  | _, .value _ | _, .operation .. | _, .body _ | _, .call .. => Value.Matches M
  | _, .values _ | _, .arguments _ => List.Forall₂ (Value.Matches M)
  | _, .stmt _ | _, .block _ => Option.Rel (Value.Matches M)
  | _, .program _ => fun _ _ => True

/-- The plans take matching steps, whatever matching things the steps before result in, and end with
results that are related by `R`. -/
inductive Plan.Matches (M : Matching) {α : Type} (R : α → α → Prop) : Plan α → Plan α → Prop where
  | done {r r' : Except Failure α} :
    ResultsMatch M R r r' → Plan.Matches M R (.done r) (.done r')
  | readEnv {next next' : Env → Plan α} :
    (∀ env env', Env.Matches M env env' → Plan.Matches M R (next env) (next' env')) →
    Plan.Matches M R (.readEnv next) (.readEnv next')
  | makeList {items items' : List Value} {next next' : Value → Plan α} :
    List.Forall₂ (Value.Matches M) items items' →
    (∀ v v', Value.Matches M v v' → Plan.Matches M R (next v) (next' v')) →
    Plan.Matches M R (.makeList items next) (.makeList items' next')
  | printLine {line : String} {next next' : Plan α} :
    Plan.Matches M R next next' →
    Plan.Matches M R (.printLine line next) (.printLine line next')
  | bindOr {cause : Cause} {x x' : Name} {v v' : Value} {next next' : Plan α} :
    cause.isRecursionLimit = false → M.name x x' → Value.Matches M v v' →
    Plan.Matches M R next next' →
    Plan.Matches M R (.bindOr cause x v next) (.bindOr cause x' v' next')
  | ask {β : Type} {task task' : Task β} {next next' : β → Plan α} :
    Task.Matches M task task' →
    (∀ b b', M.result task b b' → Plan.Matches M R (next b) (next' b')) →
    Plan.Matches M R (.ask task next) (.ask task' next')
  | enter {f f' : Func} {args args' : List Value} {line line' : Line}
      {next next' : Value → Plan α} :
    M.func f f' → List.Forall₂ (Value.Matches M) args args' → M.line line line' →
    (∀ v v', Value.Matches M v v' → Plan.Matches M R (next v) (next' v')) →
    Plan.Matches M R (.enter f args line next) (.enter f' args' line' next')
  | onLine {line line' : Line} {rest rest' : Plan α} :
    M.line line line' → Plan.Matches M R rest rest' →
    Plan.Matches M R (.onLine line rest) (.onLine line' rest')

/-! ## Trees, one level at a time -/

/-- The expressions are built alike, from matching parts; neither stands in parentheses. -/
inductive Expr.PartsMatch (M : Matching) : Expr Name → Expr Name → Prop where
  | literal (value : Literal) : Expr.PartsMatch M (.literal value) (.literal value)
  | variable {ident ident' : Identifier Name} :
    Identifier.Matches M ident ident' → Expr.PartsMatch M (.variable ident) (.variable ident')
  | binary {left left' right right' : Expr Name} {op op' : Token} :
    M.expr left left' → Token.Matches M op op' → M.expr right right' →
    Expr.PartsMatch M (.binary left op right) (.binary left' op' right')
  | unary {op op' : Token} {operand operand' : Expr Name} :
    Token.Matches M op op' → M.expr operand operand' →
    Expr.PartsMatch M (.unary op operand) (.unary op' operand')
  | call {callee callee' : Identifier Name} {args args' : List (Expr Name)} :
    Identifier.Matches M callee callee' → List.Forall₂ M.expr args args' →
    Expr.PartsMatch M (.call callee args) (.call callee' args')
  | list {elements elements' : List (Expr Name)} :
    List.Forall₂ M.expr elements elements' →
    Expr.PartsMatch M (.list elements) (.list elements')

/-- Where all of them stand for themselves, expressions consist of matching parts. -/
theorem Expr.partsMatch_self {M : Matching} (hname : ∀ x : Name, M.name x x)
    (hline : ∀ l : Line, M.line l l) (hexpr : ∀ e : Expr Name, M.expr e e) :
    ∀ e : Expr Name, Expr.PartsMatch M e.bare e.bare
  | .group inner => partsMatch_self hname hline hexpr inner
  | .literal value => .literal value
  | .variable _ => .variable ⟨hname _, hline _⟩
  | .binary .. => .binary (hexpr _) ⟨rfl, hline _⟩ (hexpr _)
  | .unary .. => .unary ⟨rfl, hline _⟩ (hexpr _)
  | .call .. => .call ⟨hname _, hline _⟩ (List.forall₂_same.2 fun e _ => hexpr e)
  | .list _ => .list (List.forall₂_same.2 fun e _ => hexpr e)

/-- The statements are built alike, from matching parts. -/
inductive Stmt.PartsMatch (M : Matching) (interner interner' : Interner) :
    Stmt Name → Stmt Name → Prop where
  | print {e e' : Expr Name} :
    M.expr e e' → Stmt.PartsMatch M interner interner' (.print e) (.print e')
  | expression {e e' : Expr Name} :
    M.expr e e' → Stmt.PartsMatch M interner interner' (.expression e) (.expression e')
  | conditional {c c' : Expr Name} {block block' : List (Stmt Name)} :
    M.expr c c' → List.Forall₂ M.stmt block block' →
    Stmt.PartsMatch M interner interner' (.conditional c block none) (.conditional c' block' none)
  | conditionalElse {c c' : Expr Name} {block block' other other' : List (Stmt Name)} :
    M.expr c c' → List.Forall₂ M.stmt block block' → List.Forall₂ M.stmt other other' →
    Stmt.PartsMatch M interner interner' (.conditional c block (some other))
      (.conditional c' block' (some other'))
  | function {node node' : Nat} {name name' : Identifier Name}
      {params params' : List (Identifier Name)} {body body' : List (Stmt Name)} :
    M.name name.name name'.name →
    M.func ⟨⟨node, name, params, body⟩, interner.text name.name⟩
      ⟨⟨node', name', params', body'⟩, interner'.text name'.name⟩ →
    Stmt.PartsMatch M interner interner' (.function node name params body)
      (.function node' name' params' body')
  | return {e e' : Expr Name} :
    M.expr e e' → Stmt.PartsMatch M interner interner' (.return e) (.return e')

/-- The functions have the same text for a name, and matching parameters and bodies. -/
structure Func.PartsMatch (M : Matching) (f f' : Func) : Prop where
  name : f.name = f'.name
  params : List.Forall₂ (Identifier.Matches M) f.decl.params f'.decl.params
  body : List.Forall₂ M.stmt f.decl.body f'.decl.body

/-- Evaluation cannot see through the matching, if the one side uses the first table of identifiers
and the other side the second.  Where everything stands for itself there is nothing to see. -/
structure Matching.Lawful (M : Matching) (interner interner' : Interner) : Prop where
  name_eq_iff : ∀ {x x' y y' : Name}, M.name x x' → M.name y y' → (x = y ↔ x' = y') := by
    rintro _ _ _ _ rfl rfl
    exact Iff.rfl
  text_eq : ∀ {x x' : Name}, M.name x x' → interner.text x = interner'.text x' := by
    rintro _ _ rfl
    rfl
  list_eq_iff : ∀ {i i' j j' : ListId}, M.list i i' → M.list j j' → (i = j ↔ i' = j') := by
    rintro _ _ _ _ rfl rfl
    exact Iff.rfl
  list_of_fresh : ∀ {i i' : ListId}, M.fresh i i' → M.list i i' := by
    exact fun h => h
  fresh_succ : ∀ {i i' : ListId}, M.fresh i i' → M.fresh (i + 1) (i' + 1) := by
    exact congrArg (· + 1)
  channel_writeLine : ∀ {c c' : Channel} (line : String), M.channel c c' →
      M.channel (c.writeLine line) (c'.writeLine line) := by
    exact fun line => congrArg (Channel.writeLine line)
  func : ∀ {f f' : Func}, M.func f f' → Func.PartsMatch M f f'
  func_same : ∀ {f f' g g' : Func}, M.func f f' → M.func g g' → f.same g = f'.same g'
  expr : ∀ {e e' : Expr Name}, M.expr e e' → Expr.PartsMatch M e.bare e'.bare
  stmt : ∀ {s s' : Stmt Name}, M.stmt s s' → Stmt.PartsMatch M interner interner' s s'

end BindOnce

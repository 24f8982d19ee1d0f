import BindOnce.Proofs.HandInHand

/-!
# Numbers of lists

Lists are numbered in the order in which they are made, so at any moment the lists that a program
can get hold of have numbers below the next one.  A state made up at will need not be like that: its
environment may hold a list with a number that has yet to be handed out, and then a list that is
made later is taken for the one that is there.  This file shows that evaluation never leads to such
a state.

## What is here

* `Value.ListsBelow`, `Env.ListsBelow` — all lists in a value, all lists in an environment have
  numbers below a given one.
* `Matching.ofLists` — the matchings of two evaluations of the same, for which it is left open which
  list stands for which.
* `State.ListsNumbered` — no name is bound to a list with a number that has yet to be handed out.
* `EndsUnder.listsNumbered`, `Task.listsNumbered`, `Interpreter.listsNumbered_run` — evaluation
  keeps it so, and results in numbered lists only.
-/

set_option autoImplicit false
namespace BindOnce

/-! ## Lists that exist -/

mutual

/-- The value, if it is a list, and all lists in it have numbers below `n`. -/
def Value.ListsBelow (n : ListId) : Value → Prop
  | .list id items => id < n ∧ AllListsBelow n items
  | _ => True

/-- All lists among the values and in them have numbers below `n`. -/
def Value.AllListsBelow (n : ListId) : List Value → Prop
  | [] => True
  | v :: vs => v.ListsBelow n ∧ AllListsBelow n vs

end

/-- All lists that names are bound to, and all lists in them, have numbers below `n`. -/
def Env.ListsBelow (n : ListId) (env : Env) : Prop :=
  ∀ (x : Name) (v : Value), env.lookup x = some v → v.ListsBelow n

theorem Env.listsBelow_empty (n : ListId) : empty.ListsBelow n := by
  intro x v hx
  rw [lookup_empty] at hx
  cases hx

section Self

variable {M : Matching} {n : ListId}

mutual

/-- A value matches itself if the lists in it do, and all functions do. -/
theorem Value.Matches.of_listsBelow (hlist : ∀ id, id < n → M.list id id)
    (hfunc : ∀ f, M.func f f) :
    ∀ {v : Value}, v.ListsBelow n → Value.Matches M v v
  | .number x, _ => .number x
  | .string s, _ => .string s
  | .bool b, _ => .bool b
  | .nil, _ => .nil
  | .list _ _, h => .list (hlist _ h.1) (Value.Matches.of_allListsBelow hlist hfunc h.2)
  | .function f, _ => .function (hfunc f)

theorem Value.Matches.of_allListsBelow (hlist : ∀ id, id < n → M.list id id)
    (hfunc : ∀ f, M.func f f) :
    ∀ {vs : List Value}, Value.AllListsBelow n vs → List.Forall₂ (Value.Matches M) vs vs
  | [], _ => .nil
  | _ :: _, h => .cons (Value.Matches.of_listsBelow hlist hfunc h.1)
    (Value.Matches.of_allListsBelow hlist hfunc h.2)

end

theorem Env.Matches.of_listsBelow (hname : ∀ {x x' : Name}, M.name x x' → x = x')
    (hlist : ∀ id, id < n → M.list id id) (hfunc : ∀ f, M.func f f) {env : Env}
    (h : env.ListsBelow n) : Env.Matches M env env := by
  intro x x' hx
  cases hname hx
  cases hlookup : env.lookup x with
  | none => exact .none
  | some v => exact .some (.of_listsBelow hlist hfunc (h x v hlookup))

end Self

/-! ## Two evaluations of the same -/

/-- Everything stands for itself, except lists and channels. -/
def Matching.ofLists (list fresh : ListId → ListId → Prop) (channel : Channel → Channel → Prop) :
    Matching where
  list := list
  fresh := fresh
  channel := channel

section OfLists

variable {list fresh : ListId → ListId → Prop} {channel : Channel → Channel → Prop}

theorem Stmt.partsMatch_ofLists (interner : Interner) (s : Stmt Name) :
    Stmt.PartsMatch (.ofLists list fresh channel) interner interner s s := by
  cases s with
  | print e => exact .print rfl
  | expression e => exact .expression rfl
  | conditional c block other =>
    cases other with
    | none => exact .conditional rfl (List.forall₂_same.2 fun _ _ => rfl)
    | some other =>
      exact .conditionalElse rfl (List.forall₂_same.2 fun _ _ => rfl)
        (List.forall₂_same.2 fun _ _ => rfl)
  | function node name params body => exact .function rfl rfl
  | «return» e => exact .return rfl

/-- Evaluation cannot tell which list stands for which, if no list stands for two. -/
theorem Matching.ofLists_lawful (interner : Interner)
    (hlist : ∀ {i i' j j' : ListId}, list i i' → list j j' → (i = j ↔ i' = j'))
    (hmade : ∀ {i i' : ListId}, fresh i i' → list i i')
    (hsucc : ∀ {i i' : ListId}, fresh i i' → fresh (i + 1) (i' + 1))
    (hchannel : ∀ {c c' : Channel} (line : String), channel c c' →
      channel (c.writeLine line) (c'.writeLine line)) :
    (ofLists list fresh channel).Lawful interner interner where
  list_eq_iff := hlist
  list_of_fresh := hmade
  fresh_succ := hsucc
  channel_writeLine := hchannel
  func := by
    rintro f _ rfl
    exact ⟨rfl, List.forall₂_same.2 fun _ _ => ⟨rfl, rfl⟩, List.forall₂_same.2 fun _ _ => rfl⟩
  func_same := by
    rintro f _ g _ rfl rfl
    rfl
  expr := by
    rintro e _ rfl
    exact e.partsMatch_self (fun _ => rfl) (fun _ => rfl) fun _ => rfl
  stmt := by
    rintro s _ rfl
    exact s.partsMatch_ofLists interner

end OfLists

/-! ## What evaluation gets hold of -/

/-- Everything stands for itself, and only lists with numbers below `n` occur.  The matching speaks
of a moment, after which no list is made. -/
def Matching.below (n : ListId) : Matching :=
  ofLists (fun id id' => id = id' ∧ id < n) (fun _ _ => False) Eq

theorem Matching.below_lawful (interner : Interner) (n : ListId) :
    (below n).Lawful interner interner :=
  ofLists_lawful interner
    (by rintro i _ j _ ⟨rfl, -⟩ ⟨rfl, -⟩; exact Iff.rfl)
    (fun h => h.elim) (fun h => h.elim) (by rintro c _ line rfl; rfl)

section Below

variable {n m : ListId}

mutual

theorem Value.Matches.listsBelow {v v' : Value} :
    Value.Matches (.below n) v v' → v.ListsBelow n
  | .number _ | .string _ | .bool _ | .nil | .function _ => trivial
  | .list hid hitems => ⟨hid.2, Value.Matches.allListsBelow hitems⟩

theorem Value.Matches.allListsBelow {vs vs' : List Value} :
    List.Forall₂ (Value.Matches (.below n)) vs vs' → Value.AllListsBelow n vs
  | .nil => trivial
  | .cons h hs => ⟨h.listsBelow, Value.Matches.allListsBelow hs⟩

end

theorem Value.all_matches_below_iff {vs : List Value} :
    List.Forall₂ (Value.Matches (.below n)) vs vs ↔ AllListsBelow n vs :=
  ⟨Value.Matches.allListsBelow,
    Value.Matches.of_allListsBelow (M := .below n) (fun _ h => ⟨rfl, h⟩) fun _ => rfl⟩

theorem Env.matches_below_iff {env : Env} : Env.Matches (.below n) env env ↔ env.ListsBelow n := by
  refine ⟨fun h x v hx => ?_, .of_listsBelow (M := .below n) id (fun _ h => ⟨rfl, h⟩) fun _ => rfl⟩
  have hv := h x x rfl
  rw [hx] at hv
  cases hv with
  | some hv => exact hv.listsBelow

mutual

theorem Value.ListsBelow.mono (h : n ≤ m) : ∀ {v : Value}, v.ListsBelow n → v.ListsBelow m
  | .list _ _, hv => ⟨Nat.lt_of_lt_of_le hv.1 h, Value.AllListsBelow.mono h hv.2⟩
  | .number _, _ | .string _, _ | .bool _, _ | .nil, _ | .function _, _ => trivial

theorem Value.AllListsBelow.mono (h : n ≤ m) :
    ∀ {vs : List Value}, Value.AllListsBelow n vs → Value.AllListsBelow m vs
  | [], _ => trivial
  | _ :: _, hvs => ⟨Value.ListsBelow.mono h hvs.1, Value.AllListsBelow.mono h hvs.2⟩

end

theorem Env.ListsBelow.mono (h : n ≤ m) {env : Env} (henv : env.ListsBelow n) : env.ListsBelow m :=
  fun x v hx => (henv x v hx).mono h

end Below

section Evaluation

variable {interner : Interner} {α : Type}

/-- All lists in the environment in use have been numbered. -/
def State.ListsNumbered (s : State) : Prop := s.env.ListsBelow s.lists.next

theorem State.ListsNumbered.entered (interner : Interner) {s : State} (hs : s.ListsNumbered)
    {f : Func} {args : List Value} {stack : CallStack}
    (hargs : List.Forall₂ (Value.Matches (.below s.lists.next)) args args) :
    (s.entered f args stack).ListsNumbered := by
  have hM := Matching.below_lawful interner s.lists.next
  exact Env.matches_below_iff.1
    ((Env.matches_below_iff.2 hs).overlay hM ((hM.func (f := f) rfl).bindings hargs))

theorem Func.body_matches_below (interner : Interner) (n : ListId) (f : Func) :
    Plan.Matches (.below n) (Value.Matches (.below n)) ((Task.body f.decl.body).plan interner)
      ((Task.body f.decl.body).plan interner) :=
  have hM := Matching.below_lawful interner n
  (Task.Matches.body (hM.func (f := f) rfl).body).plan hM

/-- **Evaluation gets hold of numbered lists only.**  The plan has to be the same for all lists that
are numbered later, of which it knows nothing yet. -/
theorem EndsUnder.listsNumbered {p : Plan α} {s t : State} {r : Except Failure α}
    {R : ListId → α → α → Prop} (h : EndsUnder (.bare interner) p s r t)
    (hp : ∀ n, s.lists.next ≤ n → Plan.Matches (.below n) (R n) p p) (hs : s.ListsNumbered) :
    s.lists.next ≤ t.lists.next ∧ t.ListsNumbered ∧
      ∀ (a : α) (n : ListId), r = .ok a → t.lists.next ≤ n → R n a a := by
  induction h with
  | done =>
    refine ⟨Nat.le_refl _, hs, ?_⟩
    rintro a n rfl hn
    cases hp n hn with
    | done hr => cases hr with | ok ha => exact ha
  | readEnv _ ih =>
    refine ih (fun n hn => ?_) hs
    cases hp n hn with
    | readEnv hnext => exact hnext _ _ (Env.matches_below_iff.2 (hs.mono hn))
  | @makeList α items next s t r _ ih =>
    -- the next number goes up, so less is asked of the rest of the plan
    have hle : s.lists.next ≤ (s.lists.make items).2.next := Nat.le_succ _
    obtain ⟨ht, hend⟩ := ih (fun n hn => by
      cases hp n (Nat.le_trans hle hn) with
      | makeList hitems hnext => exact hnext _ _ (.list ⟨rfl, hn⟩ hitems)) (hs.mono hle)
    exact ⟨Nat.le_trans hle ht, hend⟩
  | printLine _ ih =>
    refine ih (fun n hn => ?_) hs
    cases hp n hn with | printLine hnext => exact hnext
  | @bindOr α cause x v next s t env r hb _ ih =>
    refine ih (fun n hn => ?_) fun y w hy => ?_
    · cases hp n hn with | bindOr _ _ _ hnext => exact hnext
    · rw [Env.lookup_of_bind? hb] at hy
      split at hy
      · cases hy
        cases hp _ (Nat.le_refl _) with | bindOr _ _ hv _ => exact hv.listsBelow
      · exact hs y w hy
  | bound _ => exact ⟨Nat.le_refl _, hs, fun _ _ h => by cases h⟩
  | @ask α β task next s t u b r _ _ ih₁ ih₂ =>
    obtain ⟨hst, ht, hb⟩ := ih₁ (R := fun n => (Matching.below n).result task) (fun n hn => by
      cases hp n hn with
      | ask htask _ => exact htask.plan (Matching.below_lawful interner n)) hs
    obtain ⟨htu, hend⟩ := ih₂ (fun n hn => by
      cases hp n (Nat.le_trans hst hn) with
      | ask _ hnext => exact hnext b b (hb b n rfl hn)) ht
    exact ⟨Nat.le_trans hst htu, hend⟩
  | @askFails α β task next s t e _ ih =>
    obtain ⟨hst, ht, -⟩ := ih (R := fun n => (Matching.below n).result task) (fun n hn => by
      cases hp n hn with
      | ask htask _ => exact htask.plan (Matching.below_lawful interner n)) hs
    exact ⟨hst, ht, fun _ _ h => by cases h⟩
  | @enter α f args line next s t u stack v r _ _ _ ih₁ ih₂ =>
    obtain ⟨hst, -, hv⟩ := ih₁ (fun n _ => f.body_matches_below interner n) (by
      cases hp _ (Nat.le_refl _) with | enter _ hargs _ _ => exact hs.entered interner hargs)
    obtain ⟨htu, hend⟩ := ih₂ (fun n hn => by
      cases hp n (Nat.le_trans hst hn) with
      | enter _ _ _ hnext => exact hnext v v (hv v n rfl hn)) (hs.mono hst)
    exact ⟨Nat.le_trans hst htu, hend⟩
  | @enterFails α f args line next s t stack e _ _ ih =>
    obtain ⟨hst, -, -⟩ := ih (fun n _ => f.body_matches_below interner n) (by
      cases hp _ (Nat.le_refl _) with | enter _ hargs _ _ => exact hs.entered interner hargs)
    exact ⟨hst, hs.mono hst, fun _ _ h => by cases h⟩
  | refused _ => exact ⟨Nat.le_refl _, hs, fun _ _ h => by cases h⟩
  | onLine _ ih =>
    refine ih (fun n hn => ?_) hs
    cases hp n hn with | onLine _ hrest => exact hrest
  | onLineFails _ ih =>
    obtain ⟨hst, ht, -⟩ := ih (fun n hn => by
      cases hp n hn with | onLine _ hrest => exact hrest) hs
    exact ⟨hst, ht, fun _ _ h => by cases h⟩

/-- A task that is about numbered lists results in numbered lists. -/
theorem Task.listsNumbered (interner : Interner) {task : Task α} {s : State}
    (htask : ∀ n, s.lists.next ≤ n → Task.Matches (.below n) task task) (hs : s.ListsNumbered) :
    s.lists.next ≤ (task.run interner s).2.lists.next ∧ (task.run interner s).2.ListsNumbered ∧
      ∀ a, (task.run interner s).1 = .ok a →
        (Matching.below (task.run interner s).2.lists.next).result task a a := by
  obtain ⟨hle, ht, ha⟩ := (task.ends_run s).endsUnder_bare.listsNumbered (fun n hn =>
    (htask n hn).plan (Matching.below_lawful interner n)) hs
  exact ⟨hle, ht, fun a h => ha a _ h (Nat.le_refl _)⟩

end Evaluation

/-- **After a program all lists in the program environment have been numbered**, if it was so
before.  It is so at the start, when the environment is empty. -/
theorem Interpreter.listsNumbered_run (i : Interpreter) (hi : i.state.ListsNumbered)
    (program : Program Name) : (i.run program).2.state.ListsNumbered :=
  have h := Task.listsNumbered i.interner
    (fun n _ => Task.Matches.program (M := .below n) (p := program)
      (List.forall₂_same.2 fun _ _ => rfl)) hi
  h.2.1

end BindOnce

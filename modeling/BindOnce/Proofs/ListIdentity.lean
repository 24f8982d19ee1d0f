import BindOnce.Proofs.Calling
import BindOnce.Proofs.Sessions

/-!
# The identity of lists

Lists are compared by identity, so programs can tell whether two lists are one.  For this to make
sense, a list must be one list wherever it goes, and a new list must differ from all that are there.
Both could go wrong in any place where a value is copied, kept or made anew, in whatever environment
it ends up, and whether it is in use or in the host's hands meanwhile.

The lists that the host has and those that are at hand at the moments of an evaluation are all
compared with one ledger.  Lists with the same number have the items that are entered there, and a
new list gets a number that is not entered yet.

## What is here

* `Session.Meets` — the values that one comes across in a session and an evaluation started there.
* `Task.MakesList` — list literals, `map` and `filter`.
* `ListsKept` — a list that is bound, looked up, passed, returned, put into a list, kept by
  `filter`, left over by `reduce` or handed to a callback is the same list.
* `list_identity` — identical lists have the same items, new lists are not identical to old ones,
  and lists are kept.
-/

set_option autoImplicit false
namespace BindOnce

/-! ## What one comes across -/

/-- The value is met when the numbering of lists has come to the given number: the host can get hold
of it before the evaluation, or it is at hand at some moment of the evaluation, or it sits in a list
that is met.  The evaluation counts from where the host asks for it, so that its result is met. -/
inductive Session.Meets (S : Session) {α : Type} (task : Task α) (s : State) :
    ListId → Value → Prop where
  | found {v : Value} : S.Finds v → Meets S task s s.lists.next v
  | atHand {calls : List ActiveCall} {m : Moment} {n : ListId} {v : Value} :
    Reaches S.interpreter.interner (.ask task .ok) s calls m.plan m.state →
    m.AtHand S.interpreter.interner n v → Meets S task s n v
  | held {n : ListId} {v w : Value} : Meets S task s n v → v.Holds w → Meets S task s n w

/-- **All that is met is on record** in the ledger at the end of the evaluation. -/
theorem Session.RecordedIn.of_meets {S : Session} {made : List (List Value)}
    (hS : S.RecordedIn made) {α : Type} {task : Task α} {s : State} (h : S.Starts task s) :
    ∃ made', made <+: made' ∧
      ∀ (n : ListId) (v : Value), S.Meets task s n v → v.RecordedAt made' n := by
  obtain ⟨hs, hgiven⟩ := hS.of_starts h
  have hends : ∃ r t, Ends S.interpreter.interner (.ask task .ok) s r t := by
    have htask : Ends S.interpreter.interner _ s _ _ := task.ends_run s
    cases hr : (task.run S.interpreter.interner s).1 with
    | ok a => exact ⟨_, _, .ask (hr ▸ htask) .done⟩
    | error e => exact ⟨_, _, .askFails (hr ▸ htask)⟩
  obtain ⟨r, t, hends⟩ := hends
  obtain ⟨made', hle, -, -, hall⟩ := hends.recorded (R := fun _ _ => True)
    (fun later hle => ⟨fun v hv => (hgiven v hv).mono hle, fun _ _ => trivial⟩) hs
  refine ⟨made', hle, fun n v hv => ?_⟩
  induction hv with
  | found hv => exact (hS.of_finds hv).recordedAt hle hs.length
  | atHand hreach hv => exact hall _ _ hreach _ _ hv
  | held _ hw ih => exact Value.RecordedAt.of_holds ih hw

/-! ## New lists -/

/-- The tasks that result in a new list: list literals, `map` and `filter`. -/
def Task.MakesList : {α : Type} → Task α → Prop
  | _, .expr (.list _) => True
  | _, .expr (.binary _ op _) => op.kind = .mapKeyword ∨ op.kind = .filterKeyword
  | _, .operation op _ _ _ => op = .map ∨ op = .filter
  | _, _ => False

section MakesList

variable {interner : Interner} {α : Type} {s t : State}

/-- After the calls for the items comes the rest of the plan. -/
theorem Ends.of_enterEach {f : Func} {line : Line} {list : Value} {items : List (Value × Nat)}
    {next : List Value → Plan α} {r : α}
    (h : Ends interner (.enterEach f line list items next) s (.ok r) t) :
    ∃ vs u, s.lists.next ≤ u.lists.next ∧ Ends interner (next vs) u (.ok r) t := by
  induction items generalizing s next with
  | nil => exact ⟨[], s, Nat.le_refl _, h⟩
  | cons item items ih =>
    cases h with
    | enter _ hbody h =>
      obtain ⟨vs, u, hle, h⟩ := ih h
      exact ⟨_, u, Nat.le_trans hbody.lists_next_le hle, h⟩

theorem BinaryOp.list_of_ends {op : BinaryOp} {line : Line} {left right v : Value}
    (hop : op = .map ∨ op = .filter)
    (h : Ends interner ((Task.operation op line left right).plan interner) s (.ok v) t) :
    ∃ id items, v = .list id items ∧ s.lists.next ≤ id := by
  rcases hop with rfl | rfl
  all_goals
    simp only [Task.plan, plan] at h
    split at h
    · obtain ⟨vs, u, hle, h⟩ := h.of_enterEach
      cases h with
      | makeList h =>
        cases h
        exact ⟨_, _, rfl, hle⟩
    · cases h

theorem Token.list_of_ends {op : Token} {left right : Operand} {o : Operand}
    (hop : op.kind = .mapKeyword ∨ op.kind = .filterKeyword)
    (h : Ends interner (op.binaryPlan interner left right) s (.ok o) t) :
    ∃ id items, o = .value (.list id items) ∧ s.lists.next ≤ id := by
  unfold binaryPlan at h
  rcases hop with hkind | hkind
  all_goals
    rw [hkind] at h
    cases h with
    | readEnv h =>
      cases h with
      | ask hoperation h =>
        cases h
        obtain ⟨id, items, rfl, hle⟩ := BinaryOp.list_of_ends (by simp) hoperation
        exact ⟨id, items, rfl, hle⟩

/-- **A list that is made has a number from after the start.** -/
theorem Task.MakesList.list_of_ends {task : Task α} (htask : task.MakesList) {a : α}
    (h : Ends interner (task.plan interner) s (.ok a) t) :
    ∃ id items, task.resultValues a = [.list id items] ∧ s.lists.next ≤ id := by
  cases task with
  | expr e =>
    cases e with
    | list elements =>
      cases h with
      | ask hvalues h =>
        cases h with
        | makeList h =>
          cases h
          exact ⟨_, _, rfl, hvalues.lists_next_le⟩
    | binary left op right =>
      cases h with
      | onLine h =>
        cases h with
        | ask hleft h =>
          cases h with
          | ask hright h =>
            obtain ⟨id, items, rfl, hle⟩ := Token.list_of_ends htask h
            have hle := Nat.le_trans hright.lists_next_le hle
            exact ⟨id, items, rfl, Nat.le_trans hleft.lists_next_le hle⟩
    | _ => exact htask.elim
  | operation op line left right =>
    obtain ⟨id, items, rfl, hle⟩ := BinaryOp.list_of_ends htask h
    exact ⟨id, items, rfl, hle⟩
  | _ => exact htask.elim

end MakesList

/-! ## Lists are kept -/

section Kept

variable {interner : Interner}

theorem Operand.lookup_of_assign {ident : Identifier Name} {value result : Operand} {s t : State}
    (h : (Operand.mention ident).assign interner value s = (.ok result, t)) :
    result = .value (value.valueIn s.env) ∧
      t.env.lookup ident.name = some (value.valueIn s.env) := by
  have hread : value.read s = (.ok (value.valueIn s.env), s) := rfl
  rw [assign, EvalM.bind_apply, hread] at h
  dsimp only at h
  rw [EvalM.bind_apply, EvalM.bindOr_apply] at h
  cases hb : s.env.bind? ident.name (value.valueIn s.env) with
  | none =>
    rw [hb] at h
    cases h
  | some env =>
    rw [hb] at h
    cases h
    exact ⟨rfl, by rw [Env.lookup_of_bind? hb, if_pos rfl]⟩

theorem Expr.runValue_variable {ident : Identifier Name} {s : State} {v : Value}
    (h : s.env.lookup ident.name = some v) :
    (Expr.variable ident).runValue interner s = (.ok v, s) := by
  have hread : (Expr.variable ident).runValue interner s = (.ok (s.env.value ident.name), s) := by
    rw [runValue, value, eval]
    rfl
  rw [hread, Env.value, h, Option.getD_some]

theorem Stmt.run_return {e : Expr Name} {s t : State} {v : Value}
    (h : e.runValue interner s = (.ok v, t)) :
    (Stmt.return e).run interner s = (.ok (some v.worded), t) := by
  have hvalue : e.value interner (callNow interner) s = (.ok v, t) := h
  rw [run, exec, EvalM.bind_apply, hvalue]
  rfl

theorem Task.run_body_of_yields {stmt : Stmt Name} (rest : List (Stmt Name)) {s t : State}
    {v : Value} (h : stmt.run interner s = (.ok (some v), t)) :
    (Task.body (stmt :: rest)).run interner s = (.ok v, t) := by
  have hexec : stmt.exec interner (callNow interner) s = (.ok (some v), t) := h
  rw [run, runWith, Stmt.execBody, EvalM.bind_apply, hexec]
  rfl

theorem Expr.run_list {elements : List (Expr Name)} {s t : State} {vs : List Value}
    (h : (Task.values elements).run interner s = (.ok vs, t)) :
    (Expr.list elements).run interner s =
      (.ok (.value (.list t.lists.next vs)), { t with lists := ⟨t.lists.next + 1⟩ }) := by
  have hvalues : evalAll interner (callNow interner) elements s = (.ok vs, t) := h
  rw [run, eval, EvalM.bind_apply, hvalues]
  rfl

theorem Callback.filter_eq_ok {call : Call} {line : Line} {id : ListId} {items : List Value}
    {f : Func} {s t : State} {v : Value}
    (h : filter call line (.list id items) (.function f) s = (.ok v, t)) :
    ∃ (j : ListId) (kept : List Value), v = .list j kept ∧ kept.Sublist items := by
  rw [filter, EvalM.bind_eq_ok_iff] at h
  obtain ⟨kept, u, hkept, hmake⟩ := h
  rw [keepEach_eq, EvalM.bind_eq_ok_iff] at hkept
  obtain ⟨verdicts, w, -, haccepted⟩ := hkept
  cases haccepted
  cases hmake
  exact ⟨_, _, rfl, accepted_sublist ..⟩

section Callbacks

variable {α : Type} {f g : Func} {line line' : Line} {list : Value} {items : List (Value × Nat)}
  {args : List Value} {s t : State}

/-- A call for every item: the function gets the item, its position and the list. -/
theorem Proceeds.of_enterEach {next : List Value → Plan α} {k : Value → Plan α}
    (h : Proceeds interner (.enterEach f line list items next) s (.enter g args line' k) t) :
    (∃ p ∈ items, g = f ∧ args = [p.1, .ofIndex p.2, list]) ∨
      ∃ vs u, Proceeds interner (next vs) u (.enter g args line' k) t := by
  induction items generalizing s next with
  | nil => exact .inr ⟨[], s, h⟩
  | cons item items ih =>
    cases h with
    | here => exact .inl ⟨item, List.mem_cons_self, rfl, rfl⟩
    | enter _ _ h =>
      rcases ih h with ⟨p, hp, hcall⟩ | ⟨vs, u, h⟩
      · exact .inl ⟨p, List.mem_cons_of_mem item hp, hcall⟩
      · exact .inr ⟨_, u, h⟩

/-- Calls that combine: the function gets the result so far, the item, its position and the list. -/
theorem Proceeds.of_enterFold {acc : Value} {k : Value → Plan Value}
    (h : Proceeds interner (.enterFold f line list acc items) s (.enter g args line' k) t) :
    ∃ p ∈ items, ∃ acc, g = f ∧ args = [acc, p.1, .ofIndex p.2, list] := by
  induction items generalizing s acc with
  | nil => cases h
  | cons item items ih =>
    cases h with
    | here => exact ⟨item, List.mem_cons_self, acc, rfl, rfl⟩
    | enter _ _ h =>
      obtain ⟨p, hp, hcall⟩ := ih h
      exact ⟨p, List.mem_cons_of_mem item hp, hcall⟩

end Callbacks

section Operations

variable {id : ListId} {items args : List Value} {f g : Func} {line line' : Line} {s t : State}
  {next : Value → Plan Value}

/-- `map` and `filter` hand the list itself to the function. -/
theorem BinaryOp.args_of_proceeds {op : BinaryOp} (hop : op = .map ∨ op = .filter)
    (h : Proceeds interner ((Task.operation op line (.list id items) (.function f)).plan interner) s
      (.enter g args line' next) t) :
    ∃ (i : Nat) (item : Value), items[i]? = some item ∧ g = f ∧
      args = [item, .ofIndex i, .list id items] := by
  have hcall : ∃ p ∈ items.zipIdx, g = f ∧ args = [p.1, .ofIndex p.2, .list id items] := by
    rcases hop with rfl | rfl
    all_goals
      refine (Proceeds.of_enterEach h).resolve_right ?_
      rintro ⟨vs, u, h⟩
      cases h with
      | makeList h => cases h
  obtain ⟨p, hp, rfl, rfl⟩ := hcall
  exact ⟨p.2, p.1, List.mem_zipIdx_iff_getElem?.1 hp, rfl, rfl⟩

/-- So does `reduce`. -/
theorem BinaryOp.args_of_proceeds_reduce
    (h : Proceeds interner ((Task.operation .reduce line (.list id items) (.function f)).plan
      interner) s (.enter g args line' next) t) :
    ∃ (i : Nat) (acc item : Value), items[i]? = some item ∧ g = f ∧
      args = [acc, item, .ofIndex i, .list id items] := by
  cases items with
  | nil => cases h
  | cons first rest =>
    obtain ⟨p, hp, acc, rfl, rfl⟩ := Proceeds.of_enterFold h
    obtain ⟨hle, hitem⟩ := List.mk_mem_zipIdx_iff_le_and_getElem?_sub.1 hp
    refine ⟨p.2, acc, p.1, ?_, rfl, rfl⟩
    obtain ⟨k, hk⟩ := Nat.exists_eq_add_of_le hle
    rw [hk, Nat.add_sub_cancel_left] at hitem
    rw [hk, Nat.add_comm, List.getElem?_cons_succ, hitem]

end Operations

end Kept

/-- A list is the same list wherever it goes. -/
structure ListsKept (interner : Interner) : Prop where
  /-- The same list is identical to itself. -/
  identical : ∀ (id : ListId) (items : List Value),
    (Value.list id items).identical (.list id items) = true
  /-- Binding a name results in the value that is bound. -/
  assigned : ∀ (ident : Identifier Name) (value result : Operand) (s t : State),
    (Operand.mention ident).assign interner value s = (.ok result, t) →
    result = .value (value.valueIn s.env) ∧ t.env.lookup ident.name = some (value.valueIn s.env)
  /-- A variable has the value that it is bound to. -/
  read : ∀ (ident : Identifier Name) (s : State) (v : Value),
    s.env.lookup ident.name = some v → (Expr.variable ident).runValue interner s = (.ok v, s)
  /-- A call passes the values of the arguments to the function. -/
  passed : ∀ (callee : Identifier Name) (args : List (Expr Name)) (f : Func) (vs : List Value)
    (s t : State), s.env.lookup callee.name = some (.function f) →
    (Task.values args).run interner s = (.ok vs, t) →
    (Expr.call callee args).run interner s =
      (Operand.value <$> callNow interner f vs callee.line) t
  /-- Arguments that are at hand are passed as they are. -/
  passedOn : ∀ (f : Func) (args : List Value) (line : Line),
    f.run interner (args.map .value) line = callNow interner f args line
  /-- The body of a call sees the arguments under the names of the parameters, and under other names
  what the caller sees. -/
  entered : ∀ (s : State) (f : Func) (args : List Value) (stack : CallStack) (x : Name),
    (s.entered f args stack).env.lookup x =
      ((f.bindings args).reverse.lookup x).or (s.env.lookup x)
  /-- A list that is returned ends the body as it is. -/
  returned : ∀ (e : Expr Name) (rest : List (Stmt Name)) (s t : State) (id : ListId)
    (items : List Value), e.runValue interner s = (.ok (.list id items), t) →
    (Stmt.return e).run interner s = (.ok (some (.list id items)), t) ∧
      (Task.body (.return e :: rest)).run interner s = (.ok (.list id items), t)
  /-- A call results in what its body results in. -/
  called : ∀ (f : Func) (args : List Value) (line : Line) (s t : State) (stack : CallStack)
    (r : Except Failure Value), s.stack.push ⟨f.name, line⟩ = .ok stack →
    (Task.body f.decl.body).run interner (s.entered f args stack) = (r, t) →
    callNow interner f args line s = (r, s.left t)
  /-- The items of a list literal are the values of its elements. -/
  element : ∀ (elements : List (Expr Name)) (vs : List Value) (s t : State),
    (Task.values elements).run interner s = (.ok vs, t) →
    (Expr.list elements).run interner s =
      (.ok (.value (.list t.lists.next vs)), { t with lists := ⟨t.lists.next + 1⟩ })
  /-- What `filter` keeps are items of the list, in their order. -/
  filtered : ∀ (call : Call) (line : Line) (id : ListId) (items : List Value) (f : Func)
    (s t : State) (v : Value),
    Callback.filter call line (.list id items) (.function f) s = (.ok v, t) →
    ∃ (j : ListId) (kept : List Value), v = .list j kept ∧ kept.Sublist items
  /-- What `reduce` makes of one item is the item. -/
  reduced : ∀ (call : Call) (line : Line) (id : ListId) (v : Value) (f : Func) (s : State),
    Callback.reduce call line (.list id [v]) (.function f) s = (.ok v, s)
  /-- The functions of `map` and `filter` get an item, its position and the list. -/
  handed : ∀ (op : BinaryOp) (line line' : Line) (id : ListId) (items args : List Value)
    (f g : Func) (s t : State) (next : Value → Plan Value), op = .map ∨ op = .filter →
    Proceeds interner ((Task.operation op line (.list id items) (.function f)).plan interner) s
      (.enter g args line' next) t →
    ∃ (i : Nat) (item : Value), items[i]? = some item ∧ g = f ∧
      args = [item, .ofIndex i, .list id items]
  /-- The function of `reduce` gets them after the result so far. -/
  handedOn : ∀ (line line' : Line) (id : ListId) (items args : List Value) (f g : Func)
    (s t : State) (next : Value → Plan Value),
    Proceeds interner ((Task.operation .reduce line (.list id items) (.function f)).plan interner) s
      (.enter g args line' next) t →
    ∃ (i : Nat) (acc item : Value), items[i]? = some item ∧ g = f ∧
      args = [acc, item, .ofIndex i, .list id items]

theorem listsKept (interner : Interner) : ListsKept interner where
  identical id _ := beq_self_eq_true id
  assigned _ _ _ _ _ := Operand.lookup_of_assign
  read _ _ _ := Expr.runValue_variable
  passed _ _ _ _ _ _ := Expr.run_call
  passedOn f args line := f.run_values args line
  entered s f args _ x := s.env.lookup_overlay (f.bindings args) x
  returned _ rest _ _ _ _ h :=
    ⟨Stmt.run_return h, Task.run_body_of_yields rest (Stmt.run_return h)⟩
  called _ _ _ _ _ _ _ := callNow_of_body
  element _ _ _ _ := Expr.run_list
  filtered _ _ _ _ _ _ _ _ := Callback.filter_eq_ok
  reduced _ _ _ _ _ _ := rfl
  handed _ _ _ _ _ _ _ _ _ _ _ hop := BinaryOp.args_of_proceeds hop
  handedOn _ _ _ _ _ _ _ _ _ _ := BinaryOp.args_of_proceeds_reduce

/-! ## Both together -/

/-- **Lists have an identity.**  Take any session and any evaluation that its host can start.  Of
the lists that one comes across, in the session or at whatever moments of the evaluation, identical
ones have the same items.  A list literal, a `map` and a `filter` result in a list that is identical
to none that was there before; that it was before can be told from the numbering of lists, which at
all moments of whatever is carried out lies between where it starts and where it ends.  And a list
is kept by all that is done with it. -/
theorem list_identity {S : Session} (hS : S.Reachable) {α : Type} {task : Task α} {s : State}
    (h : S.Starts task s) :
    (∀ (m n : ListId) (i j : ListId) (items items' : List Value),
      S.Meets task s m (.list i items) → S.Meets task s n (.list j items') →
      (Value.list i items).identical (.list j items') = true → items = items') ∧
    (∀ {β : Type} (calls : List ActiveCall) (maker : Task β) (t u : State) (b : β),
      Reaches S.interpreter.interner (.ask task .ok) s calls (maker.plan S.interpreter.interner) t →
      maker.MakesList →
      Ends S.interpreter.interner (maker.plan S.interpreter.interner) t (.ok b) u →
      ∃ (id : ListId) (items : List Value), maker.resultValues b = [.list id items] ∧
        ∀ (n : ListId) (v : Value), S.Meets task s n v → n ≤ t.lists.next →
          (Value.list id items).identical v = false) ∧
    (∀ {β : Type} (p : Plan β) (t u : State) (r : Except Failure β),
      Ends S.interpreter.interner p t r u → Throughout S.interpreter.interner p t fun m =>
        t.lists.next ≤ m.state.lists.next ∧ m.state.lists.next ≤ u.lists.next) ∧
    ListsKept S.interpreter.interner := by
  obtain ⟨made, hrecorded⟩ := hS.recorded
  obtain ⟨made', -, hmeets⟩ := hrecorded.of_meets h
  refine ⟨fun m n i j items items' hi hj hij => ?_,
    fun calls maker t u b _ hmaker hends => ?_, fun p t u r hends => hends.lists_next_throughout,
    listsKept _⟩
  · obtain rfl : i = j := beq_iff_eq.1 hij
    exact (hmeets m _ hi).recordedIn.items_eq (hmeets n _ hj).recordedIn
  · obtain ⟨id, items, hresult, hid⟩ := hmaker.list_of_ends hends
    refine ⟨id, items, hresult, fun n v hv hn => ?_⟩
    cases v with
    | list j items' =>
      obtain ⟨before, -, rfl, hbefore⟩ := hmeets n _ hv
      have hlt : j < id := Nat.lt_of_lt_of_le hbefore.lt_length (Nat.le_trans hn hid)
      exact beq_eq_false_iff_ne.2 (Nat.ne_of_gt hlt)
    | _ => rfl

/-- A list that one program binds to a name, and a new list within another environment. -/
theorem list_identity_after_run :
    let program : Program Name :=
      [.expression (.binary (.variable ⟨⟨1⟩, 1⟩) ⟨.equal, 1⟩ (.list []))]
    let S : Session := { interpreter := ((Interpreter.new .new).run program).2, envs := [.empty] }
    let task : Task Operand := .expr (.list [])
    let s : State := { S.interpreter.state with env := .empty }
    S.Reachable ∧ S.Starts task s ∧ S.interpreter.env.lookup ⟨1⟩ = some (.list 0 []) ∧
      (task.run S.interpreter.interner s).1 = .ok (.value (.list 1 [])) ∧
      (Value.list 1 []).identical (.list 0 []) = false := by
  intro program S task s
  have hS : S.Reachable := .step (.start .new .interpret .waray (.terminal "") none) (.run program)
  have hs : S.Starts task s := .within List.mem_cons_self nofun
  have hbound : S.interpreter.env.lookup ⟨1⟩ = some (.list 0 []) := rfl
  obtain ⟨-, hnew, -, -⟩ := list_identity hS hs
  obtain ⟨id, items, hresult, hother⟩ := hnew [] task s _ _ (.ask .here (.proceed .here)) trivial
    (task.ends_run s)
  cases hresult
  exact ⟨hS, hs, hbound, rfl, hother _ _ (.found (.program hbound)) (Nat.le_refl _)⟩

end BindOnce

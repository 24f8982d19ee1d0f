import BindOnce.Proofs.ListIdentity
import BindOnce.Proofs.NumberValues

/-!
# How the two equalities are related

Programs compare values with `==`, which is `Value.identical`; hosts have `Value.alike`, which looks
into lists.  Both treat everything but lists in the same way, and what they ask of lists seems to
make the first the stricter one.  It would be, were it not for NaN, which differs from itself: a list
that holds one is identical to itself, but its items are not alike.

The two are one relation, `Value.EqualBy`, with the comparison of lists left open.  What passes from
that comparison to the relation is shown once.  For `Value.alike` the comparison is again about the
items, so the rest is by induction on values.

## What is here

* `Value.EqualBy` — equality with the comparison of lists left open; `Value.identical_iff`,
  `Value.alike_iff` — the two comparisons.
* `Value.identical_comm`, `Value.identical_trans`, `Value.alike_comm`, `Value.alike_trans`.
* `Value.identical_eq_alike` — one equality, lists apart.
* `Value.HoldsNaN` — NaN in a value, however deep; `Value.identical_self_iff`,
  `Value.alike_self_iff`, `Value.alike_iff_of_identical`.
* `equalities_related` — all of this together, and that it applies to what one comes across in a
  session.
-/

set_option autoImplicit false
namespace BindOnce

/-! ## Equality but for lists -/

namespace Value

/-- The values are equal, numbers as floating-point numbers are and functions if they come from one
declaration.  What it takes for lists is left open. -/
inductive EqualBy (R : ListId → List Value → ListId → List Value → Prop) : Value → Value → Prop where
  | number {a b : Float} : (a == b) = true → EqualBy R (.number a) (.number b)
  | string (s : String) : EqualBy R (.string s) (.string s)
  | bool (b : Bool) : EqualBy R (.bool b) (.bool b)
  | nil : EqualBy R .nil .nil
  | list {i j : ListId} {vs ws : List Value} : R i vs j ws → EqualBy R (.list i vs) (.list j ws)
  | function {f g : Func} : f.same g = true → EqualBy R (.function f) (.function g)

section EqualBy

variable {R R' R'' : ListId → List Value → ListId → List Value → Prop} {u v w : Value}

theorem EqualBy.mono (h : EqualBy R v w)
    (hR : ∀ i vs j ws, v = .list i vs → w = .list j ws → R i vs j ws → R' i vs j ws) :
    EqualBy R' v w := by
  cases h with
  | number h => exact .number h
  | string s => exact .string s
  | bool b => exact .bool b
  | nil => exact .nil
  | list h => exact .list (hR _ _ _ _ rfl rfl h)
  | function h => exact .function h

theorem EqualBy.symm (h : EqualBy R v w)
    (hR : ∀ i vs j ws, v = .list i vs → R i vs j ws → R' j ws i vs) : EqualBy R' w v := by
  cases h with
  | number h => exact .number (Number.beq_symm h)
  | string s => exact .string s
  | bool b => exact .bool b
  | nil => exact .nil
  | list h => exact .list (hR _ _ _ _ rfl h)
  | function h => exact .function (beq_iff_eq.2 (beq_iff_eq.1 h).symm)

theorem EqualBy.trans (h : EqualBy R u v) (h' : EqualBy R' v w)
    (hR : ∀ i us j vs k ws, u = .list i us → R i us j vs → R' j vs k ws → R'' i us k ws) :
    EqualBy R'' u w := by
  cases h with
  | number h =>
    cases h' with
    | number h' => exact .number (Number.beq_trans h h')
  | string s =>
    cases h'
    exact .string s
  | bool b =>
    cases h'
    exact .bool b
  | nil =>
    cases h'
    exact .nil
  | list h =>
    cases h' with
    | list h' => exact .list (hR _ _ _ _ _ _ rfl h h')
  | function h =>
    cases h' with
    | function h' => exact .function (beq_iff_eq.2 ((beq_iff_eq.1 h).trans (beq_iff_eq.1 h')))

end EqualBy

/-! ## The two equalities -/

/-- What `identical` asks of lists. -/
def OneList (i : ListId) (_ : List Value) (j : ListId) (_ : List Value) : Prop := i = j

/-- What `alike` asks of lists. -/
def AlikeItems (_ : ListId) (vs : List Value) (_ : ListId) (ws : List Value) : Prop :=
  List.Forall₂ (fun v w => v.alike w = true) vs ws

section Relations

variable {u v w : Value}

theorem allAlike_iff {vs ws : List Value} :
    allAlike vs ws = true ↔ List.Forall₂ (fun v w => v.alike w = true) vs ws := by
  induction vs generalizing ws with
  | nil => cases ws <;> simp [allAlike]
  | cons v vs ih => cases ws <;> simp [allAlike, ih]

theorem identical_iff : v.identical w = true ↔ EqualBy OneList v w := by
  constructor
  · intro h
    cases v <;> cases w <;> try exact absurd h Bool.false_ne_true
    case number.number => exact .number h
    case string.string => exact beq_iff_eq.1 h ▸ .string _
    case bool.bool => exact beq_iff_eq.1 h ▸ .bool _
    case nil.nil => exact .nil
    case list.list => exact .list (beq_iff_eq.1 h)
    case function.function => exact .function h
  · intro h
    cases h with
    | number h => exact h
    | string s => exact beq_self_eq_true s
    | bool b => exact beq_self_eq_true b
    | nil => rfl
    | list h => exact beq_iff_eq.2 h
    | function h => exact h

/-- Lists apart, the two equalities are one. -/
theorem identical_eq_alike (h : v.kind ≠ .list ∨ w.kind ≠ .list) : v.identical w = v.alike w := by
  cases v <;> cases w <;> try rfl
  case list.list => exact (or_self_iff.1 h rfl).elim

theorem exists_list_of_kind (h : v.kind = .list) : ∃ id items, v = .list id items := by
  cases v with
  | list id items => exact ⟨id, items, rfl⟩
  | _ => cases h

theorem alike_iff : v.alike w = true ↔ EqualBy AlikeItems v w := by
  by_cases h : v.kind ≠ .list ∨ w.kind ≠ .list
  · have hno {i j : ListId} {vs ws : List Value} (hv : v = .list i vs) (hw : w = .list j ws) : False := by
      subst hv hw
      exact or_self_iff.1 h rfl
    rw [← identical_eq_alike h, identical_iff]
    exact ⟨fun h => h.mono fun _ _ _ _ hv hw => (hno hv hw).elim,
      fun h => h.mono fun _ _ _ _ hv hw => (hno hv hw).elim⟩
  · push Not at h
    obtain ⟨i, vs, rfl⟩ := exists_list_of_kind h.1
    obtain ⟨j, ws, rfl⟩ := exists_list_of_kind h.2
    rw [alike, allAlike_iff]
    constructor
    · exact fun hitems => .list hitems
    · rintro (_ | _ | _ | _ | hitems)
      exact hitems

theorem identical_comm (v w : Value) : v.identical w = w.identical v := by
  have hsymm {v w : Value} (h : v.identical w = true) : w.identical v = true :=
    identical_iff.2 ((identical_iff.1 h).symm fun _ _ _ _ _ hij => hij.symm)
  exact Bool.eq_iff_iff.2 ⟨hsymm, hsymm⟩

theorem identical_trans (h : u.identical v = true) (h' : v.identical w = true) :
    u.identical w = true :=
  identical_iff.2 <| (identical_iff.1 h).trans (identical_iff.1 h') fun _ _ _ _ _ _ _ hij hjk =>
    hij.trans hjk

/-- By induction on the first value: its items may change sides. -/
theorem alike_symm (h : v.alike w = true) : w.alike v = true := by
  induction v using inductionOnItems generalizing w with
  | step v ih =>
    refine alike_iff.2 ((alike_iff.1 h).symm fun i vs j ws hv hitems => ?_)
    have hboth := (List.forall₂_and_left vs ws).2 ⟨ih i vs hv, hitems⟩
    exact (hboth.imp fun v w hvw => hvw.1 hvw.2).flip

theorem alike_comm (v w : Value) : v.alike w = w.alike v :=
  Bool.eq_iff_iff.2 ⟨alike_symm, alike_symm⟩

theorem forall₂_alike_trans {us vs ws : List Value}
    (ih : ∀ u ∈ us, ∀ v w, u.alike v = true → v.alike w = true → u.alike w = true)
    (h : List.Forall₂ (fun u v => u.alike v = true) us vs)
    (h' : List.Forall₂ (fun v w => v.alike w = true) vs ws) :
    List.Forall₂ (fun u w => u.alike w = true) us ws := by
  induction h generalizing ws with
  | nil =>
    cases h'
    exact .nil
  | cons huv _ ihs =>
    cases h' with
    | cons hvw hrest =>
      exact .cons (ih _ List.mem_cons_self _ _ huv hvw)
        (ihs (fun u hu => ih u (List.mem_cons_of_mem _ hu)) hrest)

/-- By induction on the first value: so are its items to those of the third. -/
theorem alike_trans (h : u.alike v = true) (h' : v.alike w = true) : u.alike w = true := by
  induction u using inductionOnItems generalizing v w with
  | step u ih =>
    refine alike_iff.2 ((alike_iff.1 h).trans (alike_iff.1 h') fun i us j vs k ws hu => ?_)
    exact forall₂_alike_trans fun u hmem v w => ih i us hu u hmem

end Relations

/-! ## Equality of a value with itself -/

/-- The value is NaN, or a list in which one sits, however deep. -/
def HoldsNaN (v : Value) : Prop := ∃ n : Float, v.Holds (.number n) ∧ n.isNaN = true

section Itself

variable {v w : Value}

theorem holdsNaN_iff_of_kind (h : v.kind ≠ .list) :
    v.HoldsNaN ↔ ∃ n, v = .number n ∧ n.isNaN = true := by
  constructor
  · rintro ⟨n, hholds, hn⟩
    cases hholds with
    | self => exact ⟨n, rfl, hn⟩
    | item => exact absurd rfl h
  · rintro ⟨n, rfl, hn⟩
    exact ⟨n, .self, hn⟩

theorem holdsNaN_list_iff {id : ListId} {items : List Value} :
    (Value.list id items).HoldsNaN ↔ ∃ v ∈ items, v.HoldsNaN := by
  constructor
  · rintro ⟨n, _ | ⟨hmem, hholds⟩, hn⟩
    exact ⟨_, hmem, n, hholds, hn⟩
  · rintro ⟨v, hmem, n, hholds, hn⟩
    exact ⟨n, .item hmem hholds, hn⟩

/-- Every value but NaN is identical to itself. -/
theorem identical_self_iff : v.identical v = true ↔ ∀ n, v = .number n → n.isNaN = false := by
  cases v with
  | number n =>
    rw [identical, Number.beq_self_iff]
    exact ⟨fun h m hm => Value.number.inj hm ▸ h, fun h => h n rfl⟩
  | string s => simp [identical]
  | bool b => simp [identical]
  | nil => simp [identical]
  | list id items => simp [identical]
  | function f => simp [identical, Func.same]

/-- By induction on the value: a list is like itself if its items are. -/
theorem alike_self_iff : v.alike v = true ↔ ¬ v.HoldsNaN := by
  induction v using inductionOnItems with
  | step v ih =>
    by_cases h : v.kind = .list
    · obtain ⟨id, items, rfl⟩ := exists_list_of_kind h
      rw [alike, allAlike_iff, List.forall₂_same, holdsNaN_list_iff]
      push Not
      exact forall₂_congr (ih id items rfl)
    · rw [← identical_eq_alike (.inl h), identical_self_iff, holdsNaN_iff_of_kind h]
      push Not
      simp only [Bool.not_eq_true]

/-- Identical values, if not lists, are alike, and so each of them is like itself; identical lists are
one value. -/
theorem alike_iff_of_identical (h : v.identical w = true)
    (hone : ∀ id items items', v = .list id items → w = .list id items' → items = items') :
    v.alike w = true ↔ ¬ v.HoldsNaN := by
  have hself : v.alike w = v.alike v := by
    by_cases hlist : v.kind ≠ .list ∨ w.kind ≠ .list
    · have hvw : v.alike w = true := identical_eq_alike hlist ▸ h
      rw [hvw, alike_trans hvw (alike_symm hvw)]
    · push Not at hlist
      obtain ⟨i, vs, rfl⟩ := exists_list_of_kind hlist.1
      obtain ⟨j, ws, rfl⟩ := exists_list_of_kind hlist.2
      obtain rfl : i = j := beq_iff_eq.1 h
      rw [hone i vs ws rfl rfl]
  rw [hself, alike_self_iff]

end Itself

end Value

/-! ## How the two are related -/

/-- Identical lists that one comes across in a session, at whatever moments, have the same items. -/
theorem Session.Reachable.items_eq {S : Session} (hS : S.Reachable) {α : Type} {task : Task α}
    {s : State} (h : S.Starts task s) {m n : ListId} {i j : ListId} {items items' : List Value}
    (hv : S.Meets task s m (.list i items)) (hw : S.Meets task s n (.list j items'))
    (hij : (Value.list i items).identical (.list j items') = true) : items = items' := by
  obtain ⟨made, hrecorded⟩ := hS.recorded
  obtain ⟨made', -, hmeets⟩ := hrecorded.of_meets h
  obtain rfl : i = j := beq_iff_eq.1 hij
  exact (hmeets m _ hv).recordedIn.items_eq (hmeets n _ hw).recordedIn

/-- **What the two equalities have in common, and where they part.**  Both are symmetric and
transitive, and unless both values are lists they are one.  Numbers are equal if they have the same
value, which NaN has not.  So a value is identical to itself unless it is NaN, and like itself unless
it holds NaN.  Identical values are alike unless they hold NaN, provided that lists with one number
have the same items.  In a session they have: of all that one comes across there, and in any
evaluation that its host can start, identical lists have the same items. -/
theorem equalities_related :
    (∀ v w : Value, v.identical w = w.identical v ∧ v.alike w = w.alike v) ∧
    (∀ u v w : Value,
      (u.identical v = true → v.identical w = true → u.identical w = true) ∧
        (u.alike v = true → v.alike w = true → u.alike w = true)) ∧
    (∀ v w : Value, v.kind ≠ .list ∨ w.kind ≠ .list → v.identical w = v.alike w) ∧
    (∀ a b : Float, (Value.number a).identical (.number b) = true ↔
      ∃ q, Number.extended a = some q ∧ Number.extended b = some q) ∧
    (∀ v : Value, (v.identical v = true ↔ ∀ n, v = .number n → n.isNaN = false) ∧
      (v.alike v = true ↔ ¬ v.HoldsNaN)) ∧
    (∀ v w : Value, v.identical w = true →
      (∀ id items items', v = .list id items → w = .list id items' → items = items') →
      (v.alike w = true ↔ ¬ v.HoldsNaN)) ∧
    (∀ S : Session, S.Reachable → ∀ {α : Type} (task : Task α) (s : State), S.Starts task s →
      ∀ (m n : ListId) (v w : Value), S.Meets task s m v → S.Meets task s n w →
        v.identical w = true →
        (∀ i items j items', v = .list i items → w = .list j items' → items = items') ∧
          (v.alike w = true ↔ ¬ v.HoldsNaN)) := by
  refine ⟨fun v w => ⟨v.identical_comm w, v.alike_comm w⟩,
    fun u v w => ⟨Value.identical_trans, Value.alike_trans⟩, fun v w => Value.identical_eq_alike,
    fun a b => Number.beq_iff, fun v => ⟨Value.identical_self_iff, Value.alike_self_iff⟩,
    fun v w => Value.alike_iff_of_identical, ?_⟩
  intro S hS α task s h m n v w hv hw hvw
  have hone : ∀ i items j items', v = .list i items → w = .list j items' → items = items' := by
    rintro i items j items' rfl rfl
    exact hS.items_eq h hv hw hvw
  exact ⟨hone, Value.alike_iff_of_identical hvw fun id items items' => hone id items id items'⟩

/-- The host makes a list of one NaN, which is identical to itself, but not alike. -/
theorem equalities_related_nan :
    let v : Value := .list 0 [.number (0 / 0)]
    let S : Session := {
      interpreter := .new .new .interpret .waray .empty (.terminal "") none ⟨1⟩
      envs := [.empty]
      values := [v] }
    S.Reachable ∧ S.Starts (.program []) S.interpreter.state ∧ v.identical v = true ∧ v.HoldsNaN ∧
      v.alike v = false ∧ Value.nil.identical v = Value.nil.alike v ∧
      (Value.nil.alike .nil = true ↔ ¬ Value.nil.HoldsNaN) ∧
      (Value.number 0).identical (.number (-0)) = true ∧
      (Value.number (-0)).identical (.number 0) = true ∧
      (Value.number 0).identical (.number 0) = true := by
  intro v S
  have hS : S.Reachable := .step (.start .new .interpret .waray (.terminal "") none)
    (.makeList (List.forall_mem_singleton.2 (.plain nofun)))
  have hstart : S.Starts (.program []) S.interpreter.state := .program []
  have hmet : S.Meets (.program []) S.interpreter.state 1 v :=
    .found (.kept (List.mem_singleton.2 rfl))
  have hnan : v.HoldsNaN := ⟨0 / 0, .item (List.mem_singleton.2 rfl) .self, by decide +kernel⟩
  have hzero : (Value.number 0).identical (.number (-0)) = true := by decide +kernel
  have hzero' : (Value.number (-0)).identical (.number 0) = true := by decide +kernel
  obtain ⟨-, htrans, hplain, -, -, hone, hsession⟩ := equalities_related
  obtain ⟨-, halike⟩ := hsession S hS (.program []) _ hstart 1 1 v v hmet hmet rfl
  exact ⟨hS, hstart, rfl, hnan, Bool.eq_false_iff.2 fun h => halike.1 h hnan,
    hplain .nil v (.inl nofun), hone .nil .nil rfl nofun, hzero, hzero',
    (htrans _ _ _).1 hzero hzero'⟩

end BindOnce

import BindOnce.Proofs.Carried
import BindOnce.Proofs.Holds
import BindOnce.Proofs.Moments
import BindOnce.Proofs.Termination

/-!
# The ledger of lists

Lists are numbered as they are made and never change, so one may think of a ledger in which the
items of every list are entered, the list number `k` in line `k`.  Nobody keeps such a ledger.  It
serves to say what it means that a number stands for a list: whatever list one comes across, its
items are those that the ledger has for its number.

At the end of an evaluation the ledger is longer, and what was entered before is still there.  So
all that has been at hand at some moment of the evaluation agrees with the ledger at the end, and
things that were at hand at different moments can be compared.

## What is here

* `Value.RecordedIn`, `State.RecordedIn` — the ledger has all lists in a value, in a state.
* `Moment.AtHand` — the values that are there at a moment, or as the result of the next step.
* `Ends.recorded` — evaluation only comes across lists that the ledger at its end has.
-/

set_option autoImplicit false
namespace BindOnce

/-! ## Lists on record -/

/-- All lists that the value holds have the items that the ledger has for their number. -/
def Value.RecordedIn (made : List (List Value)) (v : Value) : Prop :=
  ∀ (id : ListId) (items : List Value), v.Holds (.list id items) → made[id]? = some items

/-- The value was on record when so many lists had been made. -/
def Value.RecordedAt (made : List (List Value)) (n : ListId) (v : Value) : Prop :=
  ∃ before, before <+: made ∧ before.length = n ∧ v.RecordedIn before

/-- The ledger is up to date, and all that names are bound to is on record. -/
structure State.RecordedIn (made : List (List Value)) (s : State) : Prop where
  length : made.length = s.lists.next
  env : s.env.Carries (·.RecordedIn made)

section Recorded

variable {made made' : List (List Value)} {v w : Value} {id : ListId} {items items' : List Value}

theorem Value.RecordedIn.mono (h : v.RecordedIn made) (hle : made <+: made') :
    v.RecordedIn made' := by
  intro id items hv
  obtain ⟨hlt, hitems⟩ := List.getElem?_eq_some_iff.1 (h id items hv)
  rw [List.prefix_iff_getElem?.1 hle id hlt, hitems]

theorem Value.RecordedIn.of_holds (h : v.RecordedIn made) (hv : v.Holds w) : w.RecordedIn made :=
  fun id items hw => h id items (hv.trans hw)

theorem Value.RecordedIn.lt_length (h : (Value.list id items).RecordedIn made) : id < made.length :=
  (List.getElem?_eq_some_iff.1 (h id items .self)).1

/-- One number, one list. -/
theorem Value.RecordedIn.items_eq (h : (Value.list id items).RecordedIn made)
    (h' : (Value.list id items').RecordedIn made) : items = items' :=
  Option.some.inj ((h id items .self).symm.trans (h' id items' .self))

theorem Value.recordedIn_hereditary (made : List (List Value)) :
    Value.Hereditary (·.RecordedIn made) where
  of_kind v hv id items hholds := by
    cases hholds with
    | self => exact absurd rfl hv
    | item _ _ => exact absurd rfl hv
  item h v hv id items hholds := h id items (.item hv hholds)

theorem Env.Carries.recordedIn_mono {env : Env} (h : env.Carries (·.RecordedIn made))
    (hle : made <+: made') : env.Carries (·.RecordedIn made') :=
  fun x v hv => (h x v hv).mono hle

/-- A list that is made is entered. -/
theorem Value.recordedIn_make (h : ∀ v ∈ items, v.RecordedIn made) :
    (Value.list made.length items).RecordedIn (made ++ [items]) := by
  intro id items' hholds
  cases hholds with
  | self => exact List.getElem?_concat_length
  | item hmem hholds => exact (h _ hmem).mono (List.prefix_append made [items]) _ _ hholds

theorem Value.RecordedIn.recordedAt (h : v.RecordedIn made) (hle : made <+: made') {n : ListId}
    (hn : made.length = n) : v.RecordedAt made' n :=
  ⟨made, hle, hn, h⟩

theorem Value.RecordedAt.mono {n : ListId} (h : v.RecordedAt made n) (hle : made <+: made') :
    v.RecordedAt made' n :=
  let ⟨before, hbefore, hn, hv⟩ := h
  ⟨before, hbefore.trans hle, hn, hv⟩

theorem Value.RecordedAt.of_holds {n : ListId} (h : v.RecordedAt made n) (hv : v.Holds w) :
    w.RecordedAt made n :=
  let ⟨before, hbefore, hn, h⟩ := h
  ⟨before, hbefore, hn, h.of_holds hv⟩

theorem Value.RecordedAt.recordedIn {n : ListId} (h : v.RecordedAt made n) : v.RecordedIn made :=
  let ⟨_, hbefore, _, hv⟩ := h
  hv.mono hbefore

end Recorded

/-! ## States -/

section States

variable {made made' : List (List Value)} {s t : State}

theorem State.RecordedIn.makeList (hs : s.RecordedIn made) {items : List Value}
    (h : ∀ v ∈ items, v.RecordedIn made) :
    (s.lists.make items).1.RecordedIn (made ++ [items]) ∧
      { s with lists := (s.lists.make items).2 }.RecordedIn (made ++ [items]) := by
  refine ⟨?_, ?_, hs.env.recordedIn_mono (List.prefix_append _ _)⟩
  · rw [ListSupply.make, ← hs.length]
    exact Value.recordedIn_make h
  · rw [List.length_append, hs.length]
    rfl

theorem State.RecordedIn.bind (hs : s.RecordedIn made) {x : Name} {v : Value} {env : Env}
    (hv : v.RecordedIn made) (hb : s.env.bind? x v = some env) :
    { s with env := env }.RecordedIn made := by
  refine ⟨hs.length, fun y w hy => ?_⟩
  rw [Env.lookup_of_bind? hb] at hy
  split at hy
  · cases hy
    exact hv
  · exact hs.env y w hy

theorem State.RecordedIn.entered (hs : s.RecordedIn made) (f : Func) {args : List Value}
    (stack : CallStack) (h : ∀ v ∈ args, v.RecordedIn made) :
    (s.entered f args stack).RecordedIn made :=
  ⟨hs.length, hs.env.overlay f h⟩

theorem State.RecordedIn.left (hs : s.RecordedIn made) (ht : t.RecordedIn made')
    (hle : made <+: made') : (s.left t).RecordedIn made' :=
  ⟨ht.length, hs.env.recordedIn_mono hle⟩

end States

/-! ## What is at hand -/

/-- Carrying out the first step of the plan from the first state makes a list, or gets a result from
a task or a function, in which the value is, and leaves the second state. -/
inductive Plan.Gives (interner : Interner) {α : Type} : Plan α → State → Value → State → Prop where
  | made {items : List Value} {next : Value → Plan α} {s : State} :
    Gives interner (.makeList items next) s (s.lists.make items).1
      { s with lists := (s.lists.make items).2 }
  | result {β : Type} {task : Task β} {next : β → Plan α} {s t : State} {b : β} {v : Value} :
    Ends interner (task.plan interner) s (.ok b) t → v ∈ task.resultValues b →
    Gives interner (.ask task next) s v t
  | returned {f : Func} {args : List Value} {line : Line} {next : Value → Plan α} {s t : State}
      {stack : CallStack} {v : Value} :
    s.stack.push ⟨f.name, line⟩ = .ok stack →
    Ends interner ((Task.body f.decl.body).plan interner) (s.entered f args stack) (.ok v) t →
    Gives interner (.enter f args line next) s v t

namespace Plan.Gives

variable {interner : Interner} {α β : Type} {s t u : State} {v : Value}

theorem of_ask {task : Task β} {next : β → Plan α} {b : β}
    (h : (Plan.ask task next).Gives interner s v u)
    (hends : Ends interner (task.plan interner) s (.ok b) t) : v ∈ task.resultValues b ∧ u = t := by
  cases h with
  | result hends' hv =>
    obtain ⟨hb, rfl⟩ := hends.unique hends'
    cases hb
    exact ⟨hv, rfl⟩

theorem not_of_askFails {task : Task β} {next : β → Plan α} {e : Failure}
    (hends : Ends interner (task.plan interner) s (.error e) t) :
    ¬ (Plan.ask task next).Gives interner s v u := by
  rintro (_ | ⟨hends', -⟩)
  cases (hends.unique hends').1

section Enter

variable {f : Func} {args : List Value} {line : Line} {next : Value → Plan α} {stack : CallStack}

theorem of_enter {w : Value} (h : (Plan.enter f args line next).Gives interner s v u)
    (hpush : s.stack.push ⟨f.name, line⟩ = .ok stack)
    (hends : Ends interner ((Task.body f.decl.body).plan interner) (s.entered f args stack) (.ok w)
      t) : v = w ∧ u = t := by
  cases h with
  | returned hpush' hends' =>
    cases hpush.symm.trans hpush'
    obtain ⟨hw, rfl⟩ := hends.unique hends'
    cases hw
    exact ⟨rfl, rfl⟩

theorem not_of_enterFails {e : Failure} (hpush : s.stack.push ⟨f.name, line⟩ = .ok stack)
    (hends : Ends interner ((Task.body f.decl.body).plan interner) (s.entered f args stack)
      (.error e) t) : ¬ (Plan.enter f args line next).Gives interner s v u := by
  rintro (_ | _ | ⟨hpush', hends'⟩)
  cases hpush.symm.trans hpush'
  cases (hends.unique hends').1

theorem not_of_refused {e : Failure} (hpush : s.stack.push ⟨f.name, line⟩ = .error e) :
    ¬ (Plan.enter f args line next).Gives interner s v u := by
  rintro (_ | _ | ⟨hpush', -⟩)
  cases hpush.symm.trans hpush'

end Enter

end Plan.Gives

/-- The value is at hand at a moment when the numbering of lists has come to the given number: it is
bound in the environment in use, or is worked on by the next step, or is what that step results
in. -/
inductive Moment.AtHand (interner : Interner) (m : Moment) : ListId → Value → Prop where
  | bound {x : Name} {v : Value} :
    m.state.env.lookup x = some v → AtHand interner m m.state.lists.next v
  | used {v : Value} : v ∈ m.plan.stepValues → AtHand interner m m.state.lists.next v
  | given {v : Value} {t : State} :
    m.plan.Gives interner m.state v t → AtHand interner m t.lists.next v

/-- All that is at hand at the moment is on record, and was when the numbering had come so far. -/
def Moment.Recorded (interner : Interner) (made : List (List Value)) (m : Moment) : Prop :=
  ∀ (n : ListId) (v : Value), m.AtHand interner n v → v.RecordedAt made n

section Moments

variable {interner : Interner} {made made' : List (List Value)} {α : Type} {p : Plan α}
  {s t : State} {r : Except Failure α}

theorem Moment.Recorded.mono {m : Moment} (h : m.Recorded interner made) (hle : made <+: made') :
    m.Recorded interner made' :=
  fun n v hv => (h n v hv).mono hle

/-- What is bound and what is worked on is on record, so only results have to be looked at. -/
theorem Moment.recorded_of_gives {R : List (List Value) → α → Prop} (hs : s.RecordedIn made)
    (hp : ∀ later, made <+: later → p.Carries (·.RecordedIn later) (R later)) (hle : made <+: made')
    (hgives : ∀ v t, p.Gives interner s v t → v.RecordedAt made' t.lists.next) :
    Moment.Recorded interner made' ⟨p, s⟩ := by
  intro n v hv
  cases hv with
  | bound hx => exact (hs.env _ v hx).recordedAt hle hs.length
  | used hv => exact ((hp made (List.prefix_refl made)).stepValues v hv).recordedAt hle hs.length
  | given hv => exact hgives v _ hv

/-- **Evaluation only comes across lists on record.**  The ledger grows from what it is at the start
to what it is at the end, where it has all that is bound, the result, and all that was at hand at
any moment.  The plan has to make do with every longer ledger, because it may not know yet what will
be made.  The induction is on how the plan ends. -/
theorem Ends.recorded {R : List (List Value) → α → Prop} (h : Ends interner p s r t)
    (hp : ∀ later, made <+: later → p.Carries (·.RecordedIn later) (R later))
    (hs : s.RecordedIn made) :
    ∃ made', made <+: made' ∧ t.RecordedIn made' ∧ (∀ a, r = .ok a → R made' a) ∧
      Throughout interner p s (Moment.Recorded interner made') := by
  have hrefl (made : List (List Value)) : made <+: made := List.prefix_refl made
  induction h generalizing made with
  | done =>
    refine ⟨made, hrefl made, hs, ?_, .done (Moment.recorded_of_gives hs hp (hrefl made) nofun)⟩
    rintro a rfl
    exact hp made (hrefl made)
  | readEnv _ ih =>
    obtain ⟨made', hle, ht, hr, hall⟩ := ih
      (fun later hle => hp later hle _ (hs.env.recordedIn_mono hle)) hs
    exact ⟨made', hle, ht, hr, .readEnv (Moment.recorded_of_gives hs hp hle nofun) hall⟩
  | @makeList α items next s t r _ ih =>
    -- the new list gets the next line of the ledger
    obtain ⟨hlist, hs'⟩ := hs.makeList (hp made (hrefl made)).1
    have hmade := List.prefix_append made [items]
    obtain ⟨made', hle, ht, hr, hall⟩ := ih
      (fun later hle => (hp later (hmade.trans hle)).2 _ (hlist.mono hle)) hs'
    refine ⟨made', hmade.trans hle, ht, hr, .makeList
      (Moment.recorded_of_gives hs hp (hmade.trans hle) ?_) hall⟩
    rintro v u ⟨⟩
    exact hlist.recordedAt hle hs'.length
  | printLine _ ih =>
    obtain ⟨made', hle, ht, hr, hall⟩ := ih hp ⟨hs.length, hs.env⟩
    exact ⟨made', hle, ht, hr, .printLine (Moment.recorded_of_gives hs hp hle nofun) hall⟩
  | bindOr hb _ ih =>
    obtain ⟨made', hle, ht, hr, hall⟩ := ih (fun later hle => (hp later hle).2)
      (hs.bind (hp made (hrefl made)).1 hb)
    exact ⟨made', hle, ht, hr, .bindOr (Moment.recorded_of_gives hs hp hle nofun) hb hall⟩
  | bound hb =>
    exact ⟨made, hrefl made, hs, nofun,
      .bound (Moment.recorded_of_gives hs hp (hrefl made) nofun) hb⟩
  | @ask α β task next s t u b r h _ ih₁ ih₂ =>
    obtain ⟨made₁, hle₁, ht, hresult, hall₁⟩ := ih₁
      (R := fun later b => ∀ v ∈ task.resultValues b, v.RecordedIn later)
      (fun later hle =>
        Task.plan_carries (Value.recordedIn_hereditary later) interner (hp later hle).1) hs
    have hresult := hresult b rfl
    obtain ⟨made₂, hle₂, hu, hr, hall₂⟩ := ih₂
      (fun later hle => (hp later (hle₁.trans hle)).2 b fun v hv => (hresult v hv).mono hle) ht
    refine ⟨made₂, hle₁.trans hle₂, hu, hr, .ask
      (Moment.recorded_of_gives hs hp (hle₁.trans hle₂) fun v u hv => ?_) h
      (hall₁.mono fun m hm => hm.mono hle₂) hall₂⟩
    obtain ⟨hv, rfl⟩ := hv.of_ask h
    exact (hresult v hv).recordedAt hle₂ ht.length
  | @askFails α β task next s t e h ih =>
    obtain ⟨made', hle, ht, -, hall⟩ := ih
      (R := fun later b => ∀ v ∈ task.resultValues b, v.RecordedIn later)
      (fun later hle =>
        Task.plan_carries (Value.recordedIn_hereditary later) interner (hp later hle).1) hs
    exact ⟨made', hle, ht, nofun, .askFails
      (Moment.recorded_of_gives hs hp hle fun v u hv => absurd hv (Plan.Gives.not_of_askFails h))
      h hall⟩
  | @enter α f args line next s t u stack v r hpush h _ ih₁ ih₂ =>
    obtain ⟨made₁, hle₁, ht, hv, hall₁⟩ := ih₁ (R := fun later v => v.RecordedIn later)
      (fun later _ => f.body_carries (Value.recordedIn_hereditary later) interner)
      (hs.entered f stack (hp made (hrefl made)).1)
    have hv := hv v rfl
    obtain ⟨made₂, hle₂, hu, hr, hall₂⟩ := ih₂
      (fun later hle => (hp later (hle₁.trans hle)).2 v (hv.mono hle)) (hs.left ht hle₁)
    refine ⟨made₂, hle₁.trans hle₂, hu, hr, .enter
      (Moment.recorded_of_gives hs hp (hle₁.trans hle₂) fun w u hw => ?_) hpush h
      (hall₁.mono fun m hm => hm.mono hle₂) hall₂⟩
    obtain ⟨rfl, rfl⟩ := hw.of_enter hpush h
    exact hv.recordedAt hle₂ ht.length
  | @enterFails α f args line next s t stack e hpush h ih =>
    obtain ⟨made', hle, ht, -, hall⟩ := ih (R := fun later v => v.RecordedIn later)
      (fun later _ => f.body_carries (Value.recordedIn_hereditary later) interner)
      (hs.entered f stack (hp made (hrefl made)).1)
    exact ⟨made', hle, hs.left ht hle, nofun, .enterFails (Moment.recorded_of_gives hs hp hle
      fun v u hv => absurd hv (Plan.Gives.not_of_enterFails hpush h)) hpush h hall⟩
  | refused hpush =>
    exact ⟨made, hrefl made, hs, nofun, .refused (Moment.recorded_of_gives hs hp (hrefl made)
      fun v u hv => absurd hv (Plan.Gives.not_of_refused hpush)) hpush⟩
  | onLine _ ih =>
    obtain ⟨made', hle, ht, hr, hall⟩ := ih hp hs
    exact ⟨made', hle, ht, hr, .onLine (Moment.recorded_of_gives hs hp hle nofun) hall⟩
  | onLineFails _ ih =>
    obtain ⟨made', hle, ht, -, hall⟩ := ih hp hs
    exact ⟨made', hle, ht, nofun, .onLine (Moment.recorded_of_gives hs hp hle nofun) hall⟩

/-- A task about values on record. -/
theorem Task.recorded (task : Task α) (interner : Interner)
    (h : ∀ v ∈ task.givenValues, v.RecordedIn made) (hs : s.RecordedIn made) :
    ∃ made', made <+: made' ∧ (task.run interner s).2.RecordedIn made' ∧
      ∀ a, (task.run interner s).1 = .ok a → ∀ v ∈ task.resultValues a, v.RecordedIn made' := by
  obtain ⟨made', hle, ht, hr, -⟩ := (task.ends_run s).recorded
    (fun later hle => Task.plan_carries (Value.recordedIn_hereditary later) interner
      fun v hv => (h v hv).mono hle) hs
  exact ⟨made', hle, ht, hr⟩

end Moments

end BindOnce

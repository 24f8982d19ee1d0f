import BindOnce.Proofs.MatchingSteps

/-!
# Matching evaluations go hand in hand

Two evaluations that start from matching states, and whose plans take matching steps, end with
matching results in matching states.  The proof is one induction on how the first of them ends; that
the second one ends in some way is not in question.

## What is here

* `EndsUnder.hand_in_hand` — for plans, with parentheses left out on both sides.
* `Task.Matches.hand_in_hand` — for everything that can be evaluated.
* `Value.map`, `Value.Matches.map_eq` — matching as an equation, when the numbers of lists and the
  functions of both sides are taken to the same ones.
* `Matching.Rigid` — matchings of equal things; then matching results are equal.
-/

set_option autoImplicit false
namespace BindOnce

section HandInHand

variable {M : Matching} {interner interner' : Interner} {α : Type}

/-- **Matching plans end alike.**  The induction is on how the first plan ends, for all plans and
states that match its own. -/
theorem EndsUnder.hand_in_hand (hM : M.Lawful interner interner') {p p' : Plan α}
    {s s' t t' : State} {r r' : Except Failure α} {R : α → α → Prop}
    (h : EndsUnder (.bare interner) p s r t) (hp : Plan.Matches M R p p')
    (hs : State.Matches M s s') (h' : EndsUnder (.bare interner') p' s' r' t') :
    ResultsMatch M R r r' ∧ State.Matches M t t' := by
  induction h generalizing s' t' with
  | done =>
    cases hp with
    | done hr =>
      cases h'
      exact ⟨hr, hs⟩
  | readEnv _ ih =>
    cases hp with
    | readEnv hnext => cases h' with | readEnv h' => exact ih (hnext _ _ hs.env) hs h'
  | makeList _ ih =>
    cases hp with
    | makeList hitems hnext =>
      cases h' with
      | makeList h' =>
        obtain ⟨hlist, hs⟩ := hs.makeList hM hitems
        exact ih (hnext _ _ hlist) hs h'
  | printLine _ ih =>
    cases hp with
    | printLine hnext =>
      cases h' with
      | printLine h' => exact ih hnext (hs.printLine hM _) h'
  | bindOr hb _ ih =>
    cases hp with
    | bindOr _ hx hv hnext =>
      -- the name is free on both sides or on neither, so the two plans take the same rule
      cases h' with
      | bindOr hb' h' => exact ih hnext (hs.bind hM hx hv hb hb') h'
      | bound hb' => exact absurd hb' (hs.bind?_ne_none hx hb)
  | bound hb =>
    cases hp with
    | bindOr hcause hx hv _ =>
      cases h' with
      | bindOr hb' _ => cases (hs.bind?_eq_none hx hb).symm.trans hb'
      | bound _ => exact ⟨.error (.of_isNew ⟨rfl, hcause⟩), hs⟩
  | ask _ _ ih₁ ih₂ =>
    cases hp with
    | ask htask hnext =>
      cases h' with
      | ask h₁ h₂ =>
        obtain ⟨hr, ht⟩ := ih₁ (htask.plan hM) hs h₁
        cases hr with
        | ok hb => exact ih₂ (hnext _ _ hb) ht h₂
      | askFails h₁ => cases (ih₁ (htask.plan hM) hs h₁).1
  | askFails _ ih =>
    cases hp with
    | ask htask _ =>
      cases h' with
      | ask h₁ _ => cases (ih (htask.plan hM) hs h₁).1
      | askFails h₁ =>
        obtain ⟨hr, ht⟩ := ih (htask.plan hM) hs h₁
        cases hr with
        | error he => exact ⟨.error he, ht⟩
  | enter hpush _ _ ih₁ ih₂ =>
    cases hp with
    | enter hf hargs _ hnext =>
      have hbody := (Task.Matches.body (hM.func hf).body).plan hM
      cases h' with
      | enter hpush' h₁ h₂ =>
        obtain ⟨hr, ht⟩ := ih₁ hbody (hs.entered hM hf hargs hpush hpush') h₁
        cases hr with
        | ok hv => exact ih₂ (hnext _ _ hv) (hs.left ht) h₂
      | enterFails hpush' h₁ => cases (ih₁ hbody (hs.entered hM hf hargs hpush hpush') h₁).1
      | refused hpush' => exact absurd hpush' (hs.push_ne_error hpush)
  | enterFails hpush _ ih =>
    cases hp with
    | enter hf hargs _ _ =>
      have hbody := (Task.Matches.body (hM.func hf).body).plan hM
      cases h' with
      | enter hpush' h₁ _ => cases (ih hbody (hs.entered hM hf hargs hpush hpush') h₁).1
      | enterFails hpush' h₁ =>
        obtain ⟨hr, ht⟩ := ih hbody (hs.entered hM hf hargs hpush hpush') h₁
        cases hr with
        | error he => exact ⟨.error he, hs.left ht⟩
      | refused hpush' => exact absurd hpush' (hs.push_ne_error hpush)
  | refused hpush =>
    cases hp with
    | enter hf _ hline _ =>
      cases h' with
      | enter hpush' _ _ => exact absurd hpush' (hs.push_ne_ok hpush)
      | enterFails hpush' _ => exact absurd hpush' (hs.push_ne_ok hpush)
      | refused hpush' =>
        -- the one failure that mentions a line: that of the call
        cases CallStack.eq_exceeded_of_push hpush
        cases CallStack.eq_exceeded_of_push hpush'
        rw [(hM.func hf).name]
        exact ⟨.error (hs.exceeded hline), hs⟩
  | onLine _ ih =>
    cases hp with
    | onLine _ hrest =>
      cases h' with
      | onLine h' =>
        obtain ⟨hr, ht⟩ := ih hrest hs h'
        cases hr with
        | ok ha => exact ⟨.ok ha, ht⟩
      | onLineFails h' => cases (ih hrest hs h').1
  | onLineFails _ ih =>
    cases hp with
    | onLine hline hrest =>
      cases h' with
      | onLine h' => cases (ih hrest hs h').1
      | onLineFails h' =>
        obtain ⟨hr, ht⟩ := ih hrest hs h'
        cases hr with
        | error he => exact ⟨.error ⟨he.cause, .cons hline he.trail⟩, ht⟩

/-- **Matching evaluations go hand in hand.** -/
theorem Task.Matches.hand_in_hand (hM : M.Lawful interner interner') {task task' : Task α}
    (htask : Task.Matches M task task') {s s' : State} (hs : State.Matches M s s') :
    ResultsMatch M (M.result task) (task.run interner s).1 (task'.run interner' s').1 ∧
      State.Matches M (task.run interner s).2 (task'.run interner' s').2 := by
  have h : EndsUnder (.bare interner) (task.bare.plan interner) s (task.run interner s).1 _ :=
    (task.ends_run s).endsUnder_bare
  exact h.hand_in_hand hM (htask.plan hM) hs (task'.ends_run s').endsUnder_bare

end HandInHand

/-! ## Matching as an equation -/

/-- If only equal lines match, matching failures are equal. -/
theorem Failure.Matches.eq {M : Matching} (hline : ∀ {l l' : Line}, M.line l l' → l = l')
    {e e' : Failure} (h : Failure.Matches M e e') : e = e' := by
  obtain ⟨cause, trail⟩ := e
  obtain ⟨cause', trail'⟩ := e'
  obtain ⟨hcause, htrail⟩ := h
  have heq : trail = trail' := List.forall₂_eq_eq_eq ▸ htrail.imp fun _ _ => hline
  cases hcause with
  | same _ => rw [heq]
  | recursionLimit h => rw [heq, hline h]

namespace Value

mutual

/-- The value with other numbers for lists and other functions. -/
def map (list : ListId → ListId) (func : Func → Func) : Value → Value
  | .list id items => .list (list id) (mapAll list func items)
  | .function f => .function (func f)
  | v => v

/-- The values with other numbers for lists and other functions. -/
def mapAll (list : ListId → ListId) (func : Func → Func) : List Value → List Value
  | [] => []
  | v :: vs => v.map list func :: mapAll list func vs

end

mutual

theorem map_id : ∀ v : Value, v.map id id = v
  | .number _ | .string _ | .bool _ | .nil | .function _ => rfl
  | .list _ items => by rw [map, mapAll_id items, id]

theorem mapAll_id : ∀ vs : List Value, mapAll id id vs = vs
  | [] => rfl
  | v :: vs => by rw [mapAll, map_id v, mapAll_id vs]

end

section MapEq

variable {M : Matching} {list list' : ListId → ListId} {func func' : Func → Func}

mutual

/-- If what matches is taken to the same, then matching values are. -/
theorem Matches.map_eq (hlist : ∀ i i' : ListId, M.list i i' → list i = list' i')
    (hfunc : ∀ f f' : Func, M.func f f' → func f = func' f') :
    ∀ {v v' : Value}, Value.Matches M v v' → v.map list func = v'.map list' func'
  | _, _, .number _ | _, _, .string _ | _, _, .bool _ | _, _, .nil => rfl
  | _, _, .list hid hitems => by rw [map, map, hlist _ _ hid, Matches.mapAll_eq hlist hfunc hitems]
  | _, _, .function hf => by rw [map, map, hfunc _ _ hf]

theorem Matches.mapAll_eq (hlist : ∀ i i' : ListId, M.list i i' → list i = list' i')
    (hfunc : ∀ f f' : Func, M.func f f' → func f = func' f') :
    ∀ {vs vs' : List Value}, List.Forall₂ (Value.Matches M) vs vs' →
      mapAll list func vs = mapAll list' func' vs'
  | _, _, .nil => rfl
  | _, _, .cons hv hvs => by
    rw [mapAll, mapAll, Matches.map_eq hlist hfunc hv, Matches.mapAll_eq hlist hfunc hvs]

end

end MapEq

end Value

/-- Results match only if they are equal, if it is so for lines and for what good results are. -/
theorem ResultsMatch.eq {M : Matching} {α : Type} {R : α → α → Prop} {r r' : Except Failure α}
    (h : ResultsMatch M R r r') (hline : ∀ {l l' : Line}, M.line l l' → l = l')
    (hR : ∀ {a a' : α}, R a a' → a = a') : r = r' := by
  cases h with
  | ok ha => rw [hR ha]
  | error he => rw [he.eq hline]

/-! ## Matchings of equal things -/

/-- Only equal things stand for each other, as far as results can hold them. -/
structure Matching.Rigid (M : Matching) : Prop where
  name : ∀ {x x' : Name}, M.name x x' → x = x'
  line : ∀ {l l' : Line}, M.line l l' → l = l'
  list : ∀ {i i' : ListId}, M.list i i' → i = i'
  func : ∀ {f f' : Func}, M.func f f' → f = f'

namespace Matching.Rigid

variable {M : Matching}

theorem value_eq (hM : M.Rigid) {v v' : Value} (h : Value.Matches M v v') : v = v' := by
  rw [← v.map_id, ← v'.map_id]
  exact h.map_eq (fun _ _ => hM.list) fun _ _ => hM.func

theorem values_eq (hM : M.Rigid) {vs vs' : List Value} (h : List.Forall₂ (Value.Matches M) vs vs') :
    vs = vs' :=
  List.forall₂_eq_eq_eq ▸ h.imp fun _ _ => hM.value_eq

theorem operand_eq (hM : M.Rigid) {o o' : Operand} (h : Operand.Matches M o o') : o = o' := by
  cases h with
  | @mention ident ident' hident =>
    obtain ⟨x, l⟩ := ident
    obtain ⟨x', l'⟩ := ident'
    have hname : x = x' := hM.name hident.name
    have hline : l = l' := hM.line hident.line
    rw [hname, hline]
  | value hv => rw [hM.value_eq hv]

theorem option_eq (hM : M.Rigid) {v v' : Option Value} (h : Option.Rel (Value.Matches M) v v') :
    v = v' := by
  cases h with
  | none => rfl
  | some hv => rw [hM.value_eq hv]

theorem result_eq (hM : M.Rigid) {α : Type} {task : Task α} {a a' : α} (h : M.result task a a') :
    a = a' := by
  cases task with
  | expr e => exact hM.operand_eq h
  | value e | operation op line left right | body ss | call f args line => exact hM.value_eq h
  | values es | arguments args => exact hM.values_eq h
  | stmt s | block ss => exact hM.option_eq h
  | program p => rfl

/-- Evaluations that match have the same result. -/
theorem results_eq (hM : M.Rigid) {α : Type} {task : Task α} {r r' : Except Failure α}
    (h : ResultsMatch M (M.result task) r r') : r = r' :=
  h.eq hM.line hM.result_eq

end Matching.Rigid

end BindOnce

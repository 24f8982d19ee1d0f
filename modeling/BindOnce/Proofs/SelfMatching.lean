import BindOnce.Proofs.HandInHand
import BindOnce.Proofs.ListLedger

/-!
# What matches itself

A matching that lets everything stand for itself, as long as it has some property, says that this
property is kept: whatever evaluation makes of things that match themselves matches itself again.
`Task.Matches.hand_in_hand` says so of how an evaluation ends.  This file says it of the moments
before.  The way from one moment to another leads along tasks that have ended, and over these
`Task.Matches.hand_in_hand` has spoken already, so there is no further induction on evaluations.

## What is here

* `Matching.OpensGroups` — an expression in parentheses may be taken out of them.
* `Proceeds.matches_self`, `Reaches.matches_self` — the plan and the state at a moment match
  themselves.
* `Moment.AtHand.matches_self` — so does all that is at hand.
-/

set_option autoImplicit false
namespace BindOnce

/-- What stands in parentheses that match themselves matches itself. -/
def Matching.OpensGroups (M : Matching) : Prop :=
  ∀ e : Expr Name, M.expr (.group e) (.group e) → M.expr e e

section SelfMatching

variable {M : Matching} {interner : Interner} {α β : Type} {s t : State}

/-- The steps of a task that matches itself, those that lead into parentheses included. -/
theorem Task.Matches.plan_self (hM : M.Lawful interner interner) (hgroups : M.OpensGroups)
    {task : Task α} (h : Task.Matches M task task) :
    Plan.Matches M (M.result task) (task.plan interner) (task.plan interner) := by
  have hbare : Plan.Matches M (M.result task) (task.bare.plan interner) (task.bare.plan interner) :=
    h.plan hM
  cases h with
  | @expr e _ he =>
    cases e with
    | group inner => exact .ask (.expr (hgroups inner he)) fun _ _ ho => .ok ho
    | _ => exact hbare
  | _ => exact hbare

theorem Ends.matches_self (hM : M.Lawful interner interner) {task : Task α} {r : Except Failure α}
    (h : Ends interner (task.plan interner) s r t) (htask : Task.Matches M task task)
    (hs : State.Matches M s s) : ResultsMatch M (M.result task) r r ∧ State.Matches M t t := by
  have hrun := htask.hand_in_hand hM hs
  rwa [Ends.iff_run.1 h] at hrun

/-! ## Moments -/

/-- **The rest of a plan matches itself**, and so does the state that has been come to. -/
theorem Proceeds.matches_self (hM : M.Lawful interner interner) {p q : Plan α} {R : α → α → Prop}
    (h : Proceeds interner p s q t) (hp : Plan.Matches M R p p) (hs : State.Matches M s s) :
    Plan.Matches M R q q ∧ State.Matches M t t := by
  induction h with
  | here => exact ⟨hp, hs⟩
  | readEnv _ ih =>
    cases hp with
    | readEnv hnext => exact ih (hnext _ _ hs.env) hs
  | makeList _ ih =>
    cases hp with
    | makeList hitems hnext =>
      obtain ⟨hlist, hs⟩ := hs.makeList hM hitems
      exact ih (hnext _ _ hlist) hs
  | printLine _ ih =>
    cases hp with
    | printLine hnext => exact ih hnext (hs.printLine hM _)
  | bindOr hb _ ih =>
    cases hp with
    | bindOr _ hx hv hnext => exact ih hnext (hs.bind hM hx hv hb hb)
  | ask h _ ih =>
    cases hp with
    | ask htask hnext =>
      obtain ⟨hr, ht⟩ := h.matches_self hM htask hs
      cases hr with
      | ok hb => exact ih (hnext _ _ hb) ht
  | enter hpush h _ ih =>
    cases hp with
    | enter hf hargs _ hnext =>
      obtain ⟨hr, ht⟩ := h.matches_self hM (.body (hM.func hf).body)
        (hs.entered hM hf hargs hpush hpush)
      cases hr with
      | ok hv => exact ih (hnext _ _ hv) (hs.left ht)
  | onLine _ ih =>
    cases hp with
    | onLine _ hrest => exact ih hrest hs

/-- **At every moment the plan and the state match themselves**, if they do at the start. -/
theorem Reaches.matches_self (hM : M.Lawful interner interner) (hgroups : M.OpensGroups)
    {p : Plan α} {q : Plan β} {calls : List ActiveCall} {R : α → α → Prop}
    (h : Reaches interner p s calls q t) (hp : Plan.Matches M R p p) (hs : State.Matches M s s) :
    (∃ R, Plan.Matches M R q q) ∧ State.Matches M t t := by
  induction h with
  | proceed h =>
    obtain ⟨hq, ht⟩ := h.matches_self hM hp hs
    exact ⟨⟨R, hq⟩, ht⟩
  | ask h _ ih =>
    obtain ⟨hq, ht⟩ := h.matches_self hM hp hs
    cases hq with
    | ask htask _ => exact ih (htask.plan_self hM hgroups) ht
  | enter h hpush _ ih =>
    obtain ⟨hq, ht⟩ := h.matches_self hM hp hs
    cases hq with
    | enter hf hargs _ _ =>
      exact ih ((Task.Matches.body (hM.func hf).body).plan_self hM hgroups)
        (ht.entered hM hf hargs hpush hpush)

/-! ## Values at hand -/

theorem Task.Matches.givenValues {task : Task α} (h : Task.Matches M task task) :
    ∀ v ∈ task.givenValues, Value.Matches M v v := by
  have hargs {args : List Argument} (h : List.Forall₂ (Argument.Matches M) args args) :
      ∀ v ∈ args.flatMap Argument.values, Value.Matches M v v := by
    intro v hv
    obtain ⟨arg, harg, hv⟩ := List.mem_flatMap.1 hv
    cases List.forall₂_same.1 h arg harg with
    | expr _ => cases hv
    | value hw => exact List.mem_singleton.1 hv ▸ hw
  cases h with
  | operation _ hl hr => exact List.forall_mem_cons.2 ⟨hl, List.forall_mem_singleton.2 hr⟩
  | arguments h => exact hargs h
  | call _ h _ => exact hargs h
  | _ => nofun

theorem Plan.Matches.stepValues {p : Plan α} {R : α → α → Prop} (h : Plan.Matches M R p p) :
    ∀ v ∈ p.stepValues, Value.Matches M v v := by
  cases h with
  | makeList hitems _ => exact List.forall₂_same.1 hitems
  | bindOr _ _ hv _ => exact List.forall_mem_singleton.2 hv
  | ask htask _ => exact htask.givenValues
  | enter _ hargs _ _ => exact List.forall₂_same.1 hargs
  | _ => nofun

theorem Matching.result_values {task : Task α} {a : α} (h : M.result task a a) :
    ∀ v ∈ task.resultValues a, Value.Matches M v v := by
  cases task with
  | expr e =>
    cases h with
    | mention _ => nofun
    | value hv => exact List.forall_mem_singleton.2 hv
  | value e | operation op line left right | body ss | call f args line =>
    exact List.forall_mem_singleton.2 h
  | values es | arguments args => exact List.forall₂_same.1 h
  | stmt s | block ss =>
    cases h with
    | none => nofun
    | some hv => exact List.forall_mem_singleton.2 hv
  | program p => nofun

theorem Plan.Gives.matches_self (hM : M.Lawful interner interner) {p : Plan α} {R : α → α → Prop}
    {v : Value} (h : p.Gives interner s v t) (hp : Plan.Matches M R p p)
    (hs : State.Matches M s s) : Value.Matches M v v := by
  cases h with
  | made =>
    cases hp with
    | makeList hitems _ => exact (hs.makeList hM hitems).1
  | result hends hv =>
    cases hp with
    | ask htask _ =>
      obtain ⟨hr, -⟩ := hends.matches_self hM htask hs
      cases hr with
      | ok hb => exact Matching.result_values hb v hv
  | returned hpush hends =>
    cases hp with
    | enter hf hargs _ _ =>
      obtain ⟨hr, -⟩ := hends.matches_self hM (.body (hM.func hf).body)
        (hs.entered hM hf hargs hpush hpush)
      cases hr with
      | ok hv => exact hv

/-- **All that is at hand at a moment matches itself**, bound or worked on or got as a result. -/
theorem Moment.AtHand.matches_self (hM : M.Lawful interner interner)
    (hname : ∀ x : Name, M.name x x) {m : Moment} {n : ListId} {v : Value}
    (h : m.AtHand interner n v) (hplan : ∃ R, Plan.Matches M R m.plan m.plan)
    (hs : State.Matches M m.state m.state) : Value.Matches M v v := by
  obtain ⟨R, hplan⟩ := hplan
  cases h with
  | @bound x v hx =>
    have hlookup := hs.env x x (hname x)
    rw [hx] at hlookup
    cases hlookup with
    | some hv => exact hv
  | used hv => exact hplan.stepValues v hv
  | given hv => exact hv.matches_self hM hplan hs

end SelfMatching
end BindOnce

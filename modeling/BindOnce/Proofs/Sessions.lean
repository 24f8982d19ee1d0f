import BindOnce.Interpreter
import BindOnce.Proofs.ListLedger

/-!
# Sessions

Whoever owns an interpreter runs programs with it, evaluates single expressions and statements and
calls functions in environments of choice, and keeps what comes out of it: values, environments, the
interpreter itself.  From these the host makes new values and environments, and these go into the
next evaluation.  So lists travel between evaluations in many ways.  What the host cannot do is make
up a list with a number of its own choice.

## What is here

* `Session` — the interpreter and what the host keeps; `Session.Finds` — the values that the host
  can get hold of.
* `Session.Starts` — the evaluations that the host can start.
* `Session.Step`, `Session.Reachable` — what the host can do, and the sessions this leads to.
* `Session.Reachable.recorded` — there is a ledger with all lists in a session.
-/

set_option autoImplicit false
namespace BindOnce

/-- An interpreter, with the environments and the values that its host keeps. -/
structure Session where
  interpreter : Interpreter
  envs : List Env := []
  values : List Value := []

namespace Session

/-- The host can get hold of the value: it is kept, or bound, or sits in a list that the host can
get hold of.  Values other than lists can be had at any time. -/
inductive Finds (S : Session) : Value → Prop where
  | kept {v : Value} : v ∈ S.values → Finds S v
  | program {x : Name} {v : Value} : S.interpreter.env.lookup x = some v → Finds S v
  | bound {env : Env} {x : Name} {v : Value} : env ∈ S.envs → env.lookup x = some v → Finds S v
  | held {v w : Value} : Finds S v → v.Holds w → Finds S w
  | plain {v : Value} : v.kind ≠ .list → Finds S v

/-- The host can start the evaluation of the task from the state. -/
inductive Starts (S : Session) : {α : Type} → Task α → State → Prop where
  /-- A program, in the program environment. -/
  | program (program : Program Name) : Starts S (.program program) S.interpreter.state
  /-- Something about values that the host can get hold of, in an environment that it keeps. -/
  | within {α : Type} {task : Task α} {env : Env} :
    env ∈ S.envs → (∀ v ∈ task.givenValues, S.Finds v) →
    Starts S task { S.interpreter.state with env := env }

/-- What the host can do. -/
inductive Step : Session → Session → Prop where
  /-- Run a program. -/
  | run {S : Session} (program : Program Name) :
    Step S { S with interpreter := (S.interpreter.run program).2 }
  /-- Evaluate something, and keep the environment that it leaves and what it results in. -/
  | evaluate {S : Session} {α : Type} {task : Task α} {env env' : Env} {r : Except Failure α}
      {i : Interpreter} {results : List Value} :
    env ∈ S.envs → (∀ v ∈ task.givenValues, S.Finds v) →
    S.interpreter.within env (task.run S.interpreter.interner) = (r, env', i) →
    (∀ v ∈ results, ∃ a, r = .ok a ∧ v ∈ task.resultValues a) →
    Step S { interpreter := i, envs := env' :: S.envs, values := results ++ S.values }
  /-- Make a list. -/
  | makeList {S : Session} {items : List Value} : (∀ v ∈ items, S.Finds v) →
    Step S
      { S with
        interpreter :=
          { S.interpreter with
            state := { S.interpreter.state with
              lists := (S.interpreter.state.lists.make items).2 } }
        values := (S.interpreter.state.lists.make items).1 :: S.values }
  /-- Make an environment. -/
  | makeEnv {S : Session} {env : Env} :
    (∀ (x : Name) (v : Value), env.lookup x = some v → S.Finds v) →
    Step S { S with envs := env :: S.envs }
  /-- Go on with another interpreter, and keep the program environment of the old one. -/
  | replace {S : Session} {env : Env} (interner : Interner) (mode : Mode) (lang : Lang)
      (channel : Channel) (limit : Option Nat) :
    env ∈ S.envs →
    Step S
      { S with
        interpreter := .new interner mode lang env channel limit S.interpreter.state.lists
        envs := S.interpreter.env :: S.envs }
  /-- Have a failure reported, or turn to another channel. -/
  | setChannel {S : Session} (channel : Channel) :
    Step S { S with interpreter := S.interpreter.setChannel channel }

/-- The session comes out of a new one. -/
inductive Reachable : Session → Prop where
  | start (interner : Interner) (mode : Mode) (lang : Lang) (channel : Channel)
      (limit : Option Nat) :
    Reachable { interpreter := .new interner mode lang .empty channel limit, envs := [.empty] }
  | step {S S' : Session} : Reachable S → Step S S' → Reachable S'

/-! ## The ledger of a session -/

/-- The ledger is up to date, and all that is kept or bound is on record. -/
structure RecordedIn (made : List (List Value)) (S : Session) : Prop where
  program : S.interpreter.state.RecordedIn made
  envs : ∀ env ∈ S.envs, env.Carries (·.RecordedIn made)
  values : ∀ v ∈ S.values, v.RecordedIn made

section Recorded

variable {made made' : List (List Value)} {S S' : Session}

/-- So is all that the host can get hold of. -/
theorem RecordedIn.of_finds (hS : S.RecordedIn made) {v : Value} (h : S.Finds v) :
    v.RecordedIn made := by
  induction h with
  | kept hv => exact hS.values _ hv
  | program hx => exact hS.program.env _ _ hx
  | bound henv hx => exact hS.envs _ henv _ _ hx
  | held _ hw ih => exact ih.of_holds hw
  | plain hv => exact (Value.recordedIn_hereditary made).of_kind _ hv

theorem RecordedIn.envs_mono (hS : S.RecordedIn made) (hle : made <+: made') :
    ∀ env ∈ S.envs, env.Carries (·.RecordedIn made') :=
  fun env henv => (hS.envs env henv).recordedIn_mono hle

theorem RecordedIn.values_mono (hS : S.RecordedIn made) (hle : made <+: made') :
    ∀ v ∈ S.values, v.RecordedIn made' :=
  fun v hv => (hS.values v hv).mono hle

/-- An evaluation that the host can start is about what is on record. -/
theorem RecordedIn.of_starts (hS : S.RecordedIn made) {α : Type} {task : Task α} {s : State}
    (h : S.Starts task s) :
    s.RecordedIn made ∧ ∀ v ∈ task.givenValues, v.RecordedIn made := by
  cases h with
  | program program => exact ⟨hS.program, nofun⟩
  | within henv hgiven =>
    exact ⟨⟨hS.program.length, hS.envs _ henv⟩, fun v hv => hS.of_finds (hgiven v hv)⟩

/-- **Whatever the host does, there is a ledger**, the one from before with more lines. -/
theorem Step.recorded (h : Step S S') (hS : S.RecordedIn made) :
    ∃ made', made <+: made' ∧ S'.RecordedIn made' := by
  cases h with
  | run program =>
    obtain ⟨made', hle, ht, -⟩ :=
      (Task.program program).recorded S.interpreter.interner nofun hS.program
    exact ⟨made', hle, ht, hS.envs_mono hle, hS.values_mono hle⟩
  | @evaluate α task env env' r i results henv hgiven hrun hresults =>
    have hs : { S.interpreter.state with env := env }.RecordedIn made :=
      ⟨hS.program.length, hS.envs env henv⟩
    obtain ⟨made', hle, ht, hr⟩ := task.recorded S.interpreter.interner
      (fun v hv => hS.of_finds (hgiven v hv)) hs
    dsimp only [Interpreter.within] at hrun
    cases hrun
    refine ⟨made', hle, ⟨ht.length, hS.program.env.recordedIn_mono hle⟩,
      List.forall_mem_cons.2 ⟨ht.env, hS.envs_mono hle⟩, fun v hv => ?_⟩
    rcases List.mem_append.1 hv with hv | hv
    · obtain ⟨a, ha, hv⟩ := hresults v hv
      exact hr a ha v hv
    · exact hS.values_mono hle v hv
  | @makeList items hitems =>
    obtain ⟨hlist, ht⟩ := hS.program.makeList fun v hv => hS.of_finds (hitems v hv)
    have hle := List.prefix_append made [items]
    exact ⟨_, hle, ht, hS.envs_mono hle, List.forall_mem_cons.2 ⟨hlist, hS.values_mono hle⟩⟩
  | makeEnv henv =>
    have henv := fun x v hx => hS.of_finds (henv x v hx)
    exact ⟨made, List.prefix_refl made, hS.program, List.forall_mem_cons.2 ⟨henv, hS.envs⟩,
      hS.values⟩
  | replace interner mode lang channel limit henv =>
    exact ⟨made, List.prefix_refl made, ⟨hS.program.length, hS.envs _ henv⟩,
      List.forall_mem_cons.2 ⟨hS.program.env, hS.envs⟩, hS.values⟩
  | setChannel channel =>
    exact ⟨made, List.prefix_refl made, ⟨hS.program.length, hS.program.env⟩, hS.envs, hS.values⟩

theorem Reachable.recorded (h : S.Reachable) : ∃ made, S.RecordedIn made := by
  induction h with
  | start interner mode lang channel limit =>
    have hempty : Env.empty.Carries (·.RecordedIn []) := by
      intro x v hx
      rw [Env.lookup_empty] at hx
      cases hx
    exact ⟨[], ⟨rfl, hempty⟩, by simpa using hempty, nofun⟩
  | step _ hstep ih =>
    obtain ⟨made, hS⟩ := ih
    obtain ⟨made', -, hS'⟩ := hstep.recorded hS
    exact ⟨made', hS'⟩

end Recorded

end Session
end BindOnce

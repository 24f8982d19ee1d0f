import BindOnce.Proofs.SingleAssignment

/-!
# A larger limit on active calls

Two runs of one program that differ in the limit only go hand in hand until the smaller limit
refuses a call.  If that never happens they end alike.  If it does, the run with the smaller limit
is over, and all it can still do is pass the failure on; the other run goes on and can only write
more and bind more.

## What is here

* `State.Behind` — what the first state has written and bound, the second has too, and
  `Ends.behind`: evaluation only gets further.
* `State.Deeper` — two states that differ in the limit only.
* `Follows` — the two ways in which the ends of the two runs can be related, and `Ends.follows`:
  they are, by induction on how the run with the smaller limit ends.
* `run_of_larger_limit` — the same for programs.
-/

set_option autoImplicit false
namespace BindOnce

/-! ## Getting further -/

/-- What the first state has bound and written, the second has bound and written too. -/
structure State.Behind (s t : State) : Prop where
  env : ∀ (x : Name) (v : Value), s.env.lookup x = some v → t.env.lookup x = some v
  channel : ∃ text : String, t.channel = s.channel.write text

namespace State.Behind

variable {s t u : State}

theorem of_eq (henv : t.env = s.env) (hchannel : t.channel = s.channel) : s.Behind t :=
  ⟨fun x v h => by rwa [henv], "", by rw [hchannel, Channel.write_empty]⟩

theorem trans (h : s.Behind t) (h' : t.Behind u) : s.Behind u where
  env x v hx := h'.env x v (h.env x v hx)
  channel := Channel.exists_write_trans h.channel h'.channel

end State.Behind

section Behind

variable {interner : Interner} {α : Type} {p : Plan α} {s t : State} {r : Except Failure α}

theorem Ends.channel_grows (h : Ends interner p s r t) :
    ∃ text : String, t.channel = s.channel.write text := by
  induction h with
  | done => exact ⟨"", (Channel.write_empty _).symm⟩
  | readEnv _ ih => exact ih
  | makeList _ ih => exact ih
  | printLine _ ih => exact Channel.exists_write_trans ⟨_, Channel.writeLine_eq_write ..⟩ ih
  | bindOr _ _ ih => exact ih
  | bound _ => exact ⟨"", (Channel.write_empty _).symm⟩
  | ask _ _ ih₁ ih₂ => exact Channel.exists_write_trans ih₁ ih₂
  | askFails _ ih => exact ih
  | enter _ _ _ ih₁ ih₂ => exact Channel.exists_write_trans ih₁ ih₂
  | enterFails _ _ ih => exact ih
  | refused _ => exact ⟨"", (Channel.write_empty _).symm⟩
  | onLine _ ih => exact ih
  | onLineFails _ ih => exact ih

theorem Ends.behind {P : Plan.Conditions} (h : Ends interner p s r t) (hp : p.All P) :
    s.Behind t :=
  ⟨fun _ _ hx => (h.env_grows hp (fun _ _ _ _ => trivial) fun _ _ => trivial).lookup_eq_some hx,
    h.channel_grows⟩

end Behind

/-! ## Hand in hand -/

/-- The two states differ in the limit on active calls only, and the second has the larger one. -/
structure State.Deeper (s s' : State) : Prop where
  env : s'.env = s.env
  frames : s'.stack.frames = s.stack.frames
  channel : s'.channel = s.channel
  lists : s'.lists = s.lists
  limit : s.stack.maxDepth ≤ s'.stack.maxDepth

/-- How the end of a run under the smaller limit and that of a run under the larger one are related:
they are alike, or the first was stopped by the limit and is behind the second. -/
inductive Follows {α : Type} (r : Except Failure α) (t : State) (r' : Except Failure α)
    (t' : State) : Prop where
  | alike : (∀ e : Failure, r = .error e → e.cause.isRecursionLimit = false) → r' = r →
    t.Deeper t' → Follows r t r' t'
  | stopped {e : Failure} {function : String} {line : Line} : r = .error e →
    e.cause = .recursionLimit t.stack.maxDepth function line → t.Behind t' → Follows r t r' t'

namespace State.Deeper

variable {s s' t t' : State} {f : Func} {args : List Value} {frame : ActiveCall}
  {stack stack' : CallStack}

theorem entered (h : s.Deeper s') (hpush : s.stack.push frame = .ok stack)
    (hpush' : s'.stack.push frame = .ok stack') :
    (s.entered f args stack).Deeper (s'.entered f args stack') := by
  obtain ⟨-, hmax, hframes⟩ := CallStack.push_eq_ok_iff.1 hpush
  obtain ⟨-, hmax', hframes'⟩ := CallStack.push_eq_ok_iff.1 hpush'
  refine ⟨?_, ?_, h.channel, h.lists, ?_⟩
  · simp only [State.entered, h.env]
  · simp only [State.entered, hframes, hframes', h.frames]
  · simp only [State.entered, hmax, hmax', h.limit]

theorem left (h : s.Deeper s') (ht : t.Deeper t') : (s.left t).Deeper (s'.left t') := by
  refine ⟨h.env, ?_, ht.channel, ht.lists, ht.limit⟩
  simp only [State.left, CallStack.pop, ht.frames]

/-- What the smaller limit allows, the larger one does. -/
theorem not_refused (h : s.Deeper s') (hpush : s.stack.push frame = .ok stack) {e : Failure} :
    s'.stack.push frame ≠ .error e := by
  obtain ⟨hlt, -, -⟩ := CallStack.push_eq_ok_iff.1 hpush
  have hlt' : s'.stack.frames.size < s'.stack.maxDepth := by
    rw [h.frames]
    exact Nat.lt_of_lt_of_le hlt h.limit
  rw [CallStack.push, dif_pos hlt']
  intro heq
  cases heq

/-- Whatever becomes of the calls, the callers' environments are alike again after them. -/
theorem behind_left (h : s.Deeper s') (ht : t.Behind t') : (s.left t).Behind (s'.left t') where
  env x v hx := by
    rw [State.left, h.env]
    exact hx
  channel := ht.channel

theorem behind (h : s.Deeper s') : s.Behind s' := .of_eq h.env h.channel

end State.Deeper

namespace Follows

variable {α β : Type} {t t' : State}

/-- A run that succeeds is not stopped. -/
theorem of_ok {a : α} {r' : Except Failure α} (h : Follows (.ok a) t r' t') :
    r' = .ok a ∧ t.Deeper t' := by
  cases h with
  | alike _ hr ht => exact ⟨hr, ht⟩
  | stopped hr _ _ => cases hr

/-- If the other run succeeds where this one fails, then this one was stopped. -/
theorem stopped_of_ok {e : Failure} {a : α} (h : Follows (.error e) t (.ok a) t') :
    (∃ (function : String) (line : Line),
        e.cause = .recursionLimit t.stack.maxDepth function line) ∧ t.Behind t' := by
  cases h with
  | alike _ hr _ => cases hr
  | stopped hr hcause ht =>
    cases hr
    exact ⟨⟨_, _, hcause⟩, ht⟩

/-- Failures pass through whatever is around them, and their causes stay. -/
theorem of_error {e e' : Failure} (h : Follows (.error e : Except Failure α) t (.error e') t')
    {s s' : State} (hs : t.Deeper t' → s.Deeper s') (hbehind : t.Behind t' → s.Behind s')
    (hlimit : s.stack.maxDepth = t.stack.maxDepth) {f : Failure → Failure}
    (hf : ∀ e, (f e).cause = e.cause) :
    Follows (.error (f e) : Except Failure β) s (.error (f e')) s' := by
  cases h with
  | alike hnot hr ht =>
    cases hr
    refine .alike (fun _ h => ?_) rfl (hs ht)
    cases h
    rw [hf]
    exact hnot e rfl
  | stopped hr hcause ht =>
    cases hr
    rw [← hf, ← hlimit] at hcause
    exact .stopped rfl hcause (hbehind ht)

end Follows

/-- **Two runs that differ in the limit go hand in hand until the smaller limit refuses a call.**
The induction is on how the run with the smaller limit ends.  Where it fails and the other one does
not, what the other one does afterwards only gets further. -/
theorem Ends.follows {interner : Interner} {α : Type} {p : Plan α} {s s' t t' : State}
    {r r' : Except Failure α} (h : Ends interner p s r t) {P : Plan.Conditions} (hp : p.All P)
    (hP : ∀ e : Failure, P.failure e → e.cause.isRecursionLimit = false) (hs : s.Deeper s')
    (h' : Ends interner p s' r' t') : Follows r t r' t' := by
  induction h generalizing P s' t' with
  | done =>
    cases h'
    refine .alike (fun e he => ?_) rfl hs
    cases he
    exact hP e hp
  | readEnv _ ih =>
    cases h' with
    | readEnv h' =>
      rw [hs.env] at h'
      exact ih (hp _) hP hs h'
  | makeList _ ih =>
    cases h' with
    | makeList h' =>
      rw [hs.lists] at h'
      refine ih (hp _) hP ?_ h'
      exact ⟨hs.env, hs.frames, hs.channel, rfl, hs.limit⟩
  | printLine _ ih =>
    cases h' with
    | printLine h' =>
      rw [hs.channel] at h'
      refine ih hp hP ?_ h'
      exact ⟨hs.env, hs.frames, rfl, hs.lists, hs.limit⟩
  | bindOr hb _ ih =>
    rw [← hs.env] at hb
    cases h' with
    | bindOr hb' h' =>
      cases hb.symm.trans hb'
      refine ih hp.2.2 hP ?_ h'
      exact ⟨rfl, hs.frames, hs.channel, hs.lists, hs.limit⟩
    | bound hb' => cases hb.symm.trans hb'
  | bound hb =>
    rw [← hs.env] at hb
    cases h' with
    | bindOr hb' _ => cases hb.symm.trans hb'
    | bound _ =>
      refine .alike (fun e he => ?_) rfl hs
      cases he
      exact hP _ hp.1
  | @ask α β task next s t u b r h _ ih₁ ih₂ =>
    have hall := task.all_plan interner
    cases h' with
    | ask h₁ h₂ =>
      obtain ⟨hr, ht⟩ := (ih₁ hall (fun _ he => he.2) hs h₁).of_ok
      cases hr
      exact ih₂ (hp.2 b h.mayGive) hP ht h₂
    | askFails h₁ => cases (ih₁ hall (fun _ he => he.2) hs h₁).of_ok.1
  | @askFails α β task next s t e _ ih =>
    have hall := task.all_plan interner
    cases h' with
    | ask h₁ h₂ =>
      -- Only the limit can make a task fail that succeeds under a larger one.
      obtain ⟨⟨_, _, hcause⟩, ht⟩ := (ih hall (fun _ he => he.2) hs h₁).stopped_of_ok
      exact .stopped rfl hcause (ht.trans (h₂.behind (hp.2 _ h₁.mayGive)))
    | askFails h₁ => exact (ih hall (fun _ he => he.2) hs h₁).of_error id id rfl fun _ => rfl
  | @enter α f args line next s t u stack v r hpush h _ ih₁ ih₂ =>
    have hall := (Task.body f.decl.body).all_plan interner
    cases h' with
    | enter hpush' h₁ h₂ =>
      obtain ⟨hr, ht⟩ := (ih₁ hall (fun _ he => he.2) (hs.entered hpush hpush') h₁).of_ok
      cases hr
      exact ih₂ (hp v) hP (hs.left ht) h₂
    | enterFails hpush' h₁ =>
      cases (ih₁ hall (fun _ he => he.2) (hs.entered hpush hpush') h₁).of_ok.1
    | refused hpush' => exact absurd hpush' (hs.not_refused hpush)
  | @enterFails α f args line next s t stack e hpush _ ih =>
    have hall := (Task.body f.decl.body).all_plan interner
    cases h' with
    | enter hpush' h₁ h₂ =>
      obtain ⟨⟨_, _, hcause⟩, ht⟩ :=
        (ih hall (fun _ he => he.2) (hs.entered hpush hpush') h₁).stopped_of_ok
      exact .stopped rfl hcause ((hs.behind_left ht).trans (h₂.behind (hp _)))
    | enterFails hpush' h₁ =>
      exact (ih hall (fun _ he => he.2) (hs.entered hpush hpush') h₁).of_error hs.left
        hs.behind_left rfl fun _ => rfl
    | refused hpush' => exact absurd hpush' (hs.not_refused hpush)
  | refused hpush =>
    -- This is where the runs part: whatever the other one does from here on, it does alone.
    cases CallStack.eq_exceeded_of_push hpush
    exact .stopped rfl rfl (hs.behind.trans (h'.behind hp))
  | onLine _ ih =>
    cases h' with
    | onLine h' => exact ih hp hP hs h'
    | onLineFails h' => cases (ih hp hP hs h').of_ok.1
  | onLineFails _ ih =>
    cases h' with
    | onLine h' =>
      obtain ⟨⟨_, _, hcause⟩, ht⟩ := (ih hp hP hs h').stopped_of_ok
      exact .stopped rfl hcause ht
    | onLineFails h' => exact (ih hp hP hs h').of_error id id rfl fun _ => rfl

/-- **A larger limit only continues a run.**  A program that does not fail for the limit does the
same under a larger one.  If it does, then the failure tells the limit, and under the larger one it
writes at least as much and binds at least as much. -/
theorem run_of_larger_limit {d d' : Nat} (h : d ≤ d') (interner : Interner) (mode : Mode)
    (lang : Lang) (env : Env) (channel : Channel) (lists : ListSupply) (program : Program Name) :
    let short := (Interpreter.new interner mode lang env channel (some d) lists).run program
    let long := (Interpreter.new interner mode lang env channel (some d') lists).run program
    ((∀ e : Failure, short.1 = .error e → e.cause.isRecursionLimit = false) →
      long.1 = short.1 ∧ long.2.channel = short.2.channel ∧ long.2.env = short.2.env) ∧
    ∀ (e : Failure) (depth : Nat) (function : String) (line : Line), short.1 = .error e →
      e.cause = .recursionLimit depth function line →
      depth = d ∧ (∃ text : String, long.2.channel = short.2.channel.write text) ∧
        ∀ (x : Name) (v : Value), short.2.env.lookup x = some v → long.2.env.lookup x = some v := by
  intro short long
  have hshort : Ends interner ((Task.program program).plan interner) _ short.1 short.2.state :=
    (Task.program program).ends_run
      (Interpreter.new interner mode lang env channel (some d) lists).state
  have hlong : Ends interner ((Task.program program).plan interner) _ long.1 long.2.state :=
    (Task.program program).ends_run
      (Interpreter.new interner mode lang env channel (some d') lists).state
  have hdeeper : (Interpreter.new interner mode lang env channel (some d) lists).state.Deeper
      (Interpreter.new interner mode lang env channel (some d') lists).state :=
    ⟨rfl, rfl, rfl, rfl, h⟩
  have hfollows : Follows short.1 short.2.state long.1 long.2.state :=
    hshort.follows ((Task.program program).all_plan interner) (fun _ he => he.2)
      hdeeper hlong
  have hstack : short.2.state.stack.maxDepth = d := congrArg CallStack.maxDepth hshort.stack_eq
  cases hfollows with
  | alike hnot hr ht =>
    refine ⟨fun _ => ⟨hr, ht.channel, ht.env⟩, fun e depth function line he hcause => ?_⟩
    have hlimit := hnot e he
    rw [hcause] at hlimit
    cases hlimit
  | stopped hr hcause ht =>
    refine ⟨fun hnot => ?_, fun e depth function line he hcause' => ?_⟩
    · have hlimit := hnot _ hr
      rw [hcause] at hlimit
      cases hlimit
    · cases hr.symm.trans he
      cases hcause.symm.trans hcause'
      exact ⟨hstack, ht.channel, ht.env⟩

/-- A function that calls another one while only one call may be active. -/
theorem run_of_larger_limit_nested :
    let program : Program Name :=
      [.function 0 ⟨⟨1⟩, 1⟩ [] [.print (.literal (.bool true))],
        .function 1 ⟨⟨2⟩, 2⟩ [] [.print (.literal (.bool false)), .expression (.call ⟨⟨1⟩, 2⟩ [])],
        .expression (.call ⟨⟨2⟩, 3⟩ [])]
    let short := (Interpreter.new .new .interpret .waray .empty (.buffer "") (some 1)).run program
    let long := (Interpreter.new .new .interpret .waray .empty (.buffer "") (some 2)).run program
    short.1 = .error { cause := .recursionLimit 1 "" 2 } ∧ long.1 = .ok () ∧
      ∃ text : String, long.2.channel = short.2.channel.write text := by
  refine ⟨rfl, rfl, ?_⟩
  exact ((run_of_larger_limit (by decide) _ _ _ _ _ _ _).2 _ _ _ _ rfl rfl).2.1

end BindOnce

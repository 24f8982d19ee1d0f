import BindOnce.Proofs.Termination
import BindOnce.Run

/-!
# What a run writes

Evaluation writes lines and never reads what is written, so where the lines go makes no difference
to it.  Of the configuration it sees the limit on active calls only, which is the same in both
modes; the language of diagnostics is looked up when the report of a failure is written, and that is
the last line of a run.  So the same lines are printed under every configuration and for every
destination, and the report alone depends on the configuration.

## What is here

* `Prints p s lines r t` — carrying out `p` prints `lines`.  The rules are those of `Ends`, with the
  lines noted down.
* `Ends.prints`, `Prints.onChannel` — whatever ends prints some lines, and the same ones for every
  destination.
* `Program.Writes` — how a run goes that prints given lines and has a given result.
* `configuration_changes_report_only` — every program has such lines and such a result, which are
  the same for all configurations.
-/

set_option autoImplicit false
namespace BindOnce

/-- The text that lines make. -/
def linesText (lines : List String) : String := String.join (lines.map (· ++ "\n"))

@[simp]
theorem linesText_nil : linesText [] = "" := rfl

@[simp]
theorem linesText_cons (line : String) (lines : List String) :
    linesText (line :: lines) = line ++ "\n" ++ linesText lines := by
  simp [linesText, String.join_cons]

theorem linesText_append (lines lines' : List String) :
    linesText (lines ++ lines') = linesText lines ++ linesText lines' := by
  simp [linesText, String.join_append]

/-! ## The lines that are printed -/

/-- The plan, carried out from the first state, prints the lines in this order; it ends with the
result and leaves the second state. -/
inductive Prints (interner : Interner) :
    {α : Type} → Plan α → State → List String → Except Failure α → State → Prop where
  | done {α : Type} {r : Except Failure α} {s : State} : Prints interner (.done r) s [] r s
  | readEnv {α : Type} {next : Env → Plan α} {s t : State} {lines : List String}
      {r : Except Failure α} :
    Prints interner (next s.env) s lines r t → Prints interner (.readEnv next) s lines r t
  | makeList {α : Type} {items : List Value} {next : Value → Plan α} {s t : State}
      {lines : List String} {r : Except Failure α} :
    Prints interner (next (s.lists.make items).1) { s with lists := (s.lists.make items).2 } lines
      r t →
    Prints interner (.makeList items next) s lines r t
  /-- This is the step that prints. -/
  | printLine {α : Type} {line : String} {next : Plan α} {s t : State} {lines : List String}
      {r : Except Failure α} :
    Prints interner next { s with channel := s.channel.writeLine line } lines r t →
    Prints interner (.printLine line next) s (line :: lines) r t
  | bindOr {α : Type} {cause : Cause} {x : Name} {v : Value} {next : Plan α} {s t : State}
      {env : Env} {lines : List String} {r : Except Failure α} :
    s.env.bind? x v = some env → Prints interner next { s with env := env } lines r t →
    Prints interner (.bindOr cause x v next) s lines r t
  | bound {α : Type} {cause : Cause} {x : Name} {v : Value} {next : Plan α} {s : State} :
    s.env.bind? x v = none →
    Prints interner (.bindOr cause x v next) s [] (.error { cause := cause }) s
  | ask {α β : Type} {task : Task β} {next : β → Plan α} {s t u : State} {b : β}
      {lines lines' : List String} {r : Except Failure α} :
    Prints interner (task.plan interner) s lines (.ok b) t →
    Prints interner (next b) t lines' r u →
    Prints interner (.ask task next) s (lines ++ lines') r u
  | askFails {α β : Type} {task : Task β} {next : β → Plan α} {s t : State} {lines : List String}
      {e : Failure} :
    Prints interner (task.plan interner) s lines (.error e) t →
    Prints interner (.ask task next) s lines (.error e) t
  | enter {α : Type} {f : Func} {args : List Value} {line : Line} {next : Value → Plan α}
      {s t u : State} {stack : CallStack} {v : Value} {lines lines' : List String}
      {r : Except Failure α} :
    s.stack.push ⟨f.name, line⟩ = .ok stack →
    Prints interner ((Task.body f.decl.body).plan interner) (s.entered f args stack) lines (.ok v)
      t →
    Prints interner (next v) (s.left t) lines' r u →
    Prints interner (.enter f args line next) s (lines ++ lines') r u
  | enterFails {α : Type} {f : Func} {args : List Value} {line : Line} {next : Value → Plan α}
      {s t : State} {stack : CallStack} {lines : List String} {e : Failure} :
    s.stack.push ⟨f.name, line⟩ = .ok stack →
    Prints interner ((Task.body f.decl.body).plan interner) (s.entered f args stack) lines
      (.error e) t →
    Prints interner (.enter f args line next) s lines (.error e) (s.left t)
  | refused {α : Type} {f : Func} {args : List Value} {line : Line} {next : Value → Plan α}
      {s : State} {e : Failure} :
    s.stack.push ⟨f.name, line⟩ = .error e →
    Prints interner (.enter f args line next) s [] (.error e) s
  | onLine {α : Type} {line : Line} {rest : Plan α} {s t : State} {lines : List String} {a : α} :
    Prints interner rest s lines (.ok a) t → Prints interner (.onLine line rest) s lines (.ok a) t
  | onLineFails {α : Type} {line : Line} {rest : Plan α} {s t : State} {lines : List String}
      {e : Failure} :
    Prints interner rest s lines (.error e) t →
    Prints interner (.onLine line rest) s lines (.error (e.mark line)) t

section Prints

variable {interner : Interner} {α : Type} {p : Plan α} {s t : State} {r : Except Failure α}
  {lines : List String}

theorem Prints.ends (h : Prints interner p s lines r t) : Ends interner p s r t := by
  induction h with
  | done => exact .done
  | readEnv _ ih => exact .readEnv ih
  | makeList _ ih => exact .makeList ih
  | printLine _ ih => exact .printLine ih
  | bindOr hb _ ih => exact .bindOr hb ih
  | bound hb => exact .bound hb
  | ask _ _ ih₁ ih₂ => exact .ask ih₁ ih₂
  | askFails _ ih => exact .askFails ih
  | enter hpush _ _ ih₁ ih₂ => exact .enter hpush ih₁ ih₂
  | enterFails hpush _ ih => exact .enterFails hpush ih
  | refused hpush => exact .refused hpush
  | onLine _ ih => exact .onLine ih
  | onLineFails _ ih => exact .onLineFails ih

/-- Whatever ends prints some lines. -/
theorem Ends.prints (h : Ends interner p s r t) : ∃ lines, Prints interner p s lines r t := by
  induction h with
  | done => exact ⟨[], .done⟩
  | readEnv _ ih => exact ih.imp fun _ => .readEnv
  | makeList _ ih => exact ih.imp fun _ => .makeList
  | @printLine α line _ _ _ _ _ ih =>
    obtain ⟨lines, h⟩ := ih
    exact ⟨line :: lines, .printLine h⟩
  | bindOr hb _ ih => exact ih.imp fun _ => .bindOr hb
  | bound hb => exact ⟨[], .bound hb⟩
  | ask _ _ ih₁ ih₂ =>
    obtain ⟨lines, h₁⟩ := ih₁
    obtain ⟨lines', h₂⟩ := ih₂
    exact ⟨lines ++ lines', .ask h₁ h₂⟩
  | askFails _ ih => exact ih.imp fun _ => .askFails
  | enter hpush _ _ ih₁ ih₂ =>
    obtain ⟨lines, h₁⟩ := ih₁
    obtain ⟨lines', h₂⟩ := ih₂
    exact ⟨lines ++ lines', .enter hpush h₁ h₂⟩
  | enterFails hpush _ ih => exact ih.imp fun _ => .enterFails hpush
  | refused hpush => exact ⟨[], .refused hpush⟩
  | onLine _ ih => exact ih.imp fun _ => .onLine
  | onLineFails _ ih => exact ih.imp fun _ => .onLineFails

/-- **The destination makes no difference.**  For another one the same lines are printed and the
result is the same, and what is written there is the text of the lines. -/
theorem Prints.onChannel (h : Prints interner p s lines r t) (c : Channel) :
    Prints interner p { s with channel := c } lines r
      { t with channel := c.write (linesText lines) } := by
  induction h generalizing c with
  | done =>
    rw [linesText_nil, Channel.write_empty]
    exact .done
  | readEnv _ ih => exact .readEnv (ih c)
  | makeList _ ih => exact .makeList (ih c)
  | @printLine α line _ _ _ _ _ _ ih =>
    rw [linesText_cons, ← Channel.write_write, ← Channel.writeLine_eq_write]
    exact .printLine (ih (c.writeLine line))
  | bindOr hb _ ih => exact .bindOr hb (ih c)
  | bound hb =>
    rw [linesText_nil, Channel.write_empty]
    exact .bound hb
  | ask _ _ ih₁ ih₂ =>
    rw [linesText_append, ← Channel.write_write]
    exact .ask (ih₁ c) (ih₂ _)
  | askFails _ ih => exact .askFails (ih c)
  | enter hpush _ _ ih₁ ih₂ =>
    rw [linesText_append, ← Channel.write_write]
    exact .enter hpush (ih₁ c) (ih₂ _)
  | @enterFails _ _ _ _ _ s _ _ _ _ hpush _ ih =>
    exact .enterFails (s := { s with channel := c }) hpush (ih c)
  | refused hpush =>
    rw [linesText_nil, Channel.write_empty]
    exact .refused hpush
  | onLine _ ih => exact .onLine (ih c)
  | onLineFails _ ih => exact .onLineFails (ih c)

/-- What has been written is the text of the lines that have been printed. -/
theorem Prints.channel_eq (h : Prints interner p s lines r t) :
    t.channel = s.channel.write (linesText lines) :=
  congrArg State.channel (h.ends.unique (h.onChannel s.channel).ends).2

end Prints

/-! ## Runs -/

/-- The state in which a program starts.  The configuration takes no part in it. -/
theorem Interpreter.state_new (interner : Interner) (config : Config) (channel : Channel) :
    (new interner config.mode config.lang .empty channel).state =
      { env := .empty
        stack := { maxDepth := Mode.interpret.maxCallDepth, size_le := Nat.zero_le _ }
        channel := channel
        lists := {} } := by
  obtain ⟨mode, lang⟩ := config
  cases mode <;> rfl

/-- What running a program prints and results in is what its plan prints and results in. -/
theorem Interpreter.run_eq_of_prints {i : Interpreter} {program : Program Name}
    {lines : List String} {r : Except Failure Unit} {t : State}
    (h : Prints i.interner ((Task.program program).plan i.interner) i.state lines r t) :
    i.run program = (r, { i with state := t }) := by
  have hrun : Program.exec i.interner program i.state = (r, t) := Ends.iff_run.1 h.ends
  rw [run, hrun]

/-- A program, started with the configuration and the channel, prints the lines and ends in the
result. -/
def Program.Prints (program : Program Name) (interner : Interner) (config : Config)
    (channel : Channel) (lines : List String) (r : Except Failure Unit) : Prop :=
  let i := Interpreter.new interner config.mode config.lang .empty channel
  BindOnce.Prints interner ((Task.program program).plan interner) i.state lines r
    (i.run program).2.state ∧ (i.run program).1 = r

section Program

variable {program : Program Name} {interner : Interner} {config : Config} {channel : Channel}
  {lines : List String}

/-- **Every program prints some lines and ends in some result**, whatever the configuration and the
channel. -/
theorem Program.exists_prints (program : Program Name) (interner : Interner) :
    ∃ (lines : List String) (r : Except Failure Unit), ∀ (config : Config) (channel : Channel),
      program.Prints interner config channel lines r := by
  let start (channel : Channel) : State :=
    (Interpreter.new interner .interpret .waray .empty channel).state
  let r := ((Task.program program).run interner (start .silent)).1
  have hends : Ends interner _ (start .silent) r _ :=
    (Task.program program).ends_run (start .silent)
  obtain ⟨lines, hprints⟩ := hends.prints
  refine ⟨lines, r, fun config channel => ?_⟩
  have hstart : (Interpreter.new interner config.mode config.lang .empty channel).state =
      start channel := Interpreter.state_new interner config channel
  have h := hprints.onChannel channel
  rw [show { start .silent with channel := channel } = start channel from rfl, ← hstart] at h
  rw [Program.Prints, Interpreter.run_eq_of_prints h]
  exact ⟨h, rfl⟩

theorem Program.Prints.run_of_ok (h : program.Prints interner config channel lines (.ok ())) :
    Program.run program interner config channel = (.success, channel.write (linesText lines)) := by
  rw [run_eq]
  dsimp only
  rw [h.2, Interpreter.channel, h.1.channel_eq]
  rfl

theorem Program.Prints.run_of_error {e : Failure}
    (h : program.Prints interner config channel lines (.error e)) :
    Program.run program interner config channel =
      (.failure, channel.write (linesText lines ++ (e.report config.lang ++ "\n"))) := by
  rw [run_eq]
  dsimp only
  rw [h.2, Interpreter.channel, h.1.channel_eq]
  dsimp only
  rw [Channel.writeLine_eq_write, Channel.write_write]
  rfl

end Program

/-- How runs of a program go that prints the lines and ends in the result.  Whatever the
destination, the run fails just if the program ends in a failure.  A buffer and the terminal get the
same output, after what is there already: the lines, and then, if there is a failure, its report as
one more line.  Elsewhere there is no output. -/
structure Program.Writes (program : Program Name) (interner : Interner) (config : Config)
    (lines : List String) (r : Except Failure Unit) (output : String) : Prop where
  prints : ∀ channel : Channel, program.Prints interner config channel lines r
  fails_iff : ∀ channel : Channel,
    (Program.run program interner config channel).1 = .failure ↔ ∃ e, r = .error e
  of_ok : r = .ok () → output = linesText lines
  of_error : ∀ e : Failure, r = .error e →
    output = linesText lines ++ (e.report config.lang ++ "\n")
  buffer : ∀ before : String,
    (Program.run program interner config (.buffer before)).2 = .buffer (before ++ output)
  terminal : ∀ pending : String,
    (Program.run program interner config (.terminal pending)).2 = .terminal (pending ++ output)
  silent : (Program.run program interner config .silent).2 = .silent

/-- **The configuration only changes the report.**  A program prints the same lines and ends in the
same result for every mode, every language and every destination.  Runs succeed or fail accordingly,
and under each configuration the output is what these lines and this result make of it. -/
theorem configuration_changes_report_only (program : Program Name) (interner : Interner) :
    ∃ (lines : List String) (r : Except Failure Unit), ∀ config : Config, ∃ output : String,
      Program.Writes program interner config lines r output := by
  obtain ⟨lines, r, hprints⟩ := Program.exists_prints program interner
  refine ⟨lines, r, fun config => ?_⟩
  cases r with
  | ok _ =>
    have hrun (channel : Channel) := (hprints config channel).run_of_ok
    refine ⟨linesText lines, ?_⟩
    exact
      { prints := hprints config
        fails_iff := fun channel => by simp [hrun]
        of_ok := fun _ => rfl
        of_error := fun _ h => nomatch h
        buffer := fun before => by rw [hrun]; rfl
        terminal := fun pending => by rw [hrun]; rfl
        silent := by rw [hrun]; rfl }
  | error e =>
    have hrun (channel : Channel) := (hprints config channel).run_of_error
    refine ⟨linesText lines ++ (e.report config.lang ++ "\n"), ?_⟩
    exact
      { prints := hprints config
        fails_iff := fun channel => by simp [hrun]
        of_ok := fun h => nomatch h
        of_error := fun _ h => by cases h; rfl
        buffer := fun before => by rw [hrun]; rfl
        terminal := fun pending => by rw [hrun]; rfl
        silent := by rw [hrun]; rfl }

/-- The line that is printed is the same; the report is in the language asked for. -/
example :
    let program : Program Name := [.print (.literal (.bool true)), .expression (.call ⟨⟨1⟩, 2⟩ [])]
    Program.run program .new ⟨.interpret, .waray⟩ (.buffer "") =
      (.failure, .buffer "tuod\nWaray butang nga an ngaran \"\"\n") ∧
    Program.run program .new ⟨.transpile, .tagalog⟩ (.terminal "> ") =
      (.failure, .terminal "> tuod\nWalang bagay na may pangalang \"\"\n") := by
  decide

end BindOnce

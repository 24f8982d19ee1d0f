import BindOnce.Config
import BindOnce.Interpreter

/-!
# Running a program

A run executes a program in an environment of its own.  If it fails, the report of the failure is
the last line of the output.
-/

set_option autoImplicit false
namespace BindOnce

/-- How a run went. -/
inductive Outcome where
  | success | failure
  deriving DecidableEq, Repr, Inhabited

namespace Outcome

/-- Whether the program ran to its end. -/
def isSuccess (s : Outcome) : Bool := s == .success

/-- The result as a number: zero, or minus one for a failure. -/
def exitCode : Outcome → Int
  | .success => 0
  | .failure => -1

/-- The exit code of a process, which has eight bits. -/
def processCode (s : Outcome) : UInt8 := .ofInt s.exitCode

end Outcome

/-- Run a program and write to the given channel. -/
def Program.run (program : Program Name) (interner : Interner) (config : Config)
    (channel : Channel) : Outcome × Channel :=
  let i := Interpreter.new interner config.mode config.lang .empty channel
  match i.run program with
  | (.ok (), i) => (.success, i.channel)
  | (.error e, i) => (.failure, (i.writeReport e).channel)

/-- How a run goes is how the program ends; the report of a failure is written after all that the
program has written. -/
theorem Program.run_eq (program : Program Name) (interner : Interner) (config : Config)
    (channel : Channel) :
    Program.run program interner config channel =
      let i := Interpreter.new interner config.mode config.lang .empty channel
      match (i.run program).1 with
      | .ok () => (.success, (i.run program).2.channel)
      | .error e => (.failure, (i.run program).2.channel.writeLine (e.report config.lang)) := by
  have hlang : ((Interpreter.new interner config.mode config.lang .empty channel).run program).2.lang =
      config.lang := rfl
  dsimp only [Program.run]
  generalize (Interpreter.new interner config.mode config.lang .empty channel).run program = outcome
    at hlang ⊢
  obtain ⟨r, j⟩ := outcome
  cases r with
  | ok _ => rfl
  | error e =>
    rw [← hlang]
    rfl

end BindOnce

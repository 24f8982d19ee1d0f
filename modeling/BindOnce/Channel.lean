/-!
# Where output goes

A program writes whole lines.  They go to the terminal, or into a buffer that its owner reads, or
nowhere.

Lines for the terminal wait in the channel as `pending` text until the outer layer takes them
(`Channel.flush`): writing them is not the business of the evaluator.
-/

set_option autoImplicit false
namespace BindOnce

/-- A destination of output. -/
inductive Channel where
  /-- The terminal, with the text that it has yet to show. -/
  | terminal (pending : String)
  /-- A buffer, with the text written so far. -/
  | buffer (text : String)
  /-- Nowhere. -/
  | silent
  deriving DecidableEq, Repr, Inhabited

namespace Channel

/-- Write one line. -/
def writeLine (line : String) : Channel → Channel
  | .terminal pending => .terminal (pending ++ line ++ "\n")
  | .buffer text => .buffer (text ++ line ++ "\n")
  | .silent => .silent

/-- The text that can be read back: a buffer keeps it, the others do not. -/
def captured : Channel → String
  | .buffer text => text
  | .terminal _ | .silent => ""

/-- Forget the text that can be read back. -/
def clear : Channel → Channel
  | .buffer _ => .buffer ""
  | c => c

/-- The text that the terminal has yet to show, and the channel once it is shown. -/
def flush : Channel → String × Channel
  | .terminal pending => (pending, .terminal "")
  | c => ("", c)

/-! ## More text -/

/-- The channel with more text. -/
def write (text : String) : Channel → Channel
  | .terminal pending => .terminal (pending ++ text)
  | .buffer t => .buffer (t ++ text)
  | .silent => .silent

theorem writeLine_eq_write (line : String) (c : Channel) :
    c.writeLine line = c.write (line ++ "\n") := by
  cases c <;> simp [writeLine, write, String.append_assoc]

theorem write_empty (c : Channel) : c.write "" = c := by
  cases c <;> simp [write]

theorem write_write (a b : String) (c : Channel) : (c.write a).write b = c.write (a ++ b) := by
  cases c <;> simp [write, String.append_assoc]

/-- What is written in two parts is written. -/
theorem exists_write_trans {c c' c'' : Channel} (h : ∃ text : String, c' = c.write text)
    (h' : ∃ text : String, c'' = c'.write text) : ∃ text : String, c'' = c.write text := by
  obtain ⟨a, rfl⟩ := h
  obtain ⟨b, rfl⟩ := h'
  exact ⟨a ++ b, write_write a b c⟩

end Channel
end BindOnce

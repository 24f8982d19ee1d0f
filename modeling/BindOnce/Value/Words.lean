import BindOnce.Value

/-!
# The words for truth and absence

On their way out of the evaluator, the absent value and the two truth values turn into words:
printing does it, and so does returning.  A function that returns a truth value therefore hands a
word to its caller, and `filter`, which asks a function about each element, looks for the word.
-/

set_option autoImplicit false
namespace BindOnce

/-- The word for the absent value. -/
def nilWord : String := "waray"

/-- The word for truth. -/
def trueWord : String := "tuod"

/-- The word for falsehood. -/
def falseWord : String := "buwa"

namespace Value

/-- The value as it is printed or returned: the absent value and truth values as words, all else as
it is.  Lists are not looked into. -/
def worded : Value → Value
  | .nil => .string nilWord
  | .bool true => .string trueWord
  | .bool false => .string falseWord
  | v => v

/-- Whether a value is truth itself, which is what makes a condition hold. -/
def isTrue : Value → Bool
  | .bool b => b
  | _ => false

/-- Whether a value is the word for truth; truth itself is not. -/
def isTrueWord (v : Value) : Bool := v.string? == some trueWord

theorem isTrue_iff {v : Value} : v.isTrue = true ↔ v = .bool true := by
  cases v <;> simp [isTrue]

theorem isTrue_eq_false_of_kind {v : Value} (h : v.kind ≠ .boolean) : v.isTrue = false := by
  cases v with
  | bool b => exact absurd rfl h
  | _ => rfl

theorem worded_ne_nil (v : Value) : v.worded ≠ .nil := by
  cases v with
  | bool b => cases b <;> simp [worded]
  | _ => simp [worded]

theorem kind_worded_ne_boolean (v : Value) : v.worded.kind ≠ .boolean := by
  cases v with
  | bool b => cases b <;> nofun
  | _ => nofun

/-- No word makes a condition hold. -/
theorem isTrue_worded (v : Value) : v.worded.isTrue = false := by
  cases v with
  | bool b => cases b <;> rfl
  | _ => rfl

theorem worded_worded (v : Value) : v.worded.worded = v.worded := by
  cases v with
  | bool b => cases b <;> simp [worded]
  | _ => simp [worded]

end Value
end BindOnce

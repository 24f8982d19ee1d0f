import BindOnce.Failure
import BindOnce.Number.Arithmetic
import BindOnce.Value.Display
import BindOnce.Value.Equality

/-!
# What operators do to values

Every operator first looks at the kinds of its operands and fails if it is not defined for them.
Nothing is converted, with one exception: `+` joins a string with a number, written as it would be
printed.

* Arithmetic and order are for numbers.
* `+` also joins strings; `*` also repeats a string, on whichever side the count stands.
* `==` and `!=` are for all values (`Value.identical`).
* `and` and `or` are for truth values, and need both.
* `not` is for truth values and numbers, and takes zero and the absence of a number for falsehood.

Binding a name and the four operators that call functions need more than values.  They are defined
elsewhere (`BindOnce.Eval.Expr`, `BindOnce.Eval.Callback`); on values alone they fail.
-/

set_option autoImplicit false
namespace BindOnce

/-! ## Repeating a string -/

/-- The string written `n` times, for an `n` of at most `bits` binary digits.  It works by doubling,
so that the number of steps grows with the number of digits and not with `n` itself. -/
def repeatBits (s : String) : (bits n : Nat) → String
  | 0, _ => ""
  | bits + 1, n =>
    let half := repeatBits s bits (n / 2)
    if n % 2 = 1 then half ++ half ++ s else half ++ half

/-- The string written `n` times. -/
def repeatText (s : String) (n : Nat) : String := repeatBits s (n.log2 + 1) n

/-- The longest text that repetition may produce, in bytes: `2 ^ 29`. -/
def maxRepeatBytes : Nat := 0x20000000

/-- A string repeated as often as the whole part of `count` says; the absence of a number counts as
zero.  There is no such string for an infinite or negative count, nor if it would be too long.  Whether
it would be is asked of the number, before the number becomes the count of a repetition. -/
def repeated (s : String) (count : Float) : Except Failure Value :=
  let times := Number.truncated count
  if count.isNaN then .ok (.string "")
  else if times < 0 || times.isInf then .error { cause := .invalidRepeatCount count }
  else if s.isEmpty || times == 0 then .ok (.string "")
  else if (maxRepeatBytes / s.utf8ByteSize).toUInt64.toFloat < times then
    .error { cause := .invalidRepeatCount count }
  else .ok (.string (repeatText s times.toUInt64.toNat))

/-- A repetition makes a string, or fails because of its count. -/
theorem repeated_cases (s : String) (count : Float) :
    (∃ t, repeated s count = .ok (.string t)) ∨
      repeated s count = .error { cause := .invalidRepeatCount count } := by
  simp only [repeated]
  split
  · exact .inl ⟨_, rfl⟩
  · split
    · exact .inr rfl
    · split
      · exact .inl ⟨_, rfl⟩
      · split
        · exact .inr rfl
        · exact .inl ⟨_, rfl⟩

/-! ## Operators -/

namespace BinaryOp

/-- The failure of an operator that is not defined for the kinds of its operands. -/
def undefinedFor (op : BinaryOp) (left right : Value) : Failure :=
  { cause := .binaryOperands op left.kind right.kind }

/-- An operation on numbers. -/
def onNumbers (op : BinaryOp) (f : Float → Float → Value) (left right : Value) :
    Except Failure Value :=
  match left, right with
  | .number a, .number b => .ok (f a b)
  | _, _ => .error (op.undefinedFor left right)

/-- An operation on truth values. -/
def onBools (op : BinaryOp) (f : Bool → Bool → Bool) (left right : Value) :
    Except Failure Value :=
  match left, right with
  | .bool a, .bool b => .ok (.bool (f a b))
  | _, _ => .error (op.undefinedFor left right)

/-- The sum of numbers; strings, and a string and a number, are joined. -/
def plus (left right : Value) : Except Failure Value :=
  match left, right with
  | .number a, .number b => .ok (.number (a + b))
  | .string _, .string _ | .string _, .number _ | .number _, .string _ =>
    .ok (.string (left.display ++ right.display))
  | _, _ => .error (add.undefinedFor left right)

/-- The product of numbers; a string and a number make a repeated string. -/
def times (left right : Value) : Except Failure Value :=
  match left, right with
  | .number a, .number b => .ok (.number (a * b))
  | .number count, .string s | .string s, .number count => repeated s count
  | _, _ => .error (mul.undefinedFor left right)

/-- The value of `left op right`. -/
def apply (op : BinaryOp) (left right : Value) : Except Failure Value :=
  match op with
  | .add => plus left right
  | .sub => op.onNumbers (fun a b => .number (a - b)) left right
  | .mul => times left right
  | .div => op.onNumbers (fun a b => .number (a / b)) left right
  | .mod => op.onNumbers (fun a b => .number (Number.remainder a b)) left right
  | .pow => op.onNumbers (fun a b => .number (Number.power a b)) left right
  | .eq => .ok (.bool (left.identical right))
  | .notEq => .ok (.bool (!left.identical right))
  | .lt => op.onNumbers (fun a b => .bool (a < b)) left right
  | .le => op.onNumbers (fun a b => .bool (a ≤ b)) left right
  | .gt => op.onNumbers (fun a b => .bool (a > b)) left right
  | .ge => op.onNumbers (fun a b => .bool (a ≥ b)) left right
  | .and => op.onBools (· && ·) left right
  | .or => op.onBools (· || ·) left right
  | .assign | .pipe | .map | .reduce | .filter => .error (op.undefinedFor left right)

end BinaryOp

/-- The value of `op operand`. -/
def UnaryOp.apply (op : UnaryOp) (operand : Value) : Except Failure Value :=
  match op, operand with
  | .not, .bool b => .ok (.bool !b)
  | .not, .number n => .ok (.bool (n == 0 || n.isNaN))
  | .neg, .number n => .ok (.number (-n))
  | _, _ => .error { cause := .unaryOperand op operand.kind }

end BindOnce

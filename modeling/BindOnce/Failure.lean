import BindOnce.Number.Numeral
import BindOnce.Value

/-!
# Why an evaluation fails

A failure has a cause, and it passes through the operators around the place where it happened.  Each
of these operators leaves its line, so a failure carries a *trail*: the lines of the operators that
were being evaluated, across function calls.  Nothing else leaves a line.

The messages here are for developers, in English and without the trail.  What the person who ran the
program reads is in `BindOnce.Diagnostic`.
-/

set_option autoImplicit false
namespace BindOnce

/-- The causes of failure. -/
inductive Cause where
  /-- The operator is not defined for operands of these kinds. -/
  | binaryOperands (op : BinaryOp) (left right : ValueKind)
  /-- The operator is not defined for an operand of this kind. -/
  | unaryOperand (op : UnaryOp) (operand : ValueKind)
  /-- A name that has a value was given another one. -/
  | alreadyBound (name : String)
  /-- A function was declared under a name that has a value. -/
  | functionAlreadyDeclared (name : String)
  /-- A name without a value was called. -/
  | undefinedCallee (name : String)
  /-- A name whose value is no function was called. -/
  | notCallable (name : String)
  /-- The token between two operands denotes no operator. -/
  | unsupportedBinaryOperator (token : TokenKind)
  /-- The token before an operand denotes no operator. -/
  | unsupportedUnaryOperator (token : TokenKind)
  /-- The left side of `=` is not a name. -/
  | invalidAssignmentTarget
  /-- There is no first element to start from. -/
  | emptyReduce
  /-- A string cannot be repeated this many times. -/
  | invalidRepeatCount (count : Float)
  /-- The call would have been the one beyond `depth` active ones. -/
  | recursionLimit (depth : Nat) (function : String) (line : Line)
  deriving Inhabited

/-- What a developer reads about a cause. -/
def Cause.message : Cause → String
  | .binaryOperands op left right =>
    s!"cannot apply `{op.symbol}` to {left.text} and {right.text}"
  | .unaryOperand op operand => s!"cannot apply `{op.symbol}` to {operand.text}"
  | .alreadyBound name => s!"`{name}` is already bound"
  | .functionAlreadyDeclared name => s!"function `{name}` is already declared"
  | .undefinedCallee name => s!"no binding named `{name}`"
  | .notCallable name => s!"`{name}` is not a function"
  | .unsupportedBinaryOperator token => s!"`{token.lexeme}` is not a binary operator"
  | .unsupportedUnaryOperator token => s!"`{token.lexeme}` is not a unary operator"
  | .invalidAssignmentTarget => "invalid assignment target"
  | .emptyReduce => "reduce of an empty list"
  | .invalidRepeatCount count => s!"invalid repeat count {Number.plainText count}"
  | .recursionLimit depth function line =>
    s!"maximum call depth of {depth} exceeded calling `{function}` at line {line}"

/-- A failed evaluation. -/
structure Failure where
  cause : Cause
  /-- The lines of the operators that the failure has passed through, the outermost first. -/
  trail : List Line := []
  deriving Inhabited

namespace Failure

/-- The failure after it has passed through an operator on the given line. -/
def mark (line : Line) (e : Failure) : Failure := { e with trail := line :: e.trail }

/-- The lines that the failure has passed, in the order in which it passed them. -/
def lines (e : Failure) : List Line := e.trail.reverse

/-- What a developer reads about the failure. -/
def message (e : Failure) : String := e.cause.message

@[simp]
theorem lines_mark (line : Line) (e : Failure) : (e.mark line).lines = e.lines ++ [line] := by
  simp [lines, mark]

end Failure
end BindOnce

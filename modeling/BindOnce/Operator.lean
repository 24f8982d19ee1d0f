import BindOnce.Token

/-!
# Operators

The operators of the language, and the tokens that denote them.  The correspondence is not one to
one: two tokens denote exponentiation, the minus sign denotes an operator of either arity, and most
tokens denote none.
-/

set_option autoImplicit false
namespace BindOnce

/-- The operators between two operands. -/
inductive BinaryOp where
  | add | sub | mul | div | mod | pow
  | eq | notEq | lt | le | gt | ge
  | and | or
  | assign
  | pipe | map | reduce | filter
  deriving DecidableEq, Repr, Inhabited

/-- The operators before one operand. -/
inductive UnaryOp where
  | not | neg
  deriving DecidableEq, Repr, Inhabited

namespace BinaryOp

/-- The binary operator that a token denotes, if it denotes one. -/
def ofToken? : TokenKind → Option BinaryOp
  | .plus => some .add
  | .minus => some .sub
  | .star => some .mul
  | .slash => some .div
  | .modulo => some .mod
  | .starStar | .caret => some .pow
  | .equalEqual => some .eq
  | .bangEqual => some .notEq
  | .less => some .lt
  | .lessEqual => some .le
  | .greater => some .gt
  | .greaterEqual => some .ge
  | .andKeyword => some .and
  | .orKeyword => some .or
  | .equal => some .assign
  | .pipe => some .pipe
  | .mapKeyword => some .map
  | .reduceKeyword => some .reduce
  | .filterKeyword => some .filter
  | _ => none

/-- How messages write the operator. -/
def symbol : BinaryOp → String
  | .add => "+"
  | .sub => "-"
  | .mul => "*"
  | .div => "/"
  | .mod => "%"
  | .pow => "**"
  | .eq => "=="
  | .notEq => "!="
  | .lt => "<"
  | .le => "<="
  | .gt => ">"
  | .ge => ">="
  | .and => "and"
  | .or => "or"
  | .assign => "="
  | .pipe => "|>"
  | .map => "map"
  | .reduce => "reduce"
  | .filter => "filter"

end BinaryOp

namespace UnaryOp

/-- The unary operator that a token denotes, if it denotes one. -/
def ofToken? : TokenKind → Option UnaryOp
  | .notKeyword => some .not
  | .minus => some .neg
  | _ => none

/-- How messages write the operator. -/
def symbol : UnaryOp → String
  | .not => "not"
  | .neg => "-"

end UnaryOp

/-- A token that denotes a binary operator is spelled as messages write that operator, except that
the caret is written as the double star. -/
theorem BinaryOp.symbol_of_ofToken? {k : TokenKind} {op : BinaryOp} (h : ofToken? k = some op) :
    op.symbol = if k = .caret then "**" else k.lexeme := by
  cases k <;> simp [ofToken?] at h <;> subst h <;> decide

end BindOnce

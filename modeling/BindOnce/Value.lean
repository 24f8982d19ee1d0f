import BindOnce.Name
import BindOnce.Syntax

/-!
# Values

What expressions evaluate to.  Values never change once they are made.

Two kinds of value have an identity besides their contents.  A list is numbered when it is made,
and the language compares lists by that number: every list literal and every `map` and `filter`
makes a list of its own, while binding, passing and returning a list keep the one there is.  A
function is identified by its declaration.

List numbers are handed out by a `ListSupply`.  It only counts upwards, so a list it numbers differs
from every list numbered before.
-/

set_option autoImplicit false
namespace BindOnce

/-- The identity of a list. -/
abbrev ListId := Nat

/-- A function: its declaration, and the text of its declared name.  No bindings are kept with it;
a call sees those of its caller. -/
structure Func where
  decl : FunctionDecl Name
  name : String
  deriving Inhabited

namespace Func

/-- How many parameters the function declares. -/
def arity (f : Func) : Nat := f.decl.params.length

/-- Whether two functions come from the same declaration. -/
def same (f g : Func) : Bool := f.decl.node == g.decl.node

end Func

/-- Values. -/
inductive Value where
  | number (n : Float)
  | string (s : String)
  | bool (b : Bool)
  /-- The absent value; a name without a binding has it too. -/
  | nil
  | list (id : ListId) (items : List Value)
  | function (f : Func)
  deriving Inhabited

/-- The kinds of value that operators tell apart. -/
inductive ValueKind where
  | number | string | boolean | nil | list | function
  deriving DecidableEq, Repr, Inhabited

/-- What messages call a kind of value. -/
def ValueKind.text : ValueKind → String
  | .number => "number"
  | .string => "string"
  | .boolean => "boolean"
  | .nil => "nil"
  | .list => "list"
  | .function => "function"

namespace Value

/-- The kind of a value. -/
def kind : Value → ValueKind
  | .number _ => .number
  | .string _ => .string
  | .bool _ => .boolean
  | .nil => .nil
  | .list .. => .list
  | .function _ => .function

/-- The text of a string; other values have none. -/
def string? : Value → Option String
  | .string s => some s
  | _ => none

/-- The value of a literal. -/
def ofLiteral : Literal → Value
  | .number n => .number n
  | .string s => .string s
  | .bool b => .bool b
  | .nil => .nil

/-- A position in a list as callbacks receive it. -/
def ofIndex (i : Nat) : Value := .number (.ofNat i)

end Value

/-- Where the numbering of lists stands. -/
structure ListSupply where
  next : ListId := 0
  deriving DecidableEq, Repr, Inhabited

/-- A new list of the items, and the supply without its number. -/
def ListSupply.make (supply : ListSupply) (items : List Value) : Value × ListSupply :=
  (.list supply.next items, ⟨supply.next + 1⟩)

end BindOnce

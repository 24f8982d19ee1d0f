import BindOnce.Value

/-!
# Two ways for values to be equal

`Value.identical` is the language's `==`: lists are equal when they are one list, functions when
they come from one declaration, numbers as floating-point numbers are (so a number that is not a
number differs from itself), and values of different kinds never.

`Value.alike` differs only in that it looks into lists: two lists are alike when they have alike
items in the same order.  It is for those who run programs; programs cannot ask for it.
-/

set_option autoImplicit false
namespace BindOnce
namespace Value

/-- Equality as programs see it. -/
def identical : Value → Value → Bool
  | .number a, .number b => a == b
  | .string a, .string b => a == b
  | .bool a, .bool b => a == b
  | .nil, .nil => true
  | .list i _, .list j _ => i == j
  | .function f, .function g => f.same g
  | _, _ => false

mutual

/-- Equality of contents. -/
def alike : Value → Value → Bool
  | .number a, .number b => a == b
  | .string a, .string b => a == b
  | .bool a, .bool b => a == b
  | .nil, .nil => true
  | .list _ as, .list _ bs => allAlike as bs
  | .function f, .function g => f.same g
  | _, _ => false

/-- Whether two lists have alike items in the same order. -/
def allAlike : List Value → List Value → Bool
  | [], [] => true
  | a :: as, b :: bs => a.alike b && allAlike as bs
  | _, _ => false

end

end Value
end BindOnce

import BindOnce.CharSet
import BindOnce.Number.Numeral
import BindOnce.Value.Words

/-!
# How values are shown

`Value.display` is what programs print.  Strings stand as they are, except inside a list, where they
are quoted; so `["a, b"]` and `["a", "b"]` can be told apart.

`Value.inspect` is for developers: every value under the name of its kind, with strings quoted
throughout, truth values and the absent value in plain English, and functions with the number of
their parameters.
-/

set_option autoImplicit false
namespace BindOnce

/-! ## Strings between quotes

Quotes let one see where a string begins and ends.  The quote and the backslash are written with a
backslash in front, four control characters by the usual letters, and every other character that
would not show by itself, or that would attach to the character in front of it, by its code point:
`\u{301}`.  All else stands as it is, the apostrophe included. -/

namespace Quoted

/-- A character written by its code point, in hexadecimal without leading zeros. -/
def codePoint (c : Char) : List Char :=
  '\\' :: 'u' :: '\x7b' :: (Nat.toDigits 16 c.toNat ++ ['\x7d'])

/-- How a character is written between quotes. -/
def escape (c : Char) : List Char :=
  match c with
  | '\x00' => ['\\', '0']
  | '\t' => ['\\', 't']
  | '\r' => ['\\', 'r']
  | '\n' => ['\\', 'n']
  | '"' => ['\\', '"']
  | '\\' => ['\\', '\\']
  | _ => if isAttachedMark c || !isPrintable c then codePoint c else [c]

/-- The string between double quotes. -/
def quote (s : String) : String :=
  .ofList ('"' :: (s.toList.flatMap escape ++ ['"']))

end Quoted

/-! ## Values -/

namespace Value

mutual

/-- The text that programs print for a value. -/
def display : Value → String
  | .number n => Number.text n
  | .string s => s
  | .bool true => trueWord
  | .bool false => falseWord
  | .nil => nilWord
  | .list _ items => "[" ++ ", ".intercalate (displayItems items) ++ "]"
  | .function f => s!"<hirimuon {f.name}>"

/-- The texts of the items of a list; strings are quoted. -/
def displayItems : List Value → List String
  | [] => []
  | .string s :: vs => Quoted.quote s :: displayItems vs
  | v :: vs => v.display :: displayItems vs

end

mutual

/-- The text that developers see for a value. -/
def inspect : Value → String
  | .number n => s!"Number({Number.plainText n})"
  | .string s => s!"Str({Quoted.quote s})"
  | .bool true => "Bool(true)"
  | .bool false => "Bool(false)"
  | .nil => "Nil"
  | .list _ items => "List([" ++ ", ".intercalate (inspectItems items) ++ "])"
  | .function f => s!"<hirimuon {f.name}/{f.arity}>"

/-- The texts that developers see for the items of a list. -/
def inspectItems : List Value → List String
  | [] => []
  | v :: vs => v.inspect :: inspectItems vs

end

end Value
end BindOnce

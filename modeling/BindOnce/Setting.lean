/-!
# Settings

A setting is a word that says how programs are run.  It may be padded with blanks of any kind, and
ASCII letters may stand as capitals in it.  A text that is no such word is an error, which keeps the
text as it was given.

The person who runs a program chooses in which language failures are reported.  The choice touches
nothing else: the words of the programming language stay what they are.

A program can be run, or it can be asked for as source text of another language.  Nothing produces
such text yet, so a program is run in either mode; a mode is asked about by its properties.

## What is here

* `settingWord` — what a setting says.
* `Lang`, `Lang.parse` — languages of diagnostics.
* `Mode`, `Mode.parse` — evaluation modes.
-/

set_option autoImplicit false
namespace BindOnce

/-! ## The word -/

/-- Whether a character has the property `White_Space`. -/
def isBlank (c : Char) : Bool :=
  let n := c.toNat
  (0x9 ≤ n && n ≤ 0xd) || n == 0x20 || n == 0x85 || n == 0xa0 || n == 0x1680 ||
    (0x2000 ≤ n && n ≤ 0x200a) || n == 0x2028 || n == 0x2029 || n == 0x202f || n == 0x205f ||
    n == 0x3000

/-- The characters without the blanks at either end. -/
def trimBlanks (cs : List Char) : List Char :=
  ((cs.dropWhile isBlank).reverse.dropWhile isBlank).reverse

/-- What a setting says: its text without the padding, capital ASCII letters made small.  Other
letters keep their case. -/
def settingWord (s : String) : String :=
  .ofList ((trimBlanks s.toList).map Char.toLower)

/-! ## Languages of diagnostics -/

/-- A language in which failures are reported. -/
inductive Lang where
  | waray | tagalog
  deriving DecidableEq, Repr, Inhabited

/-- A text that names no language, as it was given. -/
structure UnknownLang where
  text : String
  deriving DecidableEq, Repr, Inhabited

/-- What a developer reads about a text that names no language. -/
def UnknownLang.message (e : UnknownLang) : String :=
  s!"unknown language `{e.text}` (expected `waray` or `tagalog`)"

namespace Lang

/-- The language that a setting names, by its name or by one of its codes. -/
def parse (s : String) : Except UnknownLang Lang :=
  match settingWord s with
  | "waray" | "war" => .ok .waray
  | "tagalog" | "tl" | "fil" => .ok .tagalog
  | _ => .error ⟨s⟩

/-- The name of the language. -/
def name : Lang → String
  | .waray => "waray"
  | .tagalog => "tagalog"

end Lang

/-! ## Evaluation modes -/

/-- What is to be done with a program. -/
inductive Mode where
  /-- Run it. -/
  | interpret
  /-- Produce source text; for want of a producer, run it. -/
  | transpile
  deriving DecidableEq, Repr, Inhabited

/-- A text that names no mode, as it was given. -/
structure UnknownMode where
  text : String
  deriving DecidableEq, Repr, Inhabited

/-- What a developer reads about a text that names no mode. -/
def UnknownMode.message (e : UnknownMode) : String :=
  s!"unknown mode `{e.text}` (expected `interpret` or `transpile`)"

namespace Mode

/-- The mode that a setting names. -/
def parse (s : String) : Except UnknownMode Mode :=
  match settingWord s with
  | "interpret" => .ok .interpret
  | "transpile" => .ok .transpile
  | _ => .error ⟨s⟩

/-- The name of the mode. -/
def name : Mode → String
  | .interpret => "interpret"
  | .transpile => "transpile"

/-- How many calls may be active at a time. -/
def maxCallDepth : Mode → Nat
  | .interpret | .transpile => 10000

/-- Whether the mode is meant to produce source text. -/
def emitsSource : Mode → Bool
  | .interpret => false
  | .transpile => true

end Mode

end BindOnce

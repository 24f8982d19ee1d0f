/-!
# What a floating-point number is

Numbers of the language are `Float`s, on which the machine computes.  To print one exactly, or to
compute an exact remainder, one needs the number itself: a whole significand times a power of two.
`Binary64` is that reading of a `Float`, taken from its bits, and `Binary64.toFloat` writes it back.

A finite number is read with the significand as the format stores it, the hidden bit included: below
`2 ^ 53`, and below `2 ^ 52` only at the smallest exponent, `-1074`.
-/

set_option autoImplicit false
namespace BindOnce

/-- A floating-point number by value. -/
inductive Binary64 where
  | nan
  | infinite (negative : Bool)
  /-- The number `± significand * 2 ^ exponent`; zero keeps its sign. -/
  | finite (negative : Bool) (significand : Nat) (exponent : Int)
  deriving DecidableEq, Repr

namespace Binary64

/-- The least exponent of the format. -/
def minExponent : Int := -1074

/-- The significand whose only bit is the hidden one, `2 ^ 52`. -/
def hiddenBit : Nat := 0x10000000000000

/-- The bit of the sign, `2 ^ 63`. -/
def signBit : Nat := 0x8000000000000000

/-- The exponent field of what is not finite: all eleven bits are set. -/
def topExponent : Nat := 2047

/-- Read a number off its bits: one for the sign, eleven for the exponent, the rest for the
significand. -/
def ofBits (bits : Nat) : Binary64 :=
  let negative := decide (bits / signBit % 2 = 1)
  let exponent : Nat := bits / hiddenBit % (topExponent + 1)
  let fraction : Nat := bits % hiddenBit
  if exponent = topExponent then
    if fraction = 0 then .infinite negative else .nan
  else if exponent = 0 then .finite negative fraction minExponent
  else .finite negative (hiddenBit + fraction) (minExponent + exponent - 1)

/-- Read a `Float`. -/
def ofFloat (x : Float) : Binary64 := ofBits x.toBits.toNat

/-- Double the significand and lower the exponent, at most `steps` times, until the hidden bit is
set or the least exponent is reached.  The value stays the same. -/
def normalize : (steps : Nat) → (significand : Nat) → (exponent : Int) → Nat × Int
  | 0, m, e => (m, e)
  | steps + 1, m, e =>
    if hiddenBit ≤ m ∨ e ≤ minExponent then (m, e) else normalize steps (2 * m) (e - 1)

/-- The bits of a number whose significand fits the format. -/
def toBits : Binary64 → Nat
  | .nan => 0x7ff8000000000000
  | .infinite negative => sign negative + topExponent * hiddenBit
  | .finite negative 0 _ => sign negative
  | .finite negative significand exponent =>
    let (m, e) := normalize 52 significand exponent
    sign negative + if m < hiddenBit then m else (e - minExponent).toNat * hiddenBit + m
where
  sign (negative : Bool) : Nat := if negative then signBit else 0

/-- Write a number whose significand fits the format as a `Float`. -/
def toFloat (x : Binary64) : Float := .ofBits (.ofNat x.toBits)

end Binary64
end BindOnce

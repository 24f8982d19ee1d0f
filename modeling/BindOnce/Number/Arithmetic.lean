import BindOnce.Number.Binary64

/-!
# Arithmetic the machine does not settle

Sums, products, quotients and comparisons of numbers are the machine's.  Three operations are given
here because the language says more about them than the machine does:

* `Number.truncated` drops the fraction, exactly;
* `Number.remainder` is exact and takes the sign of the dividend, also where the quotient would not
  fit any number;
* `Number.power` differs from the machine's power where the exponent is not a number, and where one
  is raised to an infinite power: the language has no number for either.
-/

set_option autoImplicit false
namespace BindOnce

namespace Binary64

/-- Drop the fraction.  What is not finite has none. -/
def truncated : Binary64 → Binary64
  | .finite negative m e =>
    let one := Nat.pow 2 (-e).toNat
    .finite negative (m / one * one) e
  | x => x

/-- The remainder of division toward zero: `x` less the multiple of `y` next to it on the side of
zero.  Both numbers are whole multiples of the smaller of their two units, so this is a remainder
of whole numbers in that unit. -/
def remainder : Binary64 → Binary64 → Binary64
  | .nan, _ | _, .nan | .infinite _, _ | .finite .., .finite _ 0 _ => .nan
  | .finite negative m e, .infinite _ => .finite negative m e
  | .finite negative m e, .finite _ m' e' =>
    let unit := if e ≤ e' then e else e'
    .finite negative
      ((m * Nat.pow 2 (e - unit).toNat) % (m' * Nat.pow 2 (e' - unit).toNat)) unit

end Binary64

namespace Number

/-- The number without its fraction. -/
def truncated (x : Float) : Float := (Binary64.ofFloat x).truncated.toFloat

/-- The exact remainder, with the sign of the dividend. -/
def remainder (x y : Float) : Float := ((Binary64.ofFloat x).remainder (.ofFloat y)).toFloat

/-- The machine's power, except that there is none for an exponent that is not a number, nor for
one or minus one raised to an infinite exponent. -/
def power (base exponent : Float) : Float :=
  if exponent.isNaN || (base.abs == 1.0 && exponent.isInf) then
    Binary64.nan.toFloat
  else
    base.pow exponent

end Number
end BindOnce

import BindOnce.Number.Binary64

/-!
# The fewest digits that read back

A decimal reads back as a floating-point number when it lies between the midpoints to the number's
two neighbours; a midpoint itself reads back when the significand is even, because that is how ties
are rounded.  `Decimal.shortest` finds, for a positive finite number, a decimal that reads back and
has as few digits as possible, and among those the nearest one, the upper of two that are equally
near.

It tries one digit, then two, and so on.  The decimals with a given number of digits form a grid
around the number, and if any point of the grid reads back then one of the two points next to the
number does.  Seventeen digits always suffice.

Everything is computed with whole numbers.  The number, its midpoints and the grid are brought to a
common denominator: with significand `m` and exponent `e`, the number is `4 * m` quarters of the
unit `2 ^ e`, the midpoint above it `4 * m + 2` quarters, and the midpoint below it `4 * m - 2`, or
`4 * m - 1` where the numbers below lie twice as dense.
-/

set_option autoImplicit false
namespace BindOnce

/-- The number `coefficient * 10 ^ exponent`. -/
structure Decimal where
  coefficient : Nat
  exponent : Int
  deriving DecidableEq, Repr

namespace Decimal

/-- How many decimal digits a whole number has; zero has one. -/
def digitCount (n : Nat) : Nat := (Nat.toDigits 10 n).length

/-- The quarters of a unit from the number `m * 2 ^ e` down to the midpoint below it. -/
def lowerGap (m : Nat) (e : Int) : Nat :=
  if m = Binary64.hiddenBit ∧ Binary64.minExponent < e then 1 else 2

/-- Whether `c / scale` lies between the midpoints, all of them in quarters; the ends count when the
significand is even. -/
def readsBack (m : Nat) (e : Int) (numerator scale c : Nat) : Bool :=
  let low := (4 * m - lowerGap m e) * numerator
  let high := (4 * m + 2) * numerator
  if m % 2 = 0 then low ≤ c * scale && c * scale ≤ high
  else low < c * scale && c * scale < high

/-- The multiple of `10 ^ g` next to `m * 2 ^ e` that reads back, if there is one; of two, the
nearer, and of two equally near the upper. -/
def nearestOnGrid? (m : Nat) (e g : Int) : Option Nat :=
  let numerator : Nat := Nat.pow 2 (e - 2).toNat * Nat.pow 10 (-g).toNat
  let scale : Nat := Nat.pow 2 (2 - e).toNat * Nat.pow 10 g.toNat
  let value := 4 * m * numerator
  let c := value / scale
  let rest := value % scale
  match readsBack m e numerator scale c, readsBack m e numerator scale (c + 1) with
  | false, false => none
  | true, false => some c
  | false, true => some (c + 1)
  | true, true => some (if 2 * rest < scale then c else c + 1)

/-- The place of the leading digit of a positive number: the least power of ten above it. -/
def magnitude (m : Nat) (e : Int) : Int :=
  let num := m * Nat.pow 2 e.toNat
  let den := Nat.pow 2 (-e).toNat
  if den ≤ num then digitCount (num / den) else 1 - digitCount (den / num)

/-- Write a multiple of `10 ^ g` without a final zero.  Only a single nine that was rounded up to
ten can have one: with more digits, the grid one digit coarser would have held the number. -/
def ofGrid (c : Nat) (g : Int) : Decimal :=
  if c % 10 = 0 then ⟨c / 10, g + 1⟩ else ⟨c, g⟩

/-- The decimal with the fewest digits that reads back as `m * 2 ^ e`, for a positive `m` that the
format can hold. -/
def shortest (m : Nat) (e : Int) : Decimal :=
  let top := magnitude m e
  let found? := (List.range 17).findSome? fun (k : Nat) =>
    let g := top - k - 1
    (nearestOnGrid? m e g).map (ofGrid · g)
  found?.getD ⟨0, 0⟩

end Decimal
end BindOnce

import BindOnce.Number.Shortest

/-!
# How numbers are written

Numbers are written with the fewest digits that read back (`Decimal.shortest`), in one of two
layouts: *positional* (`1200`, `0.05`) and *scientific* (`1.2e+3`, `5e-2`).

Programs see `Number.text`: positional from `1e-6` up to but not including `1e21`, scientific
outside; infinities and the absence of a number by name; zero without a sign.  Developers see
`Number.plainText`, which is always positional and keeps the sign of zero.
-/

set_option autoImplicit false
namespace BindOnce

namespace Decimal

/-- The digits of the coefficient. -/
def digits (d : Decimal) : List Char := Nat.toDigits 10 d.coefficient

/-- The number written out without an exponent. -/
def positional (d : Decimal) : String :=
  let digits := d.digits
  let point : Int := digits.length + d.exponent
  .ofList <|
    if point ≤ 0 then '0' :: '.' :: (List.replicate (-point).toNat '0' ++ digits)
    else if d.exponent < 0 then digits.take point.toNat ++ '.' :: digits.drop point.toNat
    else digits ++ List.replicate d.exponent.toNat '0'

/-- The number written with one digit before the point and a signed exponent. -/
def scientific (d : Decimal) : String :=
  let exponent : Int := d.digits.length + d.exponent - 1
  let sign := if exponent < 0 then "-" else "+"
  let mantissa := match d.digits with
    | first :: second :: rest => first :: '.' :: second :: rest
    | digits => digits
  s!"{String.ofList mantissa}e{sign}{exponent.natAbs}"

end Decimal

namespace Number

/-- The sign in front of a numeral. -/
def signText (negative : Bool) : String := if negative then "-" else ""

/-- The least magnitude that is written in scientific layout for being large. -/
def scientificFrom : Float := 1e21

/-- The magnitudes below this one are written in scientific layout for being small. -/
def positionalFrom : Float := 1e-6

/-- A number as programs print it. -/
def text (x : Float) : String :=
  match Binary64.ofFloat x with
  | .nan => "NaN"
  | .infinite negative => signText negative ++ "Infinity"
  | .finite _ 0 _ => "0"
  | .finite negative m e =>
    let d := Decimal.shortest m e
    signText negative ++
      if scientificFrom ≤ x.abs || x.abs < positionalFrom then d.scientific else d.positional

/-- A number as developers see it. -/
def plainText (x : Float) : String :=
  match Binary64.ofFloat x with
  | .nan => "NaN"
  | .infinite negative => signText negative ++ "inf"
  | .finite negative 0 _ => signText negative ++ "0"
  | .finite negative m e => signText negative ++ (Decimal.shortest m e).positional

end Number
end BindOnce

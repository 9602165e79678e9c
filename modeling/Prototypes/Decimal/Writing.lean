import Prototypes.Decimal.Shortest

/-!
# Floats as text

Two forms write the digits of `Magnitude.shortest`. The *plain* form is
positional whatever the size of the number and shows a point only where
digits follow it. The *exact* form always shows that the number is a float:
it has a point, or else an exponent, which numbers from `10 ^ 16` on and those
below `10 ^ -4` get.
-/

namespace Prototypes

namespace Decimal

def zeros (n : Nat) : String := String.ofList (List.replicate n '0')

/-- Positional notation. -/
def positional (d : Decimal) : String :=
  let digits := toString d.digits
  if 0 ≤ d.exponent then
    if d.digits = 0 then "0" else digits ++ zeros d.exponent.toNat
  else
    let places := (-d.exponent).toNat
    if digits.length ≤ places then "0." ++ zeros (places - digits.length) ++ digits
    else
      let chars := digits.toList
      let whole := digits.length - places
      String.ofList (chars.take whole) ++ "." ++ String.ofList (chars.drop whole)

/-- One digit, a point before the others, and the power of ten. -/
def scientific (d : Decimal) : String :=
  let power := d.exponent + (digitCount d.digits : Int) - 1
  match (toString d.digits).toList with
  | [] => "0e0"
  | [digit] => s!"{digit}e{power}"
  | digit :: more => s!"{digit}.{String.ofList more}e{power}"

/-- Whether the number is at least `10 ^ 16` or, unless zero, below `10 ^ -4`. -/
def wantsExponent (d : Decimal) : Bool :=
  let scale := d.exponent + digitCount d.digits
  d.digits ≠ 0 && (scale < -3 || 16 < scale)

end Decimal

namespace Double

/-- A number's text, its digits written by `write`. -/
def textWith (x : Double) (write : Decimal → String) : String :=
  let sign := if x.isNegative then "-" else ""
  match x.classify with
  | .nan => "NaN"
  | .infinite => sign ++ "inf"
  | .finite magnitude => sign ++ write magnitude.shortest

/-- Positional, with a point only where digits follow: `1`, `-0`, `1.5`, `0.0000001`. -/
def plain (x : Double) : String := x.textWith Decimal.positional

/-- A point or an exponent always shows: `1.0`, `1e16`, `5e-324`. -/
def exact (x : Double) : String :=
  x.textWith fun d =>
    if d.wantsExponent then d.scientific
    else if 0 ≤ d.exponent then d.positional ++ ".0"
    else d.positional

end Double

end Prototypes

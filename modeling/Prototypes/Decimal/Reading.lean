import Prototypes.Decimal.Shortest

/-!
# Reading floats

A decimal is read as the nearest double; a tie goes to the even neighbour. A
number too large becomes an infinity, one too small a zero of its sign.

The text is an optional sign followed by `inf`, `infinity` or `nan` in any
mixture of cases, or by digits with at most one point among them, at least
one of them a digit, and an optional exponent.
-/

namespace Prototypes

namespace Double

/-! ## Rounding -/

/-- The quotient nearest to `num / den`, of two equally near the even one. -/
def roundQuotient (num den : Nat) : Nat :=
  let quotient := num / den
  let twice := 2 * (num % den)
  if den < twice || (twice = den && quotient % 2 = 1) then quotient + 1 else quotient

/-- The largest `e` with `2 ^ e ≤ num / den`; neither may be zero. -/
def binaryScale (num den : Nat) : Int :=
  let e : Int := (num.log2 : Int) - den.log2
  if den * Nat.pow 2 e.toNat ≤ num * Nat.pow 2 (-e).toNat then e else e - 1

/-- The double nearest to `num / den`; neither may be zero. -/
def ofQuotient (negative : Bool) (num den : Nat) : Double :=
  let exponent := max (binaryScale num den - 52) (-1074)
  let significand :=
    roundQuotient (num * Nat.pow 2 (-exponent).toNat) (den * Nat.pow 2 exponent.toNat)
  let (significand, exponent) :=
    if significand = Nat.pow 2 53 then (Nat.pow 2 52, exponent + 1) else (significand, exponent)
  if significand < Nat.pow 2 52 then ofFields negative 0 significand
  else if 971 < exponent then infinity negative
  else ofFields negative (exponent + 1075).toNat (significand - Nat.pow 2 52)

/-- The double nearest to a decimal. -/
def ofDecimal (negative : Bool) (d : Decimal) : Double :=
  let scale := d.exponent + Decimal.digitCount d.digits
  if d.digits = 0 || scale < -330 then zero negative
  else if 310 < scale then infinity negative
  else ofQuotient negative (d.digits * Nat.pow 10 d.exponent.toNat) (Nat.pow 10 (-d.exponent).toNat)

/-! ## The text -/

/-- An optional sign, and what follows it. -/
def readSign : List Char → Bool × List Char
  | '-' :: rest => (true, rest)
  | '+' :: rest => (false, rest)
  | text => (false, text)

/-- Digits only, at least one of them. -/
def readDigits? (text : List Char) : Option Nat :=
  if text.isEmpty || !text.all Char.isDigit then none
  else some (text.foldl (fun n c => 10 * n + (c.toNat - '0'.toNat)) 0)

/-- An exponent's sign and digits; no text at all is the exponent zero. -/
def readExponent? : List Char → Option Int
  | [] => some 0
  | c :: rest =>
    if c = 'e' || c = 'E' then
      let (negative, digits) := readSign rest
      (readDigits? digits).map fun n => if negative then -n else n
    else none

/-- Digits, perhaps a point and more digits, perhaps an exponent. -/
def readDecimal? (text : List Char) : Option Decimal := do
  let (whole, rest) := text.span Char.isDigit
  let (places, rest) :=
    match rest with
    | '.' :: rest => rest.span Char.isDigit
    | rest => ([], rest)
  let digits ← readDigits? (whole ++ places)
  let exponent ← readExponent? rest
  return ⟨digits, exponent - places.length⟩

/-- Reads a float. -/
def read? (text : String) : Option Double :=
  let (negative, body) := readSign text.toList
  let word := String.ofList (body.map Char.toLower)
  if word = "inf" || word = "infinity" then some (infinity negative)
  else if word = "nan" then some (nan negative)
  else (readDecimal? body).map (ofDecimal negative)

end Double

end Prototypes

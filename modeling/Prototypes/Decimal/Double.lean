/-!
# Binary floating-point numbers as data

A `Double` is the 64 bits of a binary64 number. The object model never
computes with floats: it reads them from decimal text, compares them bit by
bit and writes them, so the bits are all it needs, and what they mean is
said here in exact integers.

A finite number is `± significand · 2 ^ exponent`. `Magnitude` holds the two
integers without the sign.

Powers are `Nat.pow` by name, so they are the same term whichever instances
of `^` a module has in sight.
-/

namespace Prototypes

/-- A binary64 number, as its bits. -/
structure Double where
  bits : UInt64
deriving DecidableEq, Inhabited

namespace Double

/-! ## Fields of the bit pattern -/

/-- Whether the sign bit is set; `-0` and NaN can have it too. -/
def isNegative (x : Double) : Bool := x.bits.toNat / Nat.pow 2 63 = 1

def biasedExponent (x : Double) : Nat := x.bits.toNat / Nat.pow 2 52 % Nat.pow 2 11

def fraction (x : Double) : Nat := x.bits.toNat % Nat.pow 2 52

/-- The pattern with the given fields; each is taken modulo its width. -/
def ofFields (negative : Bool) (biasedExponent fraction : Nat) : Double :=
  let sign := if negative then Nat.pow 2 63 else 0
  ⟨UInt64.ofNat (sign + biasedExponent % Nat.pow 2 11 * Nat.pow 2 52 + fraction % Nat.pow 2 52)⟩

def zero (negative : Bool) : Double := ofFields negative 0 0

def infinity (negative : Bool) : Double := ofFields negative 2047 0

def nan (negative : Bool) : Double := ofFields negative 2047 (Nat.pow 2 51)

/-! ## What the bits mean -/

/-- `significand · 2 ^ exponent`. -/
structure Magnitude where
  significand : Nat
  exponent : Int
deriving DecidableEq, Inhabited

/-- The kinds of numbers a pattern can be. -/
inductive Class where
  | nan
  | infinite
  | finite (magnitude : Magnitude)
deriving DecidableEq, Inhabited

/-- Subnormal numbers have the exponent of the smallest normal ones and no hidden bit. -/
def classify (x : Double) : Class :=
  if x.biasedExponent = 2047 then
    if x.fraction = 0 then .infinite else .nan
  else if x.biasedExponent = 0 then
    .finite ⟨x.fraction, -1074⟩
  else
    .finite ⟨Nat.pow 2 52 + x.fraction, (x.biasedExponent : Int) - 1075⟩

end Double

end Prototypes

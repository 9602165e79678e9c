import Prototypes.Decimal.Double

/-!
# The shortest decimal of a double

A finite double stands for every real that rounds to it, an interval around
its value. Among the decimals in that interval the shortest one is written,
and among the shortest the one nearest to the value; of two equally near
ones, the larger.

All arithmetic is on natural numbers. For a number of digits `n` the decimals
with `n` digits near the value form a grid, and only the value's two
neighbours on it need to be looked at: the first grid with a neighbour in the
interval wins. Seventeen digits always suffice.
-/

namespace Prototypes

/-- `digits · 10 ^ exponent`. -/
structure Decimal where
  digits : Nat
  exponent : Int
deriving DecidableEq, Inhabited

namespace Decimal

/-- How many decimal digits a number has; one for zero. -/
def digitCount (n : Nat) : Nat := (Nat.toDigits 10 n).length

/-- Moves up to `fuel` trailing zeros of the digits into the exponent. -/
def trimZeros : Nat → Decimal → Decimal
  | 0, d => d
  | fuel + 1, d =>
    if d.digits ≠ 0 ∧ d.digits % 10 = 0 then trimZeros fuel ⟨d.digits / 10, d.exponent + 1⟩
    else d

end Decimal

namespace Double

/--
The reals that round to a double, over a common denominator: those from
`low` to `high`, the ends included exactly when `closed`.
-/
structure Rounding where
  low : Nat
  value : Nat
  high : Nat
  denominator : Nat
  closed : Bool

namespace Magnitude

/--
The interval of a magnitude: half a unit of its last place to either side,
but only a quarter below a power of two, where the neighbour is nearer.
-/
def rounding (m : Magnitude) : Rounding :=
  let below := if m.significand = Nat.pow 2 52 then 1 else 2
  let scale := Nat.pow 2 (m.exponent - 2).toNat
  { low := (4 * m.significand - below) * scale
    value := 4 * m.significand * scale
    high := (4 * m.significand + 2) * scale
    denominator := Nat.pow 2 (2 - m.exponent).toNat
    closed := m.significand % 2 = 0 }

end Magnitude

namespace Rounding

/-- The least `k` with `value < 10 ^ k`; the value must not be zero. -/
def decimalScale (r : Rounding) : Int :=
  let k : Int := (Decimal.digitCount r.value : Int) - Decimal.digitCount r.denominator
  if r.value * Nat.pow 10 (-k).toNat < r.denominator * Nat.pow 10 k.toNat then k else k + 1

/-- Whether `digits · 10 ^ grid` lies in the interval. -/
def contains (r : Rounding) (d : Decimal) : Bool :=
  let x := d.digits * Nat.pow 10 d.exponent.toNat * r.denominator
  let low := r.low * Nat.pow 10 (-d.exponent).toNat
  let high := r.high * Nat.pow 10 (-d.exponent).toNat
  if r.closed then low ≤ x && x ≤ high else low < x && x < high

/-- The nearer of the value's two neighbours on the grid of `10 ^ grid` that lie in the interval. -/
def onGrid? (r : Rounding) (grid : Int) : Option Decimal :=
  let value := r.value * Nat.pow 10 (-grid).toNat
  let unit := r.denominator * Nat.pow 10 grid.toNat
  let down : Decimal := ⟨value / unit, grid⟩
  let up : Decimal := ⟨value / unit + 1, grid⟩
  match r.contains down && down.digits ≠ 0, r.contains up with
  | true, true => some (if 2 * (value % unit) < unit then down else up)
  | true, false => some down
  | false, true => some up
  | false, false => none

/-- Tries grids with `digits`, `digits + 1`, … digits. -/
def search (r : Rounding) (scale : Int) : (fuel digits : Nat) → Decimal
  | 0, digits =>
    ⟨r.value * Nat.pow 10 (digits - scale).toNat /
      (r.denominator * Nat.pow 10 (scale - digits).toNat), scale - digits⟩
  | fuel + 1, digits => (r.onGrid? (scale - digits)).getD (search r scale fuel (digits + 1))

end Rounding

/-- The decimal that is written for a magnitude, without trailing zeros. -/
def Magnitude.shortest (m : Magnitude) : Decimal :=
  if m.significand = 0 then ⟨0, 0⟩
  else Decimal.trimZeros 20 (m.rounding.search m.rounding.decimalScale 17 1)

end Double

end Prototypes

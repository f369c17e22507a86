import ComponentHoist.Decimal.Double

/-!
# ComponentHoist.Decimal.Shortest — the shortest decimal that reads back

`Decimal.shortest` finds, for the absolute value of a finite double, the decimal with the fewest digits among those that
lie nearer to it than to any other double, and of these the nearest.  All arithmetic is exact.

For a number of digits the decimals form a grid, and if a point of the grid reads back then so does one of the two grid
points next to the value, so only these two are tried.
-/

namespace ComponentHoist

/-- The number `significand · 10 ^ exponent`. -/
structure Decimal where
  significand : Nat
  exponent : Int
deriving DecidableEq, Repr

namespace Decimal

/-- The number of decimal digits, one for zero. -/
def digitCount (n : Nat) : Nat :=
  (Nat.toDigits 10 n).length

/-- The real numbers that round to a double: all between the two ends, in quarters of its last place, and the ends
themselves if `closed`. -/
structure Interval where
  low : Nat
  value : Nat
  high : Nat
  /-- A quarter of the last place is `2 ^ (power - 1076)`. -/
  power : Nat
  closed : Bool
deriving Repr

/-- The rounding interval of the absolute value.  Below a power of two the neighbour is half as far away. -/
def Interval.of (x : Double) : Interval where
  low := 4 * x.mantissa - (if x.fractionBits = 0 ∧ 1 < x.exponentBits then 1 else 2)
  value := 4 * x.mantissa
  high := 4 * x.mantissa + 2
  power := x.power
  closed := x.mantissa % 2 = 0

/-- A number of quarters, scaled to be compared with a decimal of the given exponent. -/
def Interval.scale (i : Interval) (exponent : Int) (quarters : Nat) : Nat :=
  quarters * Nat.pow 2 i.power * Nat.pow 10 (-exponent).toNat

/-- A significand under the given exponent, scaled to be compared with a number of quarters. -/
def scaleSignificand (exponent : Int) (significand : Nat) : Nat :=
  significand * Nat.pow 10 exponent.toNat * Nat.pow 2 1076

/-- Whether the decimal rounds to the double. -/
def Interval.contains (i : Interval) (d : Decimal) : Bool :=
  let point := scaleSignificand d.exponent d.significand
  let low := i.scale d.exponent i.low
  let high := i.scale d.exponent i.high
  if i.closed then low ≤ point && point ≤ high else low < point && point < high

/-- Of the two grid points next to the value the nearest that rounds to the double.  Of two at the same distance the
even one is taken. -/
def Interval.nearest? (i : Interval) (exponent : Int) : Option Decimal :=
  let value := i.scale exponent i.value
  let unit := scaleSignificand exponent 1
  let below : Decimal := ⟨value / unit, exponent⟩
  let above : Decimal := ⟨value / unit + 1, exponent⟩
  let distance := 2 * (value % unit)
  let belowFirst := distance < unit ∨ (distance = unit ∧ below.significand % 2 = 0)
  match i.contains below, i.contains above with
  | true, true => some (if belowFirst then below else above)
  | true, false => some below
  | false, true => some above
  | false, false => none

/-- The first grid with a point that rounds to the double, from the coarsest on. -/
def Interval.search (i : Interval) (exponent : Int) : Nat → Decimal
  | 0 => ⟨0, 0⟩
  | fuel + 1 =>
    match i.nearest? exponent with
    | some d => d
    | none => i.search (exponent - 1) fuel

/-- The same number without zeros at the end of its significand. -/
def trimZeros (d : Decimal) : Decimal :=
  let digits := Nat.toDigits 10 d.significand
  let zeros := (digits.reverse.takeWhile (· == '0')).length
  if d.significand = 0 then ⟨0, 0⟩ else ⟨d.significand / Nat.pow 10 zeros, d.exponent + zeros⟩

/-- One less than the number of digits before the point of the absolute value, less than zero for a small one. -/
def magnitude (x : Double) : Int :=
  (digitCount (x.units * Nat.pow 10 400 / Nat.pow 2 1074) : Int) - 401

/-- The shortest decimal that reads back as the absolute value of a finite double.  Seventeen digits always do. -/
def shortest (x : Double) : Decimal :=
  if x.units = 0 then ⟨0, 0⟩
  else ((Interval.of x).search (magnitude x) 17).trimZeros

end Decimal
end ComponentHoist

/-!
# ComponentHoist.Decimal.Double — binary floating-point numbers

A `Double` is the bit pattern of an IEEE number of double width.  A finite one is, up to its sign,
`mantissa · 2 ^ (power - 1074)`.
-/

namespace ComponentHoist

/-- A number in the double format. -/
structure Double where
  bits : UInt64
deriving DecidableEq, Repr

namespace Double

/-- Whether the sign bit is set. -/
def isNegative (x : Double) : Bool :=
  x.bits.toNat / Nat.pow 2 63 = 1

/-- The eleven bits of the exponent. -/
def exponentBits (x : Double) : Nat :=
  x.bits.toNat / Nat.pow 2 52 % Nat.pow 2 11

/-- The fifty-two bits of the fraction. -/
def fractionBits (x : Double) : Nat :=
  x.bits.toNat % Nat.pow 2 52

/-- Whether the number is neither infinite nor a NaN. -/
def isFinite (x : Double) : Bool :=
  x.exponentBits ≠ 2047

/-- Whether the bits stand for no number. -/
def isNaN (x : Double) : Bool :=
  !x.isFinite && x.fractionBits ≠ 0

/-- The integer whose multiple by a power of two is the absolute value. -/
def mantissa (x : Double) : Nat :=
  if x.exponentBits = 0 then x.fractionBits else Nat.pow 2 52 + x.fractionBits

/-- The exponent of that power of two, counted from `2 ^ (-1074)`. -/
def power (x : Double) : Nat :=
  x.exponentBits - 1

/-- The absolute value as a multiple of `2 ^ (-1074)`. -/
def units (x : Double) : Nat :=
  x.mantissa * Nat.pow 2 x.power

/-- The absolute value, if it is an integer. -/
def toNat? (x : Double) : Option Nat :=
  if x.isFinite ∧ x.units % Nat.pow 2 1074 = 0 then some (x.units / Nat.pow 2 1074) else none

end Double
end ComponentHoist

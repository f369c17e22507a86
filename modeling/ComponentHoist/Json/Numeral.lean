import ComponentHoist.Json.Quoted

/-!
# ComponentHoist.Json.Numeral — JSON numbers

A number is scanned into its digits.  Where its value is wanted, it must also fit a double: `Numeral.inRange` says
whether the double nearest to it is finite.
-/

namespace ComponentHoist
namespace Json

/-- A scanned number. -/
structure Numeral where
  isNegative : Bool
  /-- The digits before the point. -/
  integer : List Nat
  /-- The digits behind the point. -/
  fraction : List Nat
  isExponentNegative : Bool
  /-- The digits of the exponent. -/
  exponent : List Nat
deriving DecidableEq, Repr

/-- The digits at the beginning of a text and the text behind them. -/
def spanDigits (cs : List Char) : List Nat × List Char :=
  ((cs.takeWhile Char.isDigit).map fun c => c.toNat - '0'.toNat, cs.dropWhile Char.isDigit)

/-- At least one digit.  `atEnd` is the fault of a text that ends before it. -/
def someDigits (atEnd : Fault) (cs : List Char) : Except Fault (List Nat × List Char) :=
  match spanDigits cs with
  | ([], []) => .error atEnd
  | ([], _) => .error .malformed
  | found => .ok found

/-- A sign, if there is one: whether it is a minus, and the text behind it. -/
def spanSign (cs : List Char) : Bool × List Char :=
  match cs with
  | '-' :: rest => (true, rest)
  | '+' :: rest => (false, rest)
  | _ => (false, cs)

/-- The digits before the point: a lone zero, or digits that begin with another one. -/
def scanInteger (atEnd : Fault) (cs : List Char) : Except Fault (List Nat × List Char) := do
  match ← someDigits atEnd cs with
  | (0 :: _ :: _, _) => .error .malformed
  | found => .ok found

/-- The point and the digits behind it, if there are any. -/
def scanFraction (atEnd : Fault) (cs : List Char) : Except Fault (List Nat × List Char) :=
  match cs with
  | '.' :: rest => someDigits atEnd rest
  | _ => .ok ([], cs)

/-- The exponent, if there is one: whether it is negative, its digits, and the text behind it. -/
def scanExponent (atEnd : Fault) (cs : List Char) : Except Fault (Bool × List Nat × List Char) :=
  match cs with
  | c :: rest =>
    if c = 'e' ∨ c = 'E' then do
      let (negative, rest) := spanSign rest
      let (digits, rest) ← someDigits atEnd rest
      return (negative, digits, rest)
    else .ok (false, [], cs)
  | [] => .ok (false, [], cs)

/-- Scans a number.  `atEnd` is the fault of a text that ends where a digit is due. -/
def scanNumeral (atEnd : Fault) (cs : List Char) : Except Fault (Numeral × List Char) := do
  let (negative, cs) := match cs with
    | '-' :: rest => (true, rest)
    | _ => (false, cs)
  let (integer, cs) ← scanInteger atEnd cs
  let (fraction, cs) ← scanFraction atEnd cs
  let (exponentNegative, exponent, cs) ← scanExponent atEnd cs
  return (⟨negative, integer, fraction, exponentNegative, exponent⟩, cs)

/-- The natural number with the given decimal digits. -/
def ofDigits (digits : List Nat) : Nat :=
  digits.foldl (fun n d => n * 10 + d) 0

/-- The first natural number that no finite double is nearest to: it lies half-way between the largest double and
the next power of two, and goes to the even one of them, which is the power. -/
def rangeEnd : Nat :=
  (Nat.pow 2 54 - 1) * Nat.pow 2 970

/-- Whether `significand * 10 ^ power` lies below the end of the range. -/
def isBelowRangeEnd (significand : Nat) : Int → Bool
  | .ofNat power => significand * Nat.pow 10 power < rangeEnd
  | .negSucc power => significand < rangeEnd * Nat.pow 10 (power + 1)

namespace Numeral

/-- All digits, without the point. -/
def significand (n : Numeral) : List Nat :=
  n.integer ++ n.fraction

/-- The power of ten that goes with the significand. -/
def power (n : Numeral) : Int :=
  let written : Int := ofDigits n.exponent
  (if n.isExponentNegative then -written else written) - n.fraction.length

/-- Whether the double nearest to the number is finite.  The end of the range has 309 digits, so only numbers of that
length are compared digit by digit. -/
def inRange (n : Numeral) : Bool :=
  let digits := n.significand.dropWhile (· == 0)
  let length : Int := digits.length + n.power
  digits.isEmpty || length < 309 || (length == 309 && isBelowRangeEnd (ofDigits digits) n.power)

end Numeral

end Json
end ComponentHoist

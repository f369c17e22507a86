import ComponentHoist.Decimal.Shortest

/-!
# ComponentHoist.Decimal.Numeral — short numerals

The text of a number in a program, as short as its notations allow.

* `plain`: the shortest decimal, positional for magnitudes from `10 ^ (-6)` up to `10 ^ 21` and with an exponent beyond.
* `short`: the plain text, or one in hexadecimal or with another exponent where that takes fewer characters.
* `Double.numeral`: the text of any double, with its sign.
-/

namespace ComponentHoist
namespace Numeral

/-- The text of an integer. -/
def intChars (n : Int) : List Char :=
  (toString n).toList

/-- The plain text of a decimal without zeros at the end of its significand. -/
def plain (d : Decimal) : List Char :=
  let digits := Nat.toDigits 10 d.significand
  let count : Int := digits.length
  -- the point stands behind this many digits
  let point := count + d.exponent
  if d.significand = 0 then ['0']
  else if 0 ≤ d.exponent ∧ point ≤ 21 then digits ++ List.replicate d.exponent.toNat '0'
  else if 0 < point ∧ point ≤ 21 then digits.take point.toNat ++ '.' :: digits.drop point.toNat
  else if -6 < point ∧ point ≤ 0 then '0' :: '.' :: List.replicate (-point).toNat '0' ++ digits
  else
    let mark := if 0 < point then ['e', '+'] else ['e']
    let fraction := match digits.drop 1 with
      | [] => []
      | rest => '.' :: rest
    digits.take 1 ++ fraction ++ mark ++ intChars (point - 1)

/-- The shorter of two texts, the first if they have the same length. -/
def shorter (a b : List Char) : List Char :=
  if b.length < a.length then b else a

/-- The text without a zero before its point and without a plus in its exponent. -/
def bare (text : List Char) : List Char :=
  let text := match text with
    | '0' :: '.' :: rest => '.' :: rest
    | _ => text
  text.filter (· != '+')

/-- The hexadecimal text of an integer.  Integers from `2 ^ 128` on are written as the last one below. -/
def hexadecimal (n : Nat) : List Char :=
  '0' :: 'x' :: Nat.toDigits 16 (min n (Nat.pow 2 128 - 1))

/-- A text of the form `.0…digits`, written with a negative exponent. -/
def smallFraction (text : List Char) : List Char :=
  match text with
  | '.' :: '0' :: rest =>
    rest.dropWhile (· == '0') ++ 'e' :: '-' :: Nat.toDigits 10 (rest.length + 1)
  | _ => text

/-- A text that ends in zeros, with an exponent in their place. -/
def foldZeros (text : List Char) : List Char :=
  let zeros := (text.reverse.takeWhile (· == '0')).length
  if zeros = 0 then text else text.take (text.length - zeros) ++ 'e' :: Nat.toDigits 10 zeros

/-- The value of a text of digits, with a minus in front if it is negative. -/
def readInt (text : List Char) : Int :=
  let value (digits : List Char) : Int := digits.foldl (fun n c => n * 10 + (c.toNat - '0'.toNat : Nat)) 0
  match text with
  | '-' :: digits => -value digits
  | digits => value digits

/-- A text with both a point and an exponent, with its point moved behind the last digit. -/
def dropPoint (text : List Char) : List Char :=
  let whole := text.takeWhile (· != '.')
  let rest := (text.dropWhile (· != '.')).drop 1
  let fraction := rest.takeWhile (· != 'e')
  match rest.dropWhile (· != 'e') with
  | [] => text
  | _ :: exponent => whole ++ fraction ++ 'e' :: intChars (readInt exponent - fraction.length)

/-- A short text of the absolute value of a finite double. -/
def short (x : Double) : List Char :=
  let text := plain (Decimal.shortest x)
  let start := bare text
  match x.toNat? with
  | some n =>
    if n < 1000 then text
    else if (hexadecimal n).length < start.length then hexadecimal n
    else
      let folded := shorter start (foldZeros start)
      shorter folded (dropPoint folded)
  | none =>
    let scaled := shorter start (smallFraction start)
    let folded := shorter scaled (foldZeros scaled)
    shorter folded (dropPoint folded)

end Numeral

/-- The text of a double in a program. -/
def Double.numeral (x : Double) : String :=
  let sign := if x.isNegative then "-" else ""
  if x.isNaN then "NaN"
  else if !x.isFinite then sign ++ "Infinity"
  else sign ++ String.ofList (Numeral.short x)

end ComponentHoist

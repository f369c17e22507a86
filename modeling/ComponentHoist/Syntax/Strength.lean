/-!
# ComponentHoist.Syntax.Strength — how tightly the parts of an expression hold together

An expression stands between parentheses where a greater strength is asked for than it has.

* `Strength`: the strengths from the loosest on, and those of the operators with two operands.
* `Room`: what is asked of an expression at its place in a form.
-/

namespace ComponentHoist
namespace Strength

/-- Values with a type in angle brackets in front of them.  They stand between parentheses everywhere. -/
abbrev assertion : Nat := 0

/-- Expressions with commas between them. -/
abbrev sequence : Nat := 1

/-- Assignments, arrow functions, and values that a generator gives out. -/
abbrev assignment : Nat := 2

/-- Choices between two values. -/
abbrev conditional : Nat := 3

/-- A value, or another one if it is missing. -/
abbrev coalescing : Nat := 4

/-- Alternatives. -/
abbrev disjunction : Nat := 5

/-- Conjunctions. -/
abbrev conjunction : Nat := 6

/-- Alternatives bit by bit. -/
abbrev bitOr : Nat := 7

/-- Differences bit by bit. -/
abbrev bitXor : Nat := 8

/-- Conjunctions bit by bit. -/
abbrev bitAnd : Nat := 9

/-- Tests for equality. -/
abbrev equality : Nat := 10

/-- Comparisons, and values with a type behind them. -/
abbrev comparison : Nat := 11

/-- Tests for a property, which hold together like comparisons. -/
abbrev membership : Nat := 12

/-- Shifts. -/
abbrev shift : Nat := 13

/-- Sums and differences. -/
abbrev sum : Nat := 14

/-- Products and quotients. -/
abbrev product : Nat := 15

/-- Powers. -/
abbrev power : Nat := 16

/-- Values with an operator in front of them. -/
abbrev unary : Nat := 17

/-- Values that are waited for. -/
abbrev awaiting : Nat := 18

/-- Increments and decrements in front of their operand. -/
abbrev increment : Nat := 19

/-- Increments and decrements behind their operand, and accesses that end early where a value is missing. -/
abbrev chain : Nat := 20

/-- Calls. -/
abbrev call : Nat := 21

/-- Creations of objects. -/
abbrev creation : Nat := 22

/-- Everything that cannot be read in two ways. -/
abbrev primary : Nat := 23

/-- The strength of an operator with two operands. -/
def ofOperator : String → Nat
  | "??" => coalescing
  | "||" => disjunction
  | "&&" => conjunction
  | "|" => bitOr
  | "^" => bitXor
  | "&" => bitAnd
  | "==" | "!=" | "===" | "!==" => equality
  | "in" => membership
  | "<<" | ">>" | ">>>" => shift
  | "+" | "-" => sum
  | "*" | "/" | "%" => product
  | "**" => power
  | _ => comparison

/-- What an operator asks of its left operand.  Operators of one strength are taken from the left, but powers from the
right. -/
def leftOf (operator : Nat) : Nat :=
  if operator = membership then comparison
  else if operator = power then unary
  else operator

/-- What an operator asks of its right operand.  Behind an operator of logic the same one needs no parentheses, because
they make no difference. -/
def rightOf (operator : Nat) : Nat :=
  if operator = comparison then shift
  else if operator = power ∨ operator ≤ conjunction then operator
  else operator + 1

/-- Whether the strength is that of a choice or of an operator with two operands. -/
def isOperator (strength : Nat) : Bool :=
  conditional ≤ strength && strength ≤ power

end Strength

/-- What is asked of an expression in a form.  Beside the strength that is asked for, the place of the form may refuse
tests for a property or calls. -/
inductive Room where
  /-- What is asked of the form itself. -/
  | same
  /-- A strength, and all that the place of the form refuses. -/
  | front (strength : Nat)
  /-- A strength, and no test for a property where the place of the form refuses one. -/
  | branch (strength : Nat)
  /-- The strength of a call, and no call where the place of the form refuses one. -/
  | object
  /-- A strength alone. -/
  | enclosed (strength : Nat)
  /-- To be no call, which would be taken for the creation of an object. -/
  | callee
  /-- A strength, and no test for a property, which would be taken for the head of a loop. -/
  | head (strength : Nat)
deriving DecidableEq, Repr

end ComponentHoist

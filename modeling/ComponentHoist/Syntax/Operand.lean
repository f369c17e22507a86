import ComponentHoist.Decimal.Numeral
import ComponentHoist.Syntax.Layout
import ComponentHoist.Syntax.Tree

/-!
# ComponentHoist.Syntax.Operand — where parentheses are needed

Parentheses of the source do not count.  An expression is written between parentheses for one of three reasons.

* `Slot.wraps`: as an operand it would be torn apart, because its parts hold together less tightly than is asked.
* `Place.room`: a part of it would be taken for a part of what stands around it, the head of a loop or the creation of
  an object.
* `Lead`: its first word would be read as something else, because of what stands in front of it.

A function that stands between parentheses in the source keeps these in any place.
-/

namespace ComponentHoist

/-! ### Leads -/

/-- What an expression begins, where that changes how its first word is read. -/
inductive Lead where
  | nothing
  | statement
  | arrowValue
  | defaultExport
deriving DecidableEq, Repr

namespace Lead

/-- Whether a brace would be read as the beginning of a block. -/
def readsBlock : Lead → Bool
  | statement | arrowValue => true
  | _ => false

/-- Whether a function or a class would be read as a declaration. -/
def readsDeclaration : Lead → Bool
  | statement | defaultExport => true
  | _ => false

end Lead

/-! ### Slots -/

/-- What is asked of an expression at its place. -/
structure Slot where
  /-- The least strength that needs no parentheses. -/
  strength : Nat := Strength.sequence
  lead : Lead := .nothing
deriving DecidableEq, Repr

namespace Slot

/-- The slot that asks for a strength alone. -/
def asking (strength : Nat) : Slot :=
  { strength }

/-- Whether an expression of the strength stands between parentheses in the slot at a place. -/
def wraps (slot : Slot) (p : Place) (strength : Nat) : Bool :=
  strength < slot.strength || (p.refusesMembership && strength == Strength.membership) ||
    (p.refusesCall && strength == Strength.call)

/-- The slot inside the parentheses, if there are any. -/
def inside (slot : Slot) (isWrapped : Bool) : Slot :=
  if isWrapped then { slot with lead := .nothing } else slot

/-- The slot of a part of an expression in the slot. -/
def room (slot : Slot) : Room → Slot
  | .same => slot
  | .front strength | .branch strength | .enclosed strength | .head strength => { slot with strength }
  | .object => { slot with strength := Strength.call }
  | .callee => { slot with strength := Strength.creation }

/-- The slot of what stands behind a text. -/
def behind (slot : Slot) (text : String) : Slot :=
  if text.isEmpty then slot else { slot with lead := .nothing }

end Slot

namespace Place

/-- The place of a part of an expression at the place. -/
def room (p : Place) : Room → Place
  | .same | .front _ => p
  | .branch _ => p.allowingCalls
  | .object => p.allowingMembership
  | .enclosed _ => p.free
  | .callee => { p.free with refusesCall := true }
  | .head _ => { p.free with refusesMembership := true }

/-- The place inside the parentheses around an expression of the strength, if there are any.  Those around an operator
show that a test for a property inside them is not the head of a loop. -/
def inside (p : Place) (isWrapped : Bool) (strength : Nat) : Place :=
  if isWrapped && Strength.isOperator strength then p.allowingMembership else p

end Place

/-- Whether a form begins with a brace. -/
def beginsWithBrace : List Part → Bool
  | .text text :: _ => text.toList.head? == some '\x7b'
  | _ => false

/-! ### Questions on expressions -/

/-- How tightly the parts of the expression hold together. -/
def Expr.strength : Expr → Nat
  | .form _ strength _ => strength
  | .wrapped _ .parentheses inner => inner.strength
  | .wrapped .. => Strength.comparison
  | .arrow _ => Strength.assignment
  | .call .. => Strength.call
  | _ => Strength.primary

/-- Whether the expression is a function of either kind. -/
def Expr.isFunction : Expr → Bool
  | .function _ | .arrow _ => true
  | _ => false

/-- Whether the expression is a string, in parentheses or not. -/
def Expr.isString : Expr → Bool
  | .string .. => true
  | .wrapped _ .parentheses inner => inner.isString
  | _ => false

/-- Whether the expression stands between parentheses in the source. -/
def Expr.isParenthesized : Expr → Bool
  | .wrapped _ .parentheses _ => true
  | _ => false

/-- Whether the expression is the name of the given text, in parentheses or not. -/
def Expr.isName (text : String) : Expr → Bool
  | .ident _ name => name == text
  | .wrapped _ .parentheses inner => inner.isName text
  | _ => false

/-- Whether the expression is written as digits alone, so that a point behind it would belong to the number. -/
def Expr.isDigits : Expr → Bool
  | .number _ value => value.numeral.toList.all Char.isDigit
  | .wrapped _ .parentheses inner => inner.isDigits
  | _ => false

/-- Whether a decorator can be written without parentheses: a name, a member of something, or a call of these, without
parentheses in the source. -/
def Expr.isDecoratorLike : Expr → Bool
  | .ident .. | .member .. => true
  | .call _ callee _ _ => callee.isDecoratorLike
  | _ => false

/-- Whether a property with the key can be written as the name of its value alone.  The key of a prototype says
something else with a colon than without. -/
def Key.isShorthandFor (value : Expr) : Key → Bool
  | .label (.bare text) => text != "__proto__" && value.isName text
  | _ => false

/-- Whether a property with the key binds the name that it has. -/
def Key.isBoundAs (target : Pattern) : Key → Bool
  | .label (.bare text) =>
    match target with
    | .name _ bound _ => bound == text
    | .withDefault _ (.name _ bound _) _ => bound == text
    | _ => false
  | _ => false

/-- Whether a list of elements ends in one that is left out, which only a comma behind it shows. -/
def endsInHole (elements : List Expr) : Bool :=
  match elements.getLast? with
  | some .hole => true
  | _ => false

/-- Whether a list of patterns ends in one that is left out, which only a comma behind it shows. -/
def endsInPatternHole (parts : List Pattern) : Bool :=
  match parts.getLast? with
  | some .hole => true
  | _ => false

/-- Whether a list of patterns is that of what is left over alone. -/
def isRestAlone : List Pattern → Bool
  | [.rest ..] => true
  | _ => false

/-! ### Questions on statements -/

mutual

/-- Whether the statement ends in a condition without another branch, which would take an `else` behind it. -/
def Stmt.takesElse : Stmt → Bool
  | .cond _ _ _ none => true
  | .cond _ _ _ (some no) => no.takesElse
  | .form _ parts => Part.lastTakesElse parts
  | _ => false

/-- Whether the last part of a form is a statement that would take an `else` behind it. -/
def Part.lastTakesElse : List Part → Bool
  | [] => false
  | [.body s] => s.takesElse
  | _ :: parts => Part.lastTakesElse parts

end

/-- Whether the statement is a block. -/
def Stmt.isBlock : Stmt → Bool
  | .block .. => true
  | _ => false

/-- Whether the statement is empty. -/
def Stmt.isEmpty : Stmt → Bool
  | .empty _ => true
  | _ => false

/-- What stands between the words that control a statement and the statement. -/
def Stmt.gap : Stmt → String
  | .empty _ => ""
  | _ => " "

/-- What ends the line of the statement.  An interface under a default export is followed by the next line at once. -/
def Stmt.ending : Stmt → String
  | .exportDefaultDecl _ (.interface ..) => ""
  | _ => "\n"

end ComponentHoist

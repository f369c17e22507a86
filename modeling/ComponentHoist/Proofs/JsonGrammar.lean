import ComponentHoist.Json.Skip
import ComponentHoist.Proofs.CodeUnits

/-!
# ComponentHoist.Proofs.JsonGrammar — the grammar of JSON

What a JSON text is, without regard to how it is read.  Values are given by their texts, since of a value that is
passed over nothing else matters.

* `Json.Spells`, `Json.IsQuoted`: string literals and the code units for which they stand.
* `Json.IsNumber`: numbers.
* `Json.IsPadded`, `Json.IsListed`, `Json.IsEnclosed`: white space, commas and brackets.
* `Json.IsArray`, `Json.IsObject`: arrays of any items, and objects by the names and the texts of their members.
* `Json.IsValue`: values, nested to any depth.
-/

namespace ComponentHoist
namespace Json

/-! ### String literals -/

/-- The letters of the short escapes and the characters for which they stand. -/
def shortEscapes : List (Char × Char) :=
  [('"', '"'), ('\\', '\\'), ('/', '/'), ('b', '\x08'), ('f', '\x0c'), ('n', '\n'), ('r', '\r'), ('t', '\t')]

/-- Whether the character is the hexadecimal digit of that value, in either case. -/
def IsHexDigit (c : Char) (n : Nat) : Prop :=
  "0123456789abcdef".toList[n]? = some c ∨ "0123456789ABCDEF".toList[n]? = some c

/-- The characters between the quotes of a literal and the code units for which they stand. -/
inductive Spells : List Char → List Nat → Prop where
  | nil : Spells [] []
  | plain {c : Char} {cs : List Char} {units : List Nat} (noQuote : c ≠ '"') (noSlash : c ≠ '\\')
      (noControl : ¬c.toNat < 0x20) (rest : Spells cs units) : Spells (c :: cs) (charUnits c ++ units)
  | short {letter c : Char} {cs : List Char} {units : List Nat} (escape : (letter, c) ∈ shortEscapes)
      (rest : Spells cs units) : Spells ('\\' :: letter :: cs) (charUnits c ++ units)
  | hex {a b c d : Char} {n₁ n₂ n₃ n₄ : Nat} {cs : List Char} {units : List Nat} (first : IsHexDigit a n₁)
      (second : IsHexDigit b n₂) (third : IsHexDigit c n₃) (fourth : IsHexDigit d n₄) (rest : Spells cs units) :
      Spells ('\\' :: 'u' :: a :: b :: c :: d :: cs) ((((n₁ * 16 + n₂) * 16 + n₃) * 16 + n₄) :: units)

/-- A string literal and the code units for which it stands. -/
def IsQuoted (units : List Nat) (cs : List Char) : Prop :=
  ∃ body, Spells body units ∧ cs = '"' :: (body ++ ['"'])

/-! ### Numbers -/

/-- Decimal digits, at least one. -/
def IsDigits (cs : List Char) : Prop :=
  cs ≠ [] ∧ ∀ c ∈ cs, c.isDigit = true

/-- The digits before the point, which begin with a zero only if that is all. -/
def IsInteger (cs : List Char) : Prop :=
  IsDigits cs ∧ (cs.head? = some '0' → cs = ['0'])

/-- The point and the digits behind it, if there are any. -/
def IsFraction (cs : List Char) : Prop :=
  cs = [] ∨ ∃ digits, IsDigits digits ∧ cs = '.' :: digits

/-- The exponent, if there is one. -/
def IsExponent (cs : List Char) : Prop :=
  cs = [] ∨ ∃ mark sign digits, (mark = 'e' ∨ mark = 'E') ∧ (sign = [] ∨ sign = ['+'] ∨ sign = ['-']) ∧
    IsDigits digits ∧ cs = mark :: (sign ++ digits)

/-- A number, of any size. -/
def IsNumber (cs : List Char) : Prop :=
  ∃ sign integer fraction exponent, (sign = [] ∨ sign = ['-']) ∧ IsInteger integer ∧ IsFraction fraction ∧
    IsExponent exponent ∧ cs = sign ++ (integer ++ (fraction ++ exponent))

/-! ### White space, commas and brackets -/

/-- White space, which may be none. -/
def IsBlank (cs : List Char) : Prop :=
  ∀ c ∈ cs, isSpace c = true

/-- A text with white space around it. -/
def IsPadded (inner cs : List Char) : Prop :=
  ∃ before after, IsBlank before ∧ IsBlank after ∧ cs = before ++ (inner ++ after)

section Lists

variable {α : Type} (item : α → List Char → Prop)

/-- The texts of some items, at least one, with commas between them. -/
inductive IsListed : List α → List Char → Prop where
  | last {a : α} {cs : List Char} (only : item a cs) : IsListed [a] cs
  | more {a : α} {as : List α} {cs cs' : List Char} (first : item a cs) (rest : IsListed as cs') :
      IsListed (a :: as) (cs ++ ',' :: cs')

/-- The texts of some items between an opening and a closing bracket. -/
inductive IsEnclosed (opening closing : Char) : List α → List Char → Prop where
  | none {space : List Char} (blank : IsBlank space) : IsEnclosed opening closing [] (opening :: (space ++ [closing]))
  | some {as : List α} {cs : List Char} (listed : IsListed item as cs) :
      IsEnclosed opening closing as (opening :: (cs ++ [closing]))

/-- An element of an array: the text of an item with white space around it. -/
def IsElement (a : α) (cs : List Char) : Prop :=
  ∃ text, item a text ∧ IsPadded text cs

/-- An array of the texts of some items. -/
def IsArray (as : List α) (cs : List Char) : Prop :=
  IsEnclosed (IsElement item) '[' ']' as cs

end Lists

/-! ### Values -/

/-- A member of an object, by the code units of its name and the text of its value. -/
def IsMember (member : List Nat × List Char) (cs : List Char) : Prop :=
  ∃ quoted name value, IsQuoted member.1 quoted ∧ IsPadded quoted name ∧ IsPadded member.2 value ∧
    cs = name ++ ':' :: value

/-- An object, by its members. -/
def IsObject (members : List (List Nat × List Char)) (cs : List Char) : Prop :=
  IsEnclosed IsMember '\x7b' '\x7d' members cs

/-- The word for a Boolean. -/
def boolText : Bool → List Char
  | true => ['t', 'r', 'u', 'e']
  | false => ['f', 'a', 'l', 's', 'e']

/-- A JSON value. -/
inductive IsValue : List Char → Prop where
  | null : IsValue ['n', 'u', 'l', 'l']
  | bool (value : Bool) : IsValue (boolText value)
  | string {units : List Nat} {cs : List Char} (quoted : IsQuoted units cs) : IsValue cs
  | number {cs : List Char} (number : IsNumber cs) : IsValue cs
  | array {elements : List (List Char)} {cs : List Char} (array : IsArray Eq elements cs)
      (values : ∀ element ∈ elements, IsValue element) : IsValue cs
  | object {members : List (List Nat × List Char)} {cs : List Char} (object : IsObject members cs)
      (values : ∀ member ∈ members, IsValue member.2) : IsValue cs

end Json
end ComponentHoist

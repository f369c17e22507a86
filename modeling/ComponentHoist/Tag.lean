import ComponentHoist.Text.Blank
import ComponentHoist.Text.LowerCase

/-!
# ComponentHoist.Tag — names of custom elements

A tag is checked against eleven rules in a fixed order, and the first one that it breaks is reported.

* `Violation`: the rules, `Violation.message`: what is said about a tag that breaks one.
* `firstViolation`: the first rule broken, if any.
* `IsTagChar`: the characters that a tag may hold once its case and its outer white space are in order.
-/

namespace ComponentHoist
namespace Tag

/-- The rules a tag can break, in the order in which they are tried. -/
inductive Violation where
  | outerSpace
  | upperCase
  | empty
  | space
  | comma
  | invalidChars (chars : List Char)
  | noDash
  | doubleDash
  | leadingDash
  | trailingDash
  | reserved
deriving DecidableEq, Repr

/-- What is said about `tag` when it breaks the rule. -/
def Violation.message (tag : String) : Violation → String
  | outerSpace => "Tag can not contain white spaces"
  | upperCase => "Tag can not contain upper case characters"
  | empty => "Received empty tag value"
  | space => s!"\"{tag}\" tag cannot contain a space"
  | comma => s!"\"{tag}\" tag cannot be used for multiple tags"
  | invalidChars chars => s!"\"{tag}\" tag contains invalid characters: {String.ofList chars}"
  | noDash => s!"\"{tag}\" tag must contain a dash (-) to work as a valid web component"
  | doubleDash => s!"\"{tag}\" tag cannot contain multiple dashes (--) next to each other"
  | leadingDash => s!"\"{tag}\" tag cannot start with a dash (-)"
  | trailingDash => s!"\"{tag}\" tag cannot end with a dash (-)"
  | reserved => s!"\"{tag}\" tag is a reserved name and cannot be used for a custom element"

/-- Hyphenated names that the HTML standard keeps for itself. -/
def reservedNames : List String :=
  ["annotation-xml", "color-profile", "font-face", "font-face-src", "font-face-uri", "font-face-format",
    "font-face-name", "missing-glyph"]

/-- An ASCII letter or digit, an underscore or a dash.  Capital letters are refused by an earlier rule. -/
def isTagChar (c : Char) : Bool :=
  c.isAlphanum || c == '_' || c == '-'

/-- Whether two dashes stand next to each other. -/
def hasDoubleDash : List Char → Bool
  | a :: b :: rest => (a == '-' && b == '-') || hasDoubleDash (b :: rest)
  | _ => false

/-- The first rule that `tag` breaks, or `none` for a valid name. -/
def firstViolation (tag : String) : Option Violation :=
  let cs := tag.toList
  let invalid := cs.filter (fun c => !isTagChar c)
  if Text.trim tag ≠ tag then some .outerSpace
  else if !Text.isLowerCase tag then some .upperCase
  else if cs.isEmpty then some .empty
  else if cs.contains ' ' then some .space
  else if cs.contains ',' then some .comma
  else if !invalid.isEmpty then some (.invalidChars invalid)
  else if !cs.contains '-' then some .noDash
  else if hasDoubleDash cs then some .doubleDash
  else if cs.head? = some '-' then some .leadingDash
  else if cs.getLast? = some '-' then some .trailingDash
  else if tag ∈ reservedNames then some .reserved
  else none

/-- Whether `tag` breaks no rule. -/
def IsValid (tag : String) : Prop :=
  firstViolation tag = none

instance (tag : String) : Decidable (IsValid tag) :=
  inferInstanceAs (Decidable (_ = none))

end Tag
end ComponentHoist

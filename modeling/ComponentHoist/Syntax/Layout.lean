/-!
# ComponentHoist.Syntax.Layout — lines and lists in the text of a module

Every statement and every member stands on a line of its own, indented by one tab for each level, and there are no
blank lines.  A node is written without the indentation of its first line and without the line feed behind its last
one.  The place at which it begins says how its other lines are indented.
-/

namespace ComponentHoist

/-- Where a node begins. -/
structure Place where
  /-- The level of the line. -/
  level : Nat
  /-- Whether the module can hold markup elements. -/
  isMarkup : Bool
  /-- Whether a test for a property would be read as the head of a loop. -/
  refusesMembership : Bool := false
  /-- Whether a call would be read as the creation of an object. -/
  refusesCall : Bool := false
deriving DecidableEq, Repr

namespace Place

/-- The same place one level deeper. -/
def deeper (p : Place) : Place :=
  { p with level := p.level + 1 }

/-- The same place where calls are read as calls. -/
def allowingCalls (p : Place) : Place :=
  { p with refusesCall := false }

/-- The same place where tests for a property are read as such. -/
def allowingMembership (p : Place) : Place :=
  { p with refusesMembership := false }

/-- The same place where everything is read as it is meant. -/
def free (p : Place) : Place :=
  p.allowingCalls.allowingMembership

/-- The indentation of a line. -/
def indent (p : Place) : String :=
  String.ofList (List.replicate p.level '\t')

end Place

namespace Layout

/-- The texts with commas between them, on one line. -/
def commaSeparated (texts : List String) : String :=
  ", ".intercalate texts

/-- The texts on lines of their own, one level deeper, with commas between them.  The line of the closing mark is
begun. -/
def commaLines (p : Place) (texts : List String) : String :=
  "\n" ++ ",\n".intercalate (texts.map (p.deeper.indent ++ ·)) ++ "\n" ++ p.indent

/-- The texts between braces, on one line. -/
def bracedList (texts : List String) : String :=
  if texts.isEmpty then "\x7b\x7d" else "\x7b " ++ commaSeparated texts ++ " \x7d"

/-- The texts between angle brackets, if there are any. -/
def angled (texts : List String) : String :=
  if texts.isEmpty then "" else "<" ++ commaSeparated texts ++ ">"

/-- The texts behind a word, if there are any. -/
def bases (keyword : String) (texts : List String) : String :=
  if texts.isEmpty then "" else " " ++ keyword ++ " " ++ commaSeparated texts

/-- A text as a line of its own. -/
def line (p : Place) (text : String) : String :=
  p.indent ++ text ++ "\n"

/-- Whole lines between braces, or nothing between them. -/
def bracedLines (p : Place) (lines : String) : String :=
  if lines.isEmpty then "\x7b\x7d" else "\x7b\n" ++ lines ++ p.indent ++ "\x7d"

/-- A word with a space behind it, if it is wanted. -/
def word (wanted : Bool) (text : String) : String :=
  if wanted then text ++ " " else ""

/-- The text between parentheses, if that is wanted. -/
def parenthesized (wanted : Bool) (text : String) : String :=
  if wanted then "(" ++ text ++ ")" else text

end Layout
end ComponentHoist

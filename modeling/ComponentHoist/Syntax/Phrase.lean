import ComponentHoist.Syntax.Tree

/-!
# ComponentHoist.Syntax.Phrase — putting parts together

Lists of parts with marks between them and around them, and phrases made of phrases.
-/

namespace ComponentHoist
namespace Part

/-- A text, if it is wanted. -/
def word (wanted : Bool) (text : String) : List Part :=
  if wanted then [.text text] else []

/-- Parts, between parentheses if that is wanted. -/
def parenthesized (wanted : Bool) (parts : List Part) : List Part :=
  if wanted then .text "(" :: parts ++ [.text ")"] else parts

/-- Groups of parts with a mark between them. -/
def separated (mark : String) (groups : List (List Part)) : List Part :=
  [Part.text mark].intercalate groups

/-- The parts of phrases with commas between them. -/
def list (phrases : List Phrase) : List Part :=
  separated ", " (phrases.map Phrase.parts)

/-- Parameters in parentheses. -/
def parameters (params : List Pattern) : List Part :=
  .text "(" :: separated ", " (params.map fun x => [.pattern x]) ++ [.text ")"]

/-- Arguments in parentheses. -/
def arguments (items : List Expr) : List Part :=
  .text "(" :: separated ", " (items.map fun e => [.expr (.enclosed Strength.assignment) e]) ++ [.text ")"]

/-- Type arguments in angle brackets, if there are any. -/
def typeArguments (types : List Phrase) : List Part :=
  if types.isEmpty then [] else .text "<" :: list types ++ [.text ">"]

/-- Whole lines between braces, or nothing between them. -/
def bracedLines (lines : List (List Part)) : List Part :=
  if lines.isEmpty then [.text "\x7b\x7d"]
  else [.text "\x7b", .deeper (lines.flatMap (.line :: ·)), .line, .text "\x7d"]

end Part

namespace Phrase

/-- A text. -/
def text (text : String) : Phrase :=
  ⟨[.text text]⟩

/-- One phrase behind the other. -/
instance : Append Phrase where
  append a b := ⟨a.parts ++ b.parts⟩

/-- Phrases with a mark between them. -/
def separated (mark : String) (phrases : List Phrase) : Phrase :=
  ⟨Part.separated mark (phrases.map parts)⟩

/-- A phrase with a text in front of it. -/
def behind (word : String) (phrase : Phrase) : Phrase :=
  text word ++ phrase

/-- The phrase with a text in front of it, or nothing. -/
def given (word : String) (phrase : Option Phrase) : Phrase :=
  (phrase.map (behind word)).getD ⟨[]⟩

end Phrase
end ComponentHoist

import ComponentHoist.Syntax.Phrase

/-!
# ComponentHoist.Syntax.Markup — markup elements

How elements are put together from attributes and children.  The type arguments of an element are not written.
-/

namespace ComponentHoist

/-- An element, or a fragment if it has no name. -/
def Expr.element (span : Span) (name : String) (typeArguments attributes children : List Phrase) (isClosed : Bool) :
    Expr :=
  let opening := [.text ("<" ++ name), .unwritten (Part.list typeArguments)]
  let inside :=
    if isClosed then [.text " />"] else .text ">" :: children.flatMap Phrase.parts ++ [.text ("</" ++ name ++ ">")]
  .form span Strength.primary (opening ++ attributes.flatMap (.text " " :: ·.parts) ++ inside)

namespace Phrase

/-- The text of a string in a tag, in quotes that it does not hold. -/
def markupString (text : String) : Phrase :=
  Phrase.text (if text.toList.contains '"' then "'" ++ text ++ "'" else "\"" ++ text ++ "\"")

/-- An attribute with its value, if it has one. -/
def markupAttribute (name : String) (value : Option Phrase) : Phrase :=
  text name ++ given "=" value

/-- An element inside another one. -/
def element (e : Expr) : Phrase :=
  ⟨[.expr (.enclosed Strength.sequence) e]⟩

/-- An expression between braces, or nothing between them. -/
def container (inner : Option Expr) : Phrase :=
  text "\x7b" ++ (inner.map element).getD ⟨[]⟩ ++ text "\x7d"

/-- Attributes or children that an expression gives. -/
def spread (inner : Expr) : Phrase :=
  ⟨[.text "\x7b...", .expr (.enclosed Strength.assignment) inner, .text "\x7d"]⟩

end Phrase
end ComponentHoist

import ComponentHoist.Syntax.Operand
import ComponentHoist.Syntax.Type

/-!
# ComponentHoist.Syntax.Form — expressions and statements as forms

How each form of expression and statement on which nothing depends is put together, and what it asks of its parts.

* `Expr.binary` and its kin: operators, accesses and creations.
* `Phrase.place` and its kin: what is assigned to.
* `Stmt.forLoop` and its kin: statements that control others.
-/

namespace ComponentHoist
namespace Expr

/-! ### Literals and words -/

/-- A word or a literal that stands for itself. -/
def token (span : Span) (text : String) : Expr :=
  .form span Strength.primary [.text text]

/-- A regular expression with its flags. -/
def regex (span : Span) (pattern flags : String) : Expr :=
  token span ("/" ++ pattern ++ "/" ++ flags)

/-! ### Accesses and calls -/

/-- A member whose name is computed, of an object that may be missing or not.  The name `let` would begin a declaration
with a pattern. -/
def index (span : Span) (object : Expr) (isOptional : Bool) (key : Expr) : Expr :=
  .form span Strength.primary
    (Part.parenthesized (object.unwrap.isName "let") [.expr .object object] ++
      [.text (if isOptional then "?.[" else "["), .expr (.enclosed Strength.sequence) key, .text "]"])

/-- A member of an object that may be missing. -/
def optionalMember (span : Span) (object : Expr) (name : String) : Expr :=
  .form span Strength.primary [.expr .object object, .text ("?." ++ name)]

/-- A call of a function that may be missing. -/
def optionalCall (span : Span) (callee : Expr) (typeArguments : List Phrase) (arguments : List Expr) : Expr :=
  .form span Strength.call
    ([.expr (.enclosed Strength.call) callee, .text "?."] ++ Part.typeArguments typeArguments ++
      Part.arguments arguments)

/-- An access that ends early where an object or a function is missing. -/
def chain (span : Span) (inner : Expr) : Expr :=
  .form span Strength.chain [.expr .same inner]

/-- The creation of an object. -/
def creation (span : Span) (callee : Expr) (typeArguments : List Phrase) (arguments : List Expr) : Expr :=
  .form span Strength.creation
    ([.text "new ", .expr .callee callee] ++ Part.typeArguments typeArguments ++ Part.arguments arguments)

/-- A template that is given to a function. -/
def tagged (span : Span) (tag : Expr) (typeArguments : List Phrase) (template : Expr) : Expr :=
  .form span Strength.primary
    (.expr (.enclosed Strength.call) tag :: Part.typeArguments typeArguments ++
      [.expr (.enclosed Strength.sequence) template])

/-- A module that is loaded when it is asked for, with a word that says how much of it. -/
def importCall (span : Span) (phase : Option String) (arguments : List Expr) : Expr :=
  .form span Strength.call (.text ("import" ++ (phase.map ("." ++ ·)).getD "") :: Part.arguments arguments)

/-- A value that is said not to be missing.  Parentheses directly inside it are kept. -/
def nonNull (span : Span) (inner : Expr) : Expr :=
  .form span Strength.primary (Part.parenthesized inner.isParenthesized [.expr .same inner] ++ [.text "!"])

/-- A function with its type arguments. -/
def instantiated (span : Span) (inner : Expr) (typeArguments : List Phrase) : Expr :=
  .form span Strength.primary (.expr .same inner :: Part.typeArguments typeArguments)

/-- A value with a type in angle brackets in front of it. -/
def assertion (span : Span) (type : Phrase) (inner : Expr) : Expr :=
  .form span Strength.assertion
    (.text (if type.isFunction then "< " else "<") :: type.parts ++
      [.text ">", .expr (.front Strength.primary) inner])

/-! ### Operators -/

/-- The sign of the operator of an operand, which may stand on either side of it. -/
def sign? : Expr → Option Char
  | .wrapped _ .parentheses inner => inner.sign?
  | .form _ strength (.text text :: _) =>
    if strength = Strength.unary ∨ strength = Strength.increment then text.toList.head? else none
  | .form _ _ (.expr .same inner :: _) => inner.sign?
  | .form _ strength [_, .text text] => if strength = Strength.chain then text.toList.head? else none
  | _ => none

/-- A value with an operator in front of it.  A space follows a word, and stands between two operators of one sign, even
if the second of them comes behind the value. -/
def unary (span : Span) (operator : String) (inner : Expr) : Expr :=
  let mark := operator.toList.head?
  let isApart := (mark.map Char.isAlpha).getD false || ((mark == some '+' || mark == some '-') && inner.sign? == mark)
  .form span Strength.unary [.text (operator ++ (if isApart then " " else "")), .expr (.front Strength.unary) inner]

/-- A value that is waited for. -/
def await (span : Span) (inner : Expr) : Expr :=
  .form span Strength.awaiting [.text "await ", .expr (.front Strength.unary) inner]

/-- An increment or a decrement. -/
def update (span : Span) (operator : String) (isInFront : Bool) (inner : Expr) : Expr :=
  if isInFront then .form span Strength.increment [.text operator, .expr (.front Strength.chain) inner]
  else .form span Strength.chain [.expr (.front Strength.call) inner, .text operator]

/-- Whether the expression tests for a private member, in parentheses or not. -/
def isPrivateTest : Expr → Bool
  | .wrapped _ .parentheses inner => inner.isPrivateTest
  | .form _ strength (.text text :: _) => strength == Strength.comparison && text.startsWith "#"
  | _ => false

/-- An operator between two operands.  Alternatives and conjunctions stand in parentheses beside `??`, and so does a
value with an operator in front of it to the left of `**`.  A test for a private member never does to the left. -/
def binary (span : Span) (operator : String) (left right : Expr) : Expr :=
  let strength := Strength.ofOperator operator
  let isLogical (e : Expr) : Bool := e.strength == Strength.disjunction || e.strength == Strength.conjunction
  let leftRoom :=
    if left.isPrivateTest then Strength.sequence
    else if strength = Strength.coalescing ∧ isLogical left then Strength.chain
    else if strength = Strength.power ∧ left.strength = Strength.unary then Strength.primary
    else Strength.leftOf strength
  let rightRoom :=
    if strength = Strength.coalescing ∧ isLogical right then Strength.chain else Strength.rightOf strength
  .form span strength [.expr (.front leftRoom) left, .text (" " ++ operator ++ " "), .expr (.front rightRoom) right]

/-- Whether an object has a private member. -/
def hasPrivate (span : Span) (name : String) (object : Expr) : Expr :=
  .form span Strength.comparison [.text ("#" ++ name ++ " in "), .expr (.head Strength.comparison) object]

/-- One of two values, by a test. -/
def conditional (span : Span) (test yes no : Expr) : Expr :=
  .form span Strength.conditional
    [.expr (.branch Strength.coalescing) test, .text " ? ", .expr (.enclosed Strength.assignment) yes, .text " : ",
      .expr (.branch Strength.assignment) no]

/-- An assignment to what a phrase says. -/
def assign (span : Span) (target : Phrase) (operator : String) (value : Expr) : Expr :=
  .form span Strength.assignment
    (target.parts ++ [.text (" " ++ operator ++ " "), .expr (.front Strength.assignment) value])

/-- A value that a generator gives out, or all values of another generator. -/
def yielding (span : Span) (isDelegate : Bool) (value : Option Expr) : Expr :=
  let value := (value.map fun e => [Part.text " ", .expr (.front Strength.assignment) e]).getD []
  .form span Strength.assignment (.text (if isDelegate then "yield*" else "yield") :: value)

/-- Expressions with commas between them, of which the last gives the value. -/
def sequence (span : Span) (items : List Expr) : Expr :=
  .form span Strength.sequence (Part.separated ", " (items.map fun e => [.expr (.branch Strength.sequence) e]))

end Expr

/-! ### What is assigned to -/

namespace Phrase

/-- A name or a member that is assigned to. -/
def place (e : Expr) : Phrase :=
  ⟨[.expr (.front Strength.assignment) e]⟩

/-- An object whose properties are assigned one by one. -/
def objectPlaces (places : List Phrase) : Phrase :=
  text "\x7b" ++ separated ", " places ++ text "\x7d"

/-- An array whose elements are assigned one by one.  A comma shows that the last one is left out. -/
def arrayPlaces (places : List Phrase) : Phrase :=
  let endsInHole := (places.getLast?.map fun x => x.parts.isEmpty).getD false
  text "[" ++ separated ", " places ++ text (if endsInHole then ",]" else "]")

/-- The place of a property. -/
def keyedPlace (key : Key) (place : Phrase) : Phrase :=
  ⟨[.key key, .text ": "]⟩ ++ place

/-- The place of what is left over. -/
def restPlace (place : Phrase) : Phrase :=
  text "..." ++ place

/-- A place with a value for what is missing. -/
def placeWithDefault (place : Phrase) (value : Expr) : Phrase :=
  place ++ ⟨[.text " = ", .expr (.enclosed Strength.assignment) value]⟩

end Phrase

/-! ### Statements -/

/-- A variable in the head of a loop. -/
def Declarator.toPhrase (d : Declarator) : Phrase :=
  let init := (d.init.map fun e => [Part.text " = ", .expr (.head Strength.assignment) e]).getD []
  ⟨.pattern d.target :: init⟩

namespace Phrase

/-- Variables in the head of a loop. -/
def loopVariables (keyword : String) (declarators : List Declarator) : Phrase :=
  text (keyword ++ " ") ++ separated ", " (declarators.map Declarator.toPhrase)

/-- An expression in the head of a loop. -/
def start (e : Expr) : Phrase :=
  ⟨[.expr (.head Strength.sequence) e]⟩

/-- What takes the keys or values of a loop.  The name `async` would begin a function. -/
def target (e : Expr) : Phrase :=
  ⟨Part.parenthesized (e.isName "async") (place e).parts⟩

end Phrase

namespace Stmt

/-- A statement that raises an error. -/
def throwing (span : Span) (value : Expr) : Stmt :=
  .form span [.text "throw ", .expr (.enclosed Strength.sequence) value, .text ";"]

/-- A statement of words. -/
def words (span : Span) (texts : List String) : Stmt :=
  .form span [.text (" ".intercalate texts ++ ";")]

/-- A statement with a label. -/
def labelled (span : Span) (label : String) (body : Stmt) : Stmt :=
  .form span [.text (label ++ ":"), .body body]

/-- A loop that tests first. -/
def whileLoop (span : Span) (test : Expr) (body : Stmt) : Stmt :=
  .form span [.text "while (", .expr (.enclosed Strength.sequence) test, .text ")", .body body]

/-- A loop that tests last.  A body that is no block stands on a line of its own, but an empty one on the line of the
first word with the indentation of a line in front of it, and none in front of the test. -/
def doLoop (span : Span) (body : Stmt) (test : Expr) : Stmt :=
  let body :=
    if body.isBlock then [.text "do", .body body, .text " "]
    else if body.isEmpty then [.text "do", .indent, .stmt body, .text "\n"]
    else [.text "do", .deeper [.line, .stmt body], .line]
  .form span (body ++ [.text "while (", .expr (.enclosed Strength.sequence) test, .text ");"])

/-- A loop with a start, a test and a step. -/
def forLoop (span : Span) (start : Option Phrase) (test step : Option Expr) (body : Stmt) : Stmt :=
  let given (e : Option Expr) : List Part :=
    (e.map fun e => [Part.text " ", .expr (.enclosed Strength.sequence) e]).getD []
  .form span
    (.text "for (" :: (start.map Phrase.parts).getD [] ++ [.text ";"] ++ given test ++ [.text ";"] ++ given step ++
      [.text ")", .body body])

/-- A part of what takes the keys of a loop.  What the place of the loop refuses is not refused in it. -/
def freed : Part → Part
  | .expr (.front strength) e => .expr (.enclosed strength) e
  | part => part

/-- A loop over the keys of an object. -/
def forKeys (span : Span) (place : Phrase) (object : Expr) (body : Stmt) : Stmt :=
  .form span
    (.text "for (" :: place.parts.map freed ++
      [.text " in ", .expr (.enclosed Strength.sequence) object, .text ")", .body body])

/-- A loop over values, which are waited for or not. -/
def forValues (span : Span) (isAwaited : Bool) (place : Phrase) (values : Expr) (body : Stmt) : Stmt :=
  .form span
    (.text (if isAwaited then "for await (" else "for (") :: place.parts ++
      [.text " of ", .expr (.enclosed Strength.assignment) values, .text ")", .body body])

/-- A case of a choice, or its default if it has no test.  A single statement stands on the line. -/
def choiceCase (test : Option Expr) (statements : List Stmt) : List Part :=
  let opening :=
    match test with
    | some e => [Part.text "case ", .expr (.enclosed Strength.sequence) e, .text ":"]
    | none => [.text "default:"]
  match statements with
  | [s] => opening ++ [.body s]
  | _ => opening ++ [.deeper (statements.flatMap fun s => [.line, .stmt s])]

/-- A choice between cases. -/
def choice (span : Span) (subject : Expr) (cases : List (List Part)) : Stmt :=
  .form span
    ([.text "switch (", .expr (.enclosed Strength.sequence) subject, .text ") "] ++ Part.bracedLines cases)

/-- A block whose errors are caught, with the parameter that they are bound to, and a block that comes last. -/
def attempt (span : Span) (block : List Stmt) (param : Option Pattern) (handler finalizer : Option (List Stmt)) :
    Stmt :=
  let param := (param.map fun x => [Part.text " (", .pattern x, .text ")"]).getD []
  let handler := (handler.map fun ss => .text " catch" :: param ++ [.text " ", .block ss]).getD []
  let finalizer := (finalizer.map fun ss => [Part.text " finally ", .block ss]).getD []
  .form span ([.text "try ", .block block] ++ handler ++ finalizer)

end Stmt
end ComponentHoist

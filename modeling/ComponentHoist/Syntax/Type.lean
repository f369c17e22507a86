import ComponentHoist.Syntax.Phrase
import ComponentHoist.Syntax.Quoted

/-!
# ComponentHoist.Syntax.Type — types as phrases

How each form of type is put together from the types inside it.  Parentheses of the source are kept.  The members of an
object type stand on lines of their own.
-/

namespace ComponentHoist
namespace Phrase

/-! ### Names and literals -/

/-- A named type with its arguments. -/
def named (name : String) (arguments : List Phrase) : Phrase :=
  ⟨.text name :: Part.typeArguments arguments⟩

/-- The type of one string. -/
def string (value : String) : Phrase :=
  text (Quoted.literal value)

/-- The type of the strings that a template stands for. -/
def template (chunks : List String) (types : List Phrase) : Phrase :=
  text "`" ++ go chunks types ++ text "`"
where
  /-- The chunks with the types between them. -/
  go : List String → List Phrase → Phrase
    | [], _ => ⟨[]⟩
    | chunk :: chunks, [] => text chunk ++ go chunks []
    | chunk :: chunks, type :: types => text chunk ++ text "$\x7b" ++ type ++ text "\x7d" ++ go chunks types

/-- The type of a value. -/
def query (value : Phrase) (arguments : List Phrase) : Phrase :=
  ⟨.text "typeof " :: value.parts ++ Part.typeArguments arguments⟩

/-- A type of another module, or the module itself. -/
def imported (source : String) (options : Option Expr) (qualifier : Option String) (arguments : List Phrase) : Phrase :=
  let options := (options.map fun e => [Part.text ", ", .expr (.enclosed Strength.sequence) e]).getD []
  ⟨.text ("import(" ++ Quoted.literal source) :: options ++ [.text (")" ++ (qualifier.map ("." ++ ·)).getD "")] ++
    Part.typeArguments arguments⟩

/-! ### Types made of types -/

/-- Any of several types. -/
def union (types : List Phrase) : Phrase :=
  separated " | " types

/-- All of several types. -/
def intersection (types : List Phrase) : Phrase :=
  separated " & " types

/-- A type between parentheses. -/
def parenthesized (inner : Phrase) : Phrase :=
  text "(" ++ inner ++ text ")"

/-- The type of arrays. -/
def array (element : Phrase) : Phrase :=
  element ++ text "[]"

/-- The type of arrays of a fixed length. -/
def tuple (elements : List Phrase) : Phrase :=
  text "[" ++ separated ", " elements ++ text "]"

/-- An element of a tuple that has a name. -/
def labelled (name : String) (isOptional : Bool) (type : Phrase) : Phrase :=
  text (name ++ (if isOptional then "?: " else ": ")) ++ type

/-- An element of a tuple that may be missing. -/
def optional (type : Phrase) : Phrase :=
  type ++ text "?"

/-- The elements at the end of a tuple. -/
def rest (type : Phrase) : Phrase :=
  text "..." ++ type

/-- The type of a member. -/
def indexed (object key : Phrase) : Phrase :=
  object ++ text "[" ++ key ++ text "]"

/-- One of two types, by whether a type extends another one. -/
def conditional (type bound yes no : Phrase) : Phrase :=
  type ++ text " extends " ++ bound ++ text " ? " ++ yes ++ text " : " ++ no

/-- A type parameter: the words in front of its name, what its arguments extend, and what stands in for a missing
one. -/
def parameter (modifiers : List String) (name : String) (bound fallback : Option Phrase) : Phrase :=
  text (String.join (modifiers.map (· ++ " ")) ++ name) ++ given " extends " bound ++ given " = " fallback

/-- What a function tells about a parameter by its result. -/
def predicate (isAsserted : Bool) (name : String) (type : Option Phrase) : Phrase :=
  text ((if isAsserted then "asserts " else "") ++ name) ++ given " is " type

/-- An object type with a member for each member of another type.  The two signs say whether the members are made
read-only and optional, or the contrary. -/
def mapped (readonlySign : Option String) (name : String) (source : Phrase) (renamed : Option Phrase)
    (optionalSign : Option String) (type : Option Phrase) : Phrase :=
  let modifier := (readonlySign.map (· ++ "readonly ")).getD ""
  let mark := (optionalSign.map (· ++ "?")).getD ""
  text ("\x7b " ++ modifier ++ "[" ++ name ++ " in ") ++ source ++ given " as " renamed ++ text ("]" ++ mark) ++
    given " : " type ++ text " \x7d"

/-! ### Functions and object types -/

/-- Parameters and a result with a mark between them. -/
def signature (generics : List Phrase) (params : List Pattern) (mark : String) (result : Option Phrase) : Phrase :=
  ⟨.generics generics :: Part.parameters params⟩ ++ given mark result

/-- A key of a member, with a question mark if the member may be missing. -/
def keyed (key : Key) (isOptional : Bool) : Phrase :=
  ⟨.key key :: Part.word isOptional "?"⟩

/-- A property of an object type. -/
def property (isReadonly : Bool) (key : Key) (isOptional : Bool) (type : Option Phrase) : Phrase :=
  text (if isReadonly then "readonly " else "") ++ keyed key isOptional ++ given ": " type

/-- A method of an object type. -/
def method (kind : MethodKind) (key : Key) (isOptional : Bool) (signature : Phrase) : Phrase :=
  text kind.text ++ keyed key isOptional ++ signature

/-- The type of all members whose names are not written down, with the words in front of it. -/
def index (modifiers : List String) (params : List Pattern) (type : Option Phrase) : Phrase :=
  ⟨.text (String.join (modifiers.map (· ++ " ")) ++ "[") ::
    Part.separated ", " (params.map fun x => [.pattern x]) ++ [.text "]"]⟩ ++ given ": " type

/-- The members of an interface. -/
def members (items : List Phrase) : Phrase :=
  ⟨Part.bracedLines (items.map fun m => m.parts ++ [.text ";"])⟩

/-- The part with its key, if it is a number, as it stands in the source. -/
def asWritten : Part → Part
  | .key (.number _ source) => .key (.numeral source)
  | part => part

/-- The members of an object type.  Numbers among their keys stay as they are written. -/
def objectType (items : List Phrase) : Phrase :=
  members (items.map fun m => ⟨m.parts.map asWritten⟩)

/-- Whether the phrase is the type of a function. -/
def isFunction (phrase : Phrase) : Bool :=
  match phrase.parts with
  | .generics _ :: _ => true
  | _ => false

end Phrase
end ComponentHoist

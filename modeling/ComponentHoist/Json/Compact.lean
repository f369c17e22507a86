import ComponentHoist.Json.Quoted

/-!
# ComponentHoist.Json.Compact — JSON values and their compact text

`Json` is the type of the values that are written: `compact` writes one without any white space, the members of an
object in their order.
-/

namespace ComponentHoist

/-- A JSON value without numbers. -/
inductive Json where
  | null
  | bool (value : Bool)
  | string (value : String)
  | array (elements : List Json)
  | object (members : List (String × Json))

namespace Json

/-- A list of texts. -/
def strings (texts : List String) : Json :=
  .array (texts.map .string)

/-- A text or nothing. -/
def ofOption : Option String → Json
  | some text => .string text
  | none => .null

mutual

/-- The text of a value, without white space. -/
def compact : Json → String
  | null => "null"
  | bool value => if value then "true" else "false"
  | string value => quote value
  | array elements => "[" ++ compactElements elements ++ "]"
  | object members => "\x7b" ++ compactMembers members ++ "\x7d"

/-- The texts of the elements with commas between them. -/
def compactElements : List Json → String
  | [] => ""
  | [element] => compact element
  | element :: rest => compact element ++ "," ++ compactElements rest

/-- The texts of the members with commas between them. -/
def compactMembers : List (String × Json) → String
  | [] => ""
  | [(key, value)] => quote key ++ ":" ++ compact value
  | (key, value) :: rest => quote key ++ ":" ++ compact value ++ "," ++ compactMembers rest

end

end Json
end ComponentHoist

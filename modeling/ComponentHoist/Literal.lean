import ComponentHoist.Style.ModeMap
import ComponentHoist.Syntax.Tree

/-!
# ComponentHoist.Literal — values of static members

Values that can be written as literals, the expressions that write them, and the class members they initialize.
-/

namespace ComponentHoist

/-- A value that can be written as a literal.  The keys of a map stand in their order. -/
inductive Literal where
  | string (value : String)
  | number (value : Double)
  | boolean (value : Bool)
  | list (items : List Literal)
  | map (entries : List (String × Literal))
deriving Inhabited

/-- The span of the syntax that comes from no source text. -/
def Span.synthesized : Span :=
  ⟨0, 0⟩

namespace Literal

/-- The text, if the value is one. -/
def asString? : Literal → Option String
  | string value => some value
  | _ => none

/-- A list of texts. -/
def ofStrings (texts : List String) : Literal :=
  .list (texts.map .string)

/-- The lists of paths by mode. -/
def ofModeMap (m : ModeMap) : Literal :=
  .map (m.entries.map fun (mode, paths) => (mode, ofStrings paths))

mutual

/-- The expression that writes the value. -/
def toExpr : Literal → Expr
  | string value => .string .synthesized value
  | number value => .number .synthesized value
  | boolean value => .boolean .synthesized value
  | list items => .array .synthesized (toElements items)
  | map entries => .object .synthesized (toEntries entries)

/-- The expressions that write the items of a list. -/
def toElements : List Literal → List Expr
  | [] => []
  | item :: items => item.toExpr :: toElements items

/-- The properties that write the entries of a map.  All keys are quoted. -/
def toEntries : List (String × Literal) → List Entry
  | [] => []
  | (key, value) :: entries =>
    .property .synthesized (.label (.quoted key)) .plain value.toExpr :: toEntries entries

end

theorem toElements_eq_map (items : List Literal) : toElements items = items.map toExpr := by
  induction items with
  | nil => rfl
  | cons item items ih => simp [toElements, ih]

theorem toEntries_eq_map (entries : List (String × Literal)) :
    toEntries entries = entries.map fun (key, value) =>
      .property .synthesized (.label (.quoted key)) .plain value.toExpr := by
  induction entries with
  | nil => rfl
  | cons entry entries ih => simp [toEntries, ih]

end Literal

/-- A static member: its name and its value. -/
structure StaticMember where
  name : String
  value : Literal

/-- The class member that declares a static member. -/
def StaticMember.toMember (m : StaticMember) : Member :=
  .property { span := .synthesized, isStatic := true } [] (.label (.bare m.name)) none
    (some m.value.toExpr)

/-- The class with static members behind its own. -/
def Class.lower (cls : Class) (members : List StaticMember) : Class :=
  { cls with members := cls.members ++ members.map StaticMember.toMember }

end ComponentHoist

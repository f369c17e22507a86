import ComponentHoist.Json.Compact
import ComponentHoist.Json.Skip
import ComponentHoist.Text.Blank

/-!
# ComponentHoist.Config — the settings of the pass

* `Config`: the settings with their defaults, `Config.toText`: their JSON text.
* `Config.ofText`: settings from a JSON text.  A blank text gives the defaults.  An object sets the settings by name, in
  any order and each at most once, and may hold other members; an array sets them by position.  The text is read from
  left to right, and the first thing wrong with it decides the fault.
-/

namespace ComponentHoist

/-- The settings of the pass. -/
structure Config where
  /-- Whether modules under test are passed, in which a component need not be the only export. -/
  isTesting : Bool := false
  /-- The name of the decorator that makes a class a component. -/
  decoratorName : String := "Component"
  /-- The names of the class decorators that are stripped. -/
  decoratorsToRemove : List String := []
deriving DecidableEq, Repr, Inhabited

namespace Config

/-! ### Writing -/

/-- The settings as a JSON object. -/
def toJson (config : Config) : Json :=
  .object [("isTesting", .bool config.isTesting), ("decoratorName", .string config.decoratorName),
    ("decoratorsToRemove", Json.strings config.decoratorsToRemove)]

/-- The compact JSON text of the settings. -/
def toText (config : Config) : String :=
  config.toJson.compact

/-! ### Reading the value of a setting -/

open Json (Fault dropSpace expectWord)

/-- The fault of a value that has another shape than its place demands.  A scalar is read to its end first, so a fault
inside it comes before the mismatch; a bracket or brace is a mismatch at once. -/
def mismatch (cs : List Char) : Fault :=
  let ofScalar {α : Type} : Except Fault α → Fault
    | .ok _ => .mismatched
    | .error fault => fault
  match cs with
  | [] => .truncated
  | 'n' :: rest => ofScalar (expectWord ['u', 'l', 'l'] rest)
  | 't' :: rest => ofScalar (expectWord ['r', 'u', 'e'] rest)
  | 'f' :: rest => ofScalar (expectWord ['a', 'l', 's', 'e'] rest)
  | '"' :: rest => ofScalar (Json.decode rest)
  | '[' :: _ => .mismatched
  | '\x7b' :: _ => .mismatched
  | c :: rest =>
    if c = '-' ∨ c.isDigit then
      match Json.scanNumeral .truncated (c :: rest) with
      | .ok (numeral, _) => if numeral.inRange then .mismatched else .malformed
      | .error fault => fault
    else .malformed

/-- Reads a Boolean. -/
def readBool (cs : List Char) : Except Fault (Bool × List Char) :=
  match dropSpace cs with
  | 't' :: rest => (expectWord ['r', 'u', 'e'] rest).map (true, ·)
  | 'f' :: rest => (expectWord ['a', 'l', 's', 'e'] rest).map (false, ·)
  | other => .error (mismatch other)

/-- Reads a text. -/
def readString (cs : List Char) : Except Fault (String × List Char) :=
  match dropSpace cs with
  | '"' :: rest => Json.decode rest
  | other => .error (mismatch other)

/-- Reads the texts of a list of which there is at least one more, and its bracket. -/
def readElements : Nat → List Char → Except Fault (List String × List Char)
  | 0, _ => .error .truncated
  | fuel + 1, cs => do
    let (text, rest) ← readString cs
    match dropSpace rest with
    | [] => .error .truncated
    | ']' :: rest => return ([text], rest)
    | ',' :: rest => do
      let (texts, rest) ← readElements fuel rest
      return (text :: texts, rest)
    | _ => .error .malformed

/-- Reads a list of texts. -/
def readStrings (cs : List Char) : Except Fault (List String × List Char) :=
  match dropSpace cs with
  | '[' :: rest =>
    match dropSpace rest with
    | ']' :: rest => .ok ([], rest)
    | rest => readElements (rest.length + 1) rest
  | other => .error (mismatch other)

/-! ### Reading all settings -/

/-- The settings that a text has given so far. -/
structure Given where
  isTesting : Option Bool := none
  decoratorName : Option String := none
  decoratorsToRemove : Option (List String) := none
deriving DecidableEq, Repr

/-- The settings given, and the defaults for the others. -/
def Given.complete (given : Given) : Config where
  isTesting := given.isTesting.getD ({} : Config).isTesting
  decoratorName := given.decoratorName.getD ({} : Config).decoratorName
  decoratorsToRemove := given.decoratorsToRemove.getD ({} : Config).decoratorsToRemove

/-- The names of the settings. -/
inductive Setting where
  | isTesting
  | decoratorName
  | decoratorsToRemove
deriving DecidableEq, Repr

/-- The settings in the order of their positions. -/
def Setting.all : List Setting :=
  [.isTesting, .decoratorName, .decoratorsToRemove]

/-- The key of a setting in a JSON object. -/
def Setting.key : Setting → String
  | .isTesting => "isTesting"
  | .decoratorName => "decoratorName"
  | .decoratorsToRemove => "decoratorsToRemove"

/-- The setting with the given key. -/
def Setting.ofKey? (key : String) : Option Setting :=
  Setting.all.find? (·.key == key)

/-- Whether the setting has been given. -/
def Given.has (given : Given) : Setting → Bool
  | .isTesting => given.isTesting.isSome
  | .decoratorName => given.decoratorName.isSome
  | .decoratorsToRemove => given.decoratorsToRemove.isSome

/-- Reads the value of a setting. -/
def Given.read (given : Given) (setting : Setting) (cs : List Char) : Except Fault (Given × List Char) :=
  match setting with
  | .isTesting => (readBool cs).map fun (value, rest) => ({ given with isTesting := some value }, rest)
  | .decoratorName => (readString cs).map fun (value, rest) => ({ given with decoratorName := some value }, rest)
  | .decoratorsToRemove =>
    (readStrings cs).map fun (value, rest) => ({ given with decoratorsToRemove := some value }, rest)

/-- The text behind the colon that follows a key. -/
def expectColon (cs : List Char) : Except Fault (List Char) :=
  match dropSpace cs with
  | [] => .error .truncated
  | ':' :: rest => .ok rest
  | _ => .error .malformed

/-- Reads one member from behind the opening quote of its key.  A setting that is given a second time is refused at
once, and a member that is no setting is passed over. -/
def readMember (given : Given) (cs : List Char) : Except Fault (Given × List Char) := do
  let (key, rest) ← Json.decode cs
  match Setting.ofKey? key with
  | some setting =>
    if given.has setting then .error .mismatched
    else given.read setting (← expectColon rest)
  | none => do
    let rest ← Json.skip (← expectColon rest)
    return (given, rest)

/-- Reads the members of an object of which there is at least one more, and its brace. -/
def readMembers : Nat → Given → List Char → Except Fault (Given × List Char)
  | 0, _, _ => .error .truncated
  | fuel + 1, given, cs =>
    match dropSpace cs with
    | [] => .error .truncated
    | '"' :: rest => do
      let (given, rest) ← readMember given rest
      match dropSpace rest with
      | [] => .error .truncated
      | ',' :: rest => readMembers fuel given rest
      | '\x7d' :: rest => return (given, rest)
      | _ => .error .malformed
    | _ => .error .malformed

/-- Reads the settings of an array by position, from behind a comma or the opening bracket. -/
def readPositions (given : Given) : List Setting → List Char → Except Fault (Given × List Char)
  | [], _ => .error .malformed
  | setting :: settings, cs => do
    let (given, rest) ← given.read setting cs
    match dropSpace rest with
    | [] => .error .truncated
    | ']' :: rest => return (given, rest)
    | ',' :: rest => readPositions given settings rest
    | _ => .error .malformed

/-- Reads the settings as an object or an array. -/
def readValue (cs : List Char) : Except Fault (Given × List Char) :=
  match dropSpace cs with
  | '\x7b' :: rest =>
    match dropSpace rest with
    | '\x7d' :: rest => .ok ({}, rest)
    | rest => readMembers (rest.length + 1) {} rest
  | '[' :: rest =>
    match dropSpace rest with
    | ']' :: rest => .ok ({}, rest)
    | rest => readPositions {} Setting.all rest
  | other => .error (mismatch other)

/-- The settings that a JSON text gives, or what is wrong with it. -/
def ofText (text : String) : Except Fault Config :=
  if Text.isBlank text then .ok {}
  else do
    let (given, rest) ← readValue text.toList
    if (dropSpace rest).isEmpty then .ok given.complete else .error .malformed

end Config
end ComponentHoist

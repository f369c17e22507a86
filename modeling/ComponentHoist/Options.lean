import ComponentHoist.Style.Source
import ComponentHoist.Syntax.Tree
import ComponentHoist.Text.Blank

/-!
# ComponentHoist.Options — what a component decorator is given

A component decorator is given an object literal.  Eight of its properties are options, each with a shape of literal
that it accepts.

* `Expr.staticString?` and its kin: the value of an expression that is a literal of a shape.
* `Options`: the values of the options, and the properties that were refused.
* `Options.ofEntries`: the options in the members of an object literal.  The last property of a name decides, and every
  refused property is listed.
* `Decorator.name?`, `Decorator.options?`: what a decorator is called, and the options that it is given.
-/

namespace ComponentHoist

/-! ### Static values -/

namespace Expr

/-- The text of a string literal, or of a template without insertions. -/
def staticString? (e : Expr) : Option String :=
  match e.unwrap with
  | .string _ value => some value
  | .template _ (chunk :: _) [] => chunk.cooked
  | _ => none

/-- The value of a Boolean literal. -/
def staticBool? (e : Expr) : Option Bool :=
  match e.unwrap with
  | .boolean _ value => some value
  | _ => none

/-- The texts of an array of static strings. -/
def staticStrings? (e : Expr) : Option (List String) :=
  match e.unwrap with
  | .array _ elements => elements.mapM staticString?
  | _ => none

/-- The paths of a static string or an array of them. -/
def staticPaths? (e : Expr) : Option Style.Paths :=
  match e.staticString? with
  | some path => some (.one path)
  | none => e.staticStrings?.map .many

/-- The mode and the paths of a property of an object of modes. -/
def modeEntry? : Entry → Option (String × Style.Paths)
  | .property _ key _ value => do
    let mode ← key.name?
    let paths ← value.staticPaths?
    return (mode, paths)
  | .spread .. => none

/-- The style sources of an array of static strings, or of an object whose members are all modes with their paths. -/
def staticUrls? (e : Expr) : Option Style.Urls :=
  match e.unwrap with
  | .array .. => e.staticStrings?.map .list
  | .object _ entries => (entries.mapM modeEntry?).map .modes
  | _ => none

end Expr

/-! ### Options -/

/-- The options of a component. -/
inductive OptionName where
  | tag
  | shadow
  | scope
  | styleUrl
  | styleUrls
  | styles
  | assetsDir
  | assetsDirs
deriving DecidableEq, Repr

namespace OptionName

/-- All options. -/
def all : List OptionName :=
  [tag, shadow, scope, styleUrl, styleUrls, styles, assetsDir, assetsDirs]

/-- The name of the property that gives the option. -/
def text : OptionName → String
  | tag => "tag"
  | shadow => "shadow"
  | scope => "scoped"
  | styleUrl => "styleUrl"
  | styleUrls => "styleUrls"
  | styles => "styles"
  | assetsDir => "assetsDir"
  | assetsDirs => "assetsDirs"

/-- The option given by properties of the name. -/
def ofText? (name : String) : Option OptionName :=
  all.find? (·.text == name)

/-- The shape that the option accepts, in words. -/
def expected : OptionName → String
  | tag | styleUrl | styles | assetsDir => "a string"
  | shadow | scope => "a boolean"
  | styleUrls => "a list of strings or an object of modes"
  | assetsDirs => "a list of strings"

/-- Whether the expression has the shape that the option accepts. -/
def accepts (name : OptionName) (e : Expr) : Bool :=
  match name with
  | tag | styleUrl | styles | assetsDir => e.staticString?.isSome
  | shadow | scope => e.staticBool?.isSome
  | styleUrls => e.staticUrls?.isSome
  | assetsDirs => e.staticStrings?.isSome

end OptionName

/-- A value with the span of the expression that gives it. -/
structure Spanned (α : Type) where
  value : α
  span : Span
deriving DecidableEq, Repr

/-- A property that was refused, and the shape that it should have had. -/
structure InvalidOption where
  name : String
  expected : String
  span : Span
deriving DecidableEq, Repr

/-- The options of a component. -/
structure Options where
  tag : Option (Spanned String) := none
  shadow : Option (Spanned Bool) := none
  scope : Option (Spanned Bool) := none
  styleUrl : Option (Spanned String) := none
  styleUrls : Option (Spanned Style.Urls) := none
  styles : Option (Spanned String) := none
  assetsDir : Option (Spanned String) := none
  assetsDirs : Option (Spanned (List String)) := none
  /-- The refused properties in their order. -/
  invalid : List InvalidOption := []
  /-- The span of the object literal. -/
  span : Span := ⟨0, 0⟩
deriving DecidableEq, Repr

namespace Options

/-- Whether the shadow option is set. -/
def isShadow (o : Options) : Bool :=
  (o.shadow.map Spanned.value).getD false

/-- Whether the scoped option is set. -/
def isScoped (o : Options) : Bool :=
  (o.scope.map Spanned.value).getD false

/-- The tag without the white space around it, if there is one. -/
def trimmedTag? (o : Options) : Option String :=
  o.tag.map fun tag => Text.trim tag.value

/-- The options with one of them replaced by the value that the expression gives, or taken away if it gives none. -/
def assign (o : Options) (name : OptionName) (e : Expr) : Options :=
  let given {α : Type} (value : Option α) : Option (Spanned α) := value.map (⟨·, e.span⟩)
  match name with
  | .tag => { o with tag := given e.staticString? }
  | .shadow => { o with shadow := given e.staticBool? }
  | .scope => { o with scope := given e.staticBool? }
  | .styleUrl => { o with styleUrl := given e.staticString? }
  | .styleUrls => { o with styleUrls := given e.staticUrls? }
  | .styles => { o with styles := given e.staticString? }
  | .assetsDir => { o with assetsDir := given e.staticString? }
  | .assetsDirs => { o with assetsDirs := given e.staticStrings? }

/-- The options with a property listed as refused if the option does not accept the expression. -/
def refuse (o : Options) (name : OptionName) (e : Expr) : Options :=
  if name.accepts e then o else { o with invalid := o.invalid ++ [⟨name.text, name.expected, e.span⟩] }

/-- Takes in a member of the object literal.  Spreads and properties of other names are passed over. -/
def put (o : Options) : Entry → Options
  | .property _ key _ value =>
    match key.name?.bind OptionName.ofText? with
    | some name => (o.assign name value.unwrap).refuse name value.unwrap
    | none => o
  | .spread .. => o

/-- The options in the members of an object literal. -/
def ofEntries (span : Span) (entries : List Entry) : Options :=
  entries.foldl put { span }

end Options

namespace Decorator

/-- The name of a decorator: a bare name, or the name of what it calls. -/
def name? (d : Decorator) : Option String :=
  match d.expr.unwrap with
  | .ident _ name => some name
  | .call _ callee _ _ =>
    match callee.unwrap with
    | .ident _ name => some name
    | _ => none
  | _ => none

/-- The options that a decorator is given, if it is called with an object literal in the first place. -/
def options? (d : Decorator) : Option Options :=
  match d.expr.unwrap with
  | .call _ _ _ (first :: _) =>
    match first.unwrap with
    | .object span entries => some (Options.ofEntries span entries)
    | _ => none
  | _ => none

end Decorator

end ComponentHoist

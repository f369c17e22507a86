import ComponentHoist.Json.Compact
import ComponentHoist.Literal
import ComponentHoist.Options

/-!
# ComponentHoist.Declaration — what a component is

A declaration holds what the options of a component say, with one spelling for each fact: style sources in one map with
that of their compiled sheets beside it, directories of assets in one list without blank entries, styles without white
space around them.

* `Declaration.ofOptions`: the declaration that options give.
* `Declaration.members`: the static members that tell a runtime about it.  What is empty is left out.
-/

namespace ComponentHoist

/-- How the styles of a component are kept to itself. -/
inductive Encapsulation where
  | shadow
  | scope
deriving DecidableEq, Repr

/-- The word for the encapsulation. -/
def Encapsulation.text : Encapsulation → String
  | shadow => "shadow"
  | scope => "scoped"

/-- What a component is. -/
structure Declaration where
  className : Option String
  tag : String
  encapsulation : Option Encapsulation
  /-- The style sources by mode. -/
  originalStyleUrls : ModeMap
  /-- The compiled style sheets by mode. -/
  styleUrls : ModeMap
  assetsDirs : List String
  styles : Option String
deriving DecidableEq, Repr

namespace Declaration

/-- The declaration that the options give to the class of the given name. -/
def ofOptions (className : Option String) (o : Options) : Declaration :=
  let sources := ModeMap.ofSources (o.styleUrl.map Spanned.value) (o.styleUrls.map Spanned.value)
  let directories := (o.assetsDirs.map Spanned.value).getD [] ++ (o.assetsDir.map Spanned.value).toList
  { className
    tag := o.trimmedTag?.getD ""
    encapsulation := if o.isShadow then some .shadow else if o.isScoped then some .scope else none
    originalStyleUrls := sources
    styleUrls := sources.compiled
    assetsDirs := directories.filter fun directory => !Text.isBlank directory
    styles := (o.styles.map fun styles => Text.trim styles.value).filter fun styles => !styles.isEmpty }

/-- A member, if it is wanted. -/
def memberIf (wanted : Bool) (name : String) (value : Literal) : List StaticMember :=
  if wanted then [⟨name, value⟩] else []

/-- The static members that tell about the component. -/
def members (d : Declaration) : List StaticMember :=
  let hasStyles := !d.originalStyleUrls.isEmpty
  [⟨"is", .string d.tag⟩] ++
    (d.encapsulation.map fun e => ⟨"encapsulation", .string e.text⟩).toList ++
    memberIf hasStyles "originalStyleUrls" (.ofModeMap d.originalStyleUrls) ++
    memberIf hasStyles "styleUrls" (.ofModeMap d.styleUrls) ++
    memberIf (!d.assetsDirs.isEmpty) "assetsDirs" (.ofStrings d.assetsDirs) ++
    (d.styles.map fun styles => ⟨"styles", .string styles⟩).toList

end Declaration

/-- The lists of paths by mode as a JSON object. -/
def ModeMap.toJson (m : ModeMap) : Json :=
  .object (m.entries.map fun (mode, paths) => (mode, Json.strings paths))

/-- The declaration as a JSON object. -/
def Declaration.toJson (d : Declaration) : Json :=
  .object [("className", .ofOption d.className), ("tag", .string d.tag),
    ("encapsulation", .ofOption (d.encapsulation.map Encapsulation.text)),
    ("originalStyleUrls", d.originalStyleUrls.toJson), ("styleUrls", d.styleUrls.toJson),
    ("assetsDirs", Json.strings d.assetsDirs), ("styles", .ofOption d.styles)]

end ComponentHoist

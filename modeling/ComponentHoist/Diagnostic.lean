import ComponentHoist.Text.Offset

/-!
# ComponentHoist.Diagnostic — reports and their collector

* `Rule`: the checks of a component class, each with the code and the hint of its reports.
* `Diagnostic`: one report, bound to a span of a source text.
* `Diagnostics`: the reports on one file in the order of their arrival.  A report without a file name is stamped with
  that of the collector, and `resolve` gives a location to every report that has none yet.
-/

namespace ComponentHoist

/-- The checks of a component class. -/
inductive Rule where
  | baseClass
  | soleDecorator
  | encapsulation
  | tagMissing
  | tagInvalid
  | singleExport
  | constructorArgs
  | staticOption
deriving DecidableEq, Repr

namespace Rule

/-- All rules. -/
def all : List Rule :=
  [baseClass, soleDecorator, encapsulation, tagMissing, tagInvalid, singleExport, constructorArgs, staticOption]

/-- The code under which a breach of the rule is reported. -/
def code : Rule → String
  | baseClass => "C-ERR-EXTENDS"
  | soleDecorator => "C-ERR-MULTI-DECORATOR"
  | encapsulation => "C-ERR-ENCAPSULATION"
  | tagMissing => "C-ERR-TAG-MISSING"
  | tagInvalid => "C-ERR-TAG-INVALID"
  | singleExport => "C-ERR-SINGLE-EXPORT"
  | constructorArgs => "C-ERR-CONSTRUCTOR-ARGS"
  | staticOption => "C-ERR-OPTION-NOT-STATIC"

/-- The advice given with a report. -/
def hint : Rule → String
  | baseClass => "The compiler swaps the runtime base class per output target (lazy wrapper or plain element)."
  | soleDecorator => "Component metadata must be statically analyzable at the class level."
  | encapsulation => "Pick one of `shadow: true` or `scoped: true`."
  | tagMissing => "Every component needs a `tag` naming its custom element."
  | tagInvalid => "See https://html.spec.whatwg.org/multipage/custom-elements.html#valid-custom-element-name"
  | singleExport => "Move any other exports to a separate module."
  | constructorArgs => "Pass data to components through decorated class properties instead."
  | staticOption => "Component options must be literal values."

/-- The rule with the given code. -/
def ofCode? (text : String) : Option Rule :=
  all.find? (·.code == text)

end Rule

/-- A report bound to a span of a source text. -/
structure Diagnostic where
  code : String
  level : String
  message : String
  /-- The file reported on, empty while it is not known. -/
  file : String
  span : Span
  /-- The location of the beginning of the span, on line zero while it is not known. -/
  location : Text.Location
  hints : List String
deriving DecidableEq, Repr

namespace Diagnostic

/-- The level of the reports that mean failure. -/
def errorLevel : String :=
  "error"

/-- A failure with neither file nor location.  Codes of rules come with the hint of the rule. -/
def error (code message : String) (span : Span) : Diagnostic where
  code := code
  level := errorLevel
  message := message
  file := ""
  span := span
  location := ⟨0, 0⟩
  hints := ((Rule.ofCode? code).map Rule.hint).toList

/-- Whether the report means failure. -/
def isError (d : Diagnostic) : Bool :=
  d.level == errorLevel

/-- The text that the report covers. -/
def snippet (d : Diagnostic) (source : String) : String :=
  Text.slice source d.span

/-- The report as one line of text. -/
def display (d : Diagnostic) : String :=
  s!"{d.file}:{d.location.line}:{d.location.column} [{d.code}] {d.message}"

/-- The report on the given file, unless it names a file itself. -/
def stamp (file : String) (d : Diagnostic) : Diagnostic :=
  if d.file.isEmpty then { d with file } else d

/-- The report with its location in `source`, unless it has a location. -/
def resolve (source : String) (d : Diagnostic) : Diagnostic :=
  if d.location.line = 0 then { d with location := Text.locate source d.span.start } else d

end Diagnostic

/-- The reports on one file, in the order of their arrival. -/
structure Diagnostics where
  file : String
  items : List Diagnostic := []
deriving DecidableEq, Repr

namespace Diagnostics

/-- Adds a report, stamped with the file of the collector. -/
def push (ds : Diagnostics) (d : Diagnostic) : Diagnostics :=
  { ds with items := ds.items ++ [d.stamp ds.file] }

/-- Adds a failure. -/
def error (ds : Diagnostics) (code message : String) (span : Span) : Diagnostics :=
  ds.push (Diagnostic.error code message span)

/-- Adds several reports one after the other. -/
def pushAll (ds : Diagnostics) (items : List Diagnostic) : Diagnostics :=
  items.foldl push ds

/-- Adds the reports of another collector. -/
def extend (ds other : Diagnostics) : Diagnostics :=
  ds.pushAll other.items

/-- The number of reports. -/
def size (ds : Diagnostics) : Nat :=
  ds.items.length

/-- Whether there is no report. -/
def isEmpty (ds : Diagnostics) : Bool :=
  ds.items.isEmpty

/-- Whether a report means failure. -/
def hasErrors (ds : Diagnostics) : Bool :=
  ds.items.any Diagnostic.isError

/-- Gives every report without a location the one of its beginning in `source`. -/
def resolve (ds : Diagnostics) (source : String) : Diagnostics :=
  { ds with items := ds.items.map (Diagnostic.resolve source) }

/-- Whether the location of a report without one has a number in `source` that overflows. -/
def Overflows (ds : Diagnostics) (source : String) : Prop :=
  ∃ d ∈ ds.items, d.location.line = 0 ∧ (Text.locate source d.span.start).Overflows

instance (ds : Diagnostics) (source : String) : Decidable (ds.Overflows source) :=
  inferInstanceAs (Decidable (∃ d ∈ ds.items, d.location.line = 0 ∧ (Text.locate source d.span.start).Overflows))

/-- The same as `resolve` where arithmetic is checked: a number that overflows stops the program. -/
def resolveChecked (ds : Diagnostics) (source : String) : Option Diagnostics :=
  if ds.Overflows source then none else some (ds.resolve source)

@[simp] theorem items_push (ds : Diagnostics) (d : Diagnostic) :
    (ds.push d).items = ds.items ++ [d.stamp ds.file] := rfl

@[simp] theorem file_push (ds : Diagnostics) (d : Diagnostic) : (ds.push d).file = ds.file := rfl

@[simp] theorem pushAll_nil (ds : Diagnostics) : ds.pushAll [] = ds := rfl

@[simp] theorem file_pushAll (ds : Diagnostics) (items : List Diagnostic) : (ds.pushAll items).file = ds.file := by
  induction items generalizing ds with
  | nil => rfl
  | cons d rest ih => exact ih (ds.push d)

theorem items_pushAll (ds : Diagnostics) (items : List Diagnostic) :
    (ds.pushAll items).items = ds.items ++ items.map (Diagnostic.stamp ds.file) := by
  induction items generalizing ds with
  | nil => simp [pushAll]
  | cons d rest ih =>
    have h := ih (ds.push d)
    simp only [pushAll, List.foldl_cons] at h ⊢
    rw [h]
    simp

end Diagnostics
end ComponentHoist

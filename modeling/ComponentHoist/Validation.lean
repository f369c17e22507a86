import ComponentHoist.Config
import ComponentHoist.Diagnostic
import ComponentHoist.Exports
import ComponentHoist.Options
import ComponentHoist.Tag

/-!
# ComponentHoist.Validation — the checks of a component class

A class is checked against eight rules in a fixed order, and only the first rule that is broken is reported.  Options
that are no literals and exports beside the component are reported one by one, all other faults once.

* `Problem`: one breach of a rule, with what its report says and where.
* `Class.problems`: the breaches of the first broken rule.
* `Class.validate`: the same as a verdict, with the reports added to a collector.
-/

namespace ComponentHoist

/-- A breach of a rule. -/
inductive Problem where
  | baseClass (span : Span)
  | otherDecorator (span : Span)
  | encapsulation (span : Span)
  | notStatic (option : InvalidOption)
  | tagMissing (span : Span)
  | tagInvalid (tag : String) (violation : Tag.Violation) (span : Span)
  | constructorArgs (span : Span)
  | extraExport (symbol : ExportedSymbol)
deriving DecidableEq, Repr

namespace Problem

/-- The rule that is broken. -/
def rule : Problem → Rule
  | baseClass _ => .baseClass
  | otherDecorator _ => .soleDecorator
  | encapsulation _ => .encapsulation
  | notStatic _ => .staticOption
  | tagMissing _ => .tagMissing
  | tagInvalid .. => .tagInvalid
  | constructorArgs _ => .constructorArgs
  | extraExport _ => .singleExport

/-- Where the breach is reported. -/
def span : Problem → Span
  | baseClass span | otherDecorator span | encapsulation span | tagMissing span | tagInvalid _ _ span
  | constructorArgs span => span
  | notStatic option => option.span
  | extraExport symbol => symbol.reportSpan

/-- What the report says, of components made by the decorator of the given name. -/
def message (decorator : String) : Problem → String
  | baseClass _ => s!"Classes decorated with @{decorator} can not extend from a base class."
  | otherDecorator _ => s!"Classes decorated with @{decorator} can not be decorated with more decorators."
  | encapsulation _ =>
    "Components cannot be \"scoped\" and \"shadow\" at the same time, they are mutually exclusive configurations."
  | notStatic option =>
    s!"The \"{option.name}\" option of @{decorator} must be {option.expected}, written as a literal."
  | tagMissing _ => s!"tag missing in @{decorator} decorator."
  | tagInvalid tag violation _ =>
    violation.message tag ++ ". Please refer to " ++
      "https://html.spec.whatwg.org/multipage/custom-elements.html#valid-custom-element-name for more info."
  | constructorArgs _ =>
    s!"Classes decorated with @{decorator} can not have a \"constructor\" that takes arguments."
  | extraExport symbol =>
    s!"To allow efficient bundling, modules using @{decorator}() can only have a single export " ++
      s!"which is the component class itself. \"{symbol.name}\" should be moved to a separate file."

/-- The report of the breach. -/
def report (decorator : String) (p : Problem) : Diagnostic :=
  Diagnostic.error p.rule.code (p.message decorator) p.span

end Problem

/-! ### The parts of a class that the checks look at -/

namespace Pattern

/-- The span of a parameter.  It begins at the first decorator, and that of a rest parameter ends before the type. -/
def parameterSpan : Pattern → Span
  | rest span target _ => ⟨span.start, target.span.stop⟩
  | parameter span decorators _ target =>
    let start := (decorators.head?.map fun d => d.span.start).getD span.start
    match target with
    | rest _ inner _ => ⟨start, inner.span.stop⟩
    | _ => ⟨start, span.stop⟩
  | withDefault span (parameter _ (first :: _) _ _) _ => ⟨first.span.start, span.stop⟩
  | p => p.span

end Pattern

/-- The span of the first parameter of a member, if it is a constructor with parameters. -/
def Member.constructorParameter? : Member → Option Span
  | .method _ _ .constructor _ func => (func.params.find? fun p => !p.isThis).map Pattern.parameterSpan
  | _ => none

namespace Class

/-- The span of the first parameter of the first constructor that has one. -/
def constructorParameter? (cls : Class) : Option Span :=
  cls.members.findSome? Member.constructorParameter?

/-- The first decorator beside the one at `index`. -/
def otherDecorator? (cls : Class) (index : Nat) : Option Decorator :=
  (cls.decorators.eraseIdx index).head?

/-- Whether the exported symbol stands for the class: it is declared where the class stands, or it has the name of the
class in the module, or it has that name outside and none inside and does not come from another module. -/
def isExportedAs (cls : Class) (s : ExportedSymbol) : Bool :=
  s.declaration == cls.head.span ||
    (cls.head.name.isSome && s.localName == cls.head.name) ||
    (s.kind != .external && s.localName.isNone && cls.head.name == some s.name)

/-- The exported symbols that are neither types nor the class. -/
def extraExports (cls : Class) (exports : List ExportedSymbol) : List ExportedSymbol :=
  exports.filter fun s => !s.isTypeOnly && !cls.isExportedAs s

/-! ### The checks -/

/-- A component has no base class. -/
def baseClassProblems (cls : Class) : List Problem :=
  (cls.superclass.map fun e => .baseClass e.span).toList

/-- A component has no other decorator. -/
def decoratorProblems (cls : Class) (index : Nat) : List Problem :=
  ((cls.otherDecorator? index).map fun d => .otherDecorator d.span).toList

end Class

namespace Options

/-- A component is not both shadow and scoped. -/
def encapsulationProblems (o : Options) (decorator : Decorator) : List Problem :=
  if o.isShadow && o.isScoped then [.encapsulation ((o.scope.map Spanned.span).getD decorator.span)] else []

/-- All options are literals of the shapes they accept. -/
def staticProblems (o : Options) : List Problem :=
  o.invalid.map .notStatic

/-- A component has a tag, and the tag is a valid name of a custom element. -/
def tagProblems (o : Options) (decorator : Decorator) : List Problem :=
  match o.trimmedTag? with
  | none => [.tagMissing decorator.span]
  | some tag =>
    if tag.isEmpty then [.tagMissing decorator.span]
    else
      let span := (o.tag.map Spanned.span).getD decorator.span
      ((Tag.firstViolation tag).map fun violation => .tagInvalid tag violation span).toList

end Options

namespace Class

/-- The constructor of a component takes no arguments. -/
def constructorProblems (cls : Class) : List Problem :=
  (cls.constructorParameter?.map .constructorArgs).toList

/-- The module of a component exports nothing else, unless it is under test. -/
def exportProblems (cls : Class) (config : Config) (exports : List ExportedSymbol) : List Problem :=
  if config.isTesting then [] else (cls.extraExports exports).map .extraExport

/-- What is wrong with a component class whose decorator is given: the breaches of the first broken rule. -/
def problemsAt (config : Config) (exports : List ExportedSymbol) (options : Options) (cls : Class) (index : Nat)
    (decorator : Decorator) : List Problem :=
  let checks :=
    [cls.baseClassProblems, cls.decoratorProblems index, options.encapsulationProblems decorator,
      options.staticProblems, options.tagProblems decorator, cls.constructorProblems,
      cls.exportProblems config exports]
  (checks.find? fun problems => !problems.isEmpty).getD []

/-- What is wrong with a component class, if it has a decorator at `index`. -/
def problems (config : Config) (exports : List ExportedSymbol) (options : Options) (cls : Class) (index : Nat) :
    Option (List Problem) :=
  cls.decorators[index]?.map (problemsAt config exports options cls index)

/-- Whether a class may become a component by the decorator at `index`.  What is wrong with it is added to the reports.
Without such a decorator it may not, and nothing is reported. -/
def validate (config : Config) (exports : List ExportedSymbol) (options : Options) (cls : Class) (index : Nat)
    (reports : Diagnostics) : Bool × Diagnostics :=
  match cls.problems config exports options index with
  | some problems => (problems.isEmpty, reports.pushAll (problems.map (Problem.report config.decoratorName)))
  | none => (false, reports)

end Class

end ComponentHoist

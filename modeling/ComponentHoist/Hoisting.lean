import ComponentHoist.Declaration
import ComponentHoist.Validation

/-!
# ComponentHoist.Hoisting — from a decorator to static members

What is done to one class.

* `Class.strip`: some decorators are taken away by name.
* `Class.hoisting`: whether the options of a decorator become static members, or why not.
* `Draft.hoist`: the same as a step on a class under change, with the reports and the members collected so far.
* `Class.transform`: the class as a whole: strip, hoist the component decorator, and put the members into the class.
  The reports and the declaration go into the `Ledger` of the module.
-/

namespace ComponentHoist

/-! ### Stripping -/

namespace Decorator

/-- Whether the decorator has one of the names and not the one to keep. -/
def isStripped (names : List String) (keep : String) (d : Decorator) : Bool :=
  match d.name? with
  | some name => name ≠ keep && names.contains name
  | none => false

end Decorator

namespace Class

/-- The class without the decorators that have one of the names and not the one to keep. -/
def strip (names : List String) (keep : String) (cls : Class) : Class :=
  { cls with decorators := cls.decorators.filter fun d => !d.isStripped names keep }

/-- The class without the decorator at `index`. -/
def removeDecorator (index : Nat) (cls : Class) : Class :=
  { cls with decorators := cls.decorators.eraseIdx index }

end Class

/-! ### Hoisting one decorator -/

/-- What comes of the decorator of a class. -/
inductive Hoisting where
  /-- There are no options, so there is nothing to hoist. -/
  | skipped
  /-- The class is no valid component. -/
  | refused (problems : List Problem)
  /-- The options become the static members of the declaration. -/
  | hoisted (declaration : Declaration)
deriving DecidableEq, Repr

namespace Hoisting

/-- The declaration of a hoisted component. -/
def declaration? : Hoisting → Option Declaration
  | hoisted declaration => some declaration
  | _ => none

/-- What is wrong with a refused class. -/
def problems : Hoisting → List Problem
  | refused problems => problems
  | _ => []

end Hoisting

namespace Class

/-- What comes of the decorator at `index`. -/
def hoisting (config : Config) (exports : List ExportedSymbol) (cls : Class) (index : Nat) : Hoisting :=
  match cls.decorators[index]? with
  | none => .skipped
  | some decorator =>
    match decorator.options? with
    | none => .skipped
    | some options =>
      match cls.problemsAt config exports options index decorator with
      | [] => .hoisted (Declaration.ofOptions cls.head.name options)
      | problems => .refused problems

end Class

/-- A class under change, with the reports and the static members collected so far. -/
structure Draft where
  cls : Class
  reports : Diagnostics
  members : List StaticMember

namespace Draft

/-- Hoists the decorator at `index`: it is taken away and its members are collected, or what is wrong is reported. -/
def hoist (config : Config) (exports : List ExportedSymbol) (index : Nat) (draft : Draft) :
    Option Declaration × Draft :=
  match draft.cls.hoisting config exports index with
  | .skipped => (none, draft)
  | .refused problems =>
    (none, { draft with reports := draft.reports.pushAll (problems.map (Problem.report config.decoratorName)) })
  | .hoisted declaration =>
    (some declaration,
      { draft with
        cls := draft.cls.removeDecorator index
        members := draft.members ++ declaration.members })

end Draft

/-! ### The whole class -/

namespace Config

/-- Whether the decorator makes a class a component. -/
def isComponentDecorator (config : Config) (d : Decorator) : Bool :=
  d.name? == some config.decoratorName

/-- Whether the decorator is stripped from component classes. -/
def strips (config : Config) (d : Decorator) : Bool :=
  d.isStripped config.decoratorsToRemove config.decoratorName

end Config

namespace Class

/-- The place of the first decorator that makes the class a component. -/
def componentIndex? (config : Config) (cls : Class) : Option Nat :=
  cls.decorators.findIdx? config.isComponentDecorator

end Class

/-- What has been collected in a module so far: the reports, and the declarations of the hoisted components. -/
structure Ledger where
  reports : Diagnostics
  components : List Declaration := []
deriving DecidableEq, Repr

namespace Class

/-- Transforms a class by itself, without the classes inside it.  Without a component decorator it stays as it is. -/
def transform (config : Config) (exports : List ExportedSymbol) (cls : Class) : StateM Ledger Class := do
  if (cls.componentIndex? config).isNone then return cls
  let stripped := cls.strip config.decoratorsToRemove config.decoratorName
  match stripped.componentIndex? config with
  | none => return stripped
  | some index =>
    let ledger ← get
    let (declaration?, draft) := Draft.hoist config exports index ⟨stripped, ledger.reports, []⟩
    match declaration? with
    | none =>
      set { ledger with reports := draft.reports }
      return draft.cls
    | some declaration =>
      set { ledger with reports := draft.reports, components := ledger.components ++ [declaration] }
      return draft.cls.lower draft.members

end Class

end ComponentHoist

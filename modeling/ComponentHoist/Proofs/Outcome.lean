import ComponentHoist.Proofs.Classwise
import ComponentHoist.Proofs.Hoisting

/-!
# ComponentHoist.Proofs.Outcome — what comes of a class by its component decorator

Of several component decorators the pass looks at the first one only, and stripping a class does not change which one
that is.

* `Class.componentDecorator?`: that decorator.
* `Class.outcome_of_no_component`, `Class.outcome_of_no_options`, `Class.outcome_of_options`: what comes of a class, by
  that decorator and its options.
* `Class.exists_options_of_hoisted?`: where the declaration of a hoisted class comes from.
* `Program.visited`: the classes to which the pass gets.
* `Program.components_output`, `Program.diagnostics_output`: the output of a module, by what comes of these classes.
-/

namespace ComponentHoist

variable {config : Config} {exports : List ExportedSymbol} {cls : Class} {decorator : Decorator} {options : Options}

/-! ### The component decorator -/

namespace Class

/-- The first decorator that makes the class a component. -/
def componentDecorator? (config : Config) (cls : Class) : Option Decorator :=
  cls.decorators.find? config.isComponentDecorator

theorem find?_decorators_strip :
    (cls.strip config.decoratorsToRemove config.decoratorName).decorators.find? config.isComponentDecorator =
      cls.componentDecorator? config := by
  rw [strip, List.find?_filter, componentDecorator?]
  refine congrArg (cls.decorators.find? ·) (funext fun d => ?_)
  cases component : config.isComponentDecorator d with
  | false => simp
  | true =>
    have kept : d.isStripped config.decoratorsToRemove config.decoratorName = false :=
      Config.strips_of_isComponentDecorator component
    simp [kept]

/-- The decorator that is hoisted, if any is, is the first component decorator. -/
theorem outcome_of_componentDecorator? (exports : List ExportedSymbol)
    (found : cls.componentDecorator? config = some decorator) :
    ∃ index, (cls.strip config.decoratorsToRemove config.decoratorName).decorators[index]? = some decorator ∧
      cls.outcome config exports =
        some ((cls.strip config.decoratorsToRemove config.decoratorName).hoisting config exports index) := by
  rw [← find?_decorators_strip, List.find?_eq_bind_findIdx?_getElem?] at found
  obtain ⟨index, place, there⟩ := Option.bind_eq_some_iff.mp found
  refine ⟨index, there, ?_⟩
  rw [outcome, componentIndex?, place]
  rfl

/-- Nothing comes of a class without a component decorator. -/
theorem outcome_of_no_component (exports : List ExportedSymbol) (absent : cls.componentDecorator? config = none) :
    cls.outcome config exports = none := by
  rw [outcome_eq_none_iff]
  simpa [componentDecorator?, Config.isComponentDecorator] using absent

theorem outcome_of_no_options (found : cls.componentDecorator? config = some decorator)
    (bare : decorator.options? = none) : cls.outcome config exports = some .skipped := by
  obtain ⟨index, there, outcome⟩ := outcome_of_componentDecorator? exports found
  have nothing : (cls.strip config.decoratorsToRemove config.decoratorName).optionsAt? index = none := by
    rw [optionsAt?, there, Option.bind_some, bare]
  rw [outcome, hoisting_of_no_options nothing]

/-- With options the class is hoisted if nothing is wrong with it once it is stripped, and refused otherwise. -/
theorem outcome_of_options (exports : List ExportedSymbol) (found : cls.componentDecorator? config = some decorator)
    (given : decorator.options? = some options) :
    ∃ index,
      let stripped := cls.strip config.decoratorsToRemove config.decoratorName
      let problems := stripped.problemsAt config exports options index decorator
      stripped.decorators[index]? = some decorator ∧
        cls.outcome config exports =
          some (if problems.isEmpty then .hoisted (Declaration.ofOptions cls.head.name options)
            else .refused problems) := by
  obtain ⟨index, there, outcome⟩ := outcome_of_componentDecorator? exports found
  refine ⟨index, there, ?_⟩
  rw [outcome, hoisting_of_options there given]
  rfl

/-- The declaration of a hoisted class is that of the options of its component decorator, and the class meets all rules
once it is stripped. -/
theorem exists_options_of_hoisted? {declaration : Declaration}
    (hoisted : cls.hoisted? config exports = some declaration) :
    ∃ decorator options index, cls.componentDecorator? config = some decorator ∧ decorator.options? = some options ∧
      declaration = Declaration.ofOptions cls.head.name options ∧
      ∀ rule, Meets config exports options (cls.strip config.decoratorsToRemove config.decoratorName) index rule := by
  obtain ⟨hoisting, outcome, declared⟩ := Option.bind_eq_some_iff.mp hoisted
  obtain rfl := Hoisting.declaration?_eq_some_iff.mp declared
  cases found : cls.componentDecorator? config with
  | none =>
    rw [outcome_of_no_component exports found] at outcome
    cases outcome
  | some decorator =>
    cases given : decorator.options? with
    | none =>
      rw [outcome_of_no_options found given] at outcome
      cases outcome
    | some options =>
      obtain ⟨index, -, result⟩ := outcome_of_options exports found given
      rw [outcome] at result
      refine ⟨decorator, options, index, rfl, given, ?_⟩
      rcases problemsAt_spec config exports options (cls.strip config.decoratorsToRemove config.decoratorName) index
        decorator with ⟨met, clean⟩ | ⟨rule, broken, wrong⟩
      · rw [clean] at result
        cases result
        exact ⟨rfl, met⟩
      · have nonempty : breaches config exports options (cls.strip config.decoratorsToRemove config.decoratorName) index
            decorator rule ≠ [] := fun none => broken.unmet (breaches_eq_nil_iff.mp none)
        rw [wrong] at result
        simp [nonempty] at result

/-! ### The output of a module -/

/-- The reports on a class as they stand in the output of a file. -/
def reported (config : Config) (exports : List ExportedSymbol) (path source : String) (cls : Class) :
    List Diagnostic :=
  ((cls.outcome config exports).elim [] Hoisting.problems).map fun problem =>
    (problem.filed config.decoratorName path).resolve source

end Class

theorem Ledger.enter_start (path : String) (cls : Class) :
    (Ledger.start path).enter config exports cls =
      { reports := ⟨path, ((cls.outcome config exports).elim [] Hoisting.problems).map
          (Problem.filed config.decoratorName path)⟩
        components := (cls.hoisted? config exports).toList } := by
  simp [enter, add, start, Diagnostics.pushAll_report, Class.hoisted?]

namespace Program

/-- The classes to which the pass gets: all but those in the decorators that it takes away. -/
def visited (config : Config) (p : Program) : List Class :=
  p.reached (Class.keeps config p.exports)

/-- In a module with a single class, that one is visited. -/
theorem visited_of_outer {p : Program} (outer : p.outer = [cls]) (inner : (cls.inner fun _ => true) = []) :
    p.visited config = [cls] := by
  have nothing : cls.inner (cls.keeps config p.exports) = [] := List.sublist_nil.mp (inner ▸ cls.inner_sublist _)
  rw [visited, reached_eq, outer, List.flatMap_singleton, Class.reached_eq, nothing, List.flatMap_nil]

/-- The ledger of a module at the end of the pass. -/
theorem ledger_output (config : Config) (path : String) (p : Program) :
    ((p.transform config).run (Ledger.start path)).2 =
      { reports := ⟨path, (p.visited config).flatMap fun c =>
          ((c.outcome config p.exports).elim [] Hoisting.problems).map (Problem.filed config.decoratorName path)⟩
        components := (p.visited config).filterMap (Class.hoisted? config p.exports) } := by
  rw [ledger_transform, Ledger.foldl_enter, List.filterMap_eq_flatMap_toList, visited]
  simp only [Ledger.enter_start]

/-- The components of a module are the declarations of the classes that are hoisted. -/
theorem components_output (config : Config) (path source : String) (p : Program) :
    (p.output config path source).components =
      (p.visited config).filterMap (Class.hoisted? config p.exports) := by
  have collected : (p.output config path source).components =
      ((p.transform config).run (Ledger.start path)).2.components := rfl
  rw [collected, ledger_output]

/-- The reports on a module are those on its classes. -/
theorem diagnostics_output (config : Config) (path source : String) (p : Program) :
    (p.output config path source).diagnostics =
      (p.visited config).flatMap (Class.reported config p.exports path source) := by
  have collected : (p.output config path source).diagnostics =
      (((p.transform config).run (Ledger.start path)).2.reports.resolve source).items := rfl
  rw [collected, ledger_output]
  simp only [Diagnostics.resolve, List.map_flatMap, List.map_map]
  rfl

end Program
end ComponentHoist

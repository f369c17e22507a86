import ComponentHoist.Proofs.Idempotence
import ComponentHoist.Proofs.RepeatedDecorator
import ComponentHoist.Proofs.Stay

/-!
# ComponentHoist.Proofs.BareDecorator — a component decorator without options

A class whose first component decorator is given no options is no component, and nothing is said about it.  It loses
the decorators that are to be removed by name and keeps all else.  What becomes of the classes inside it is their own
affair.

* `Class.rewritten_of_no_component`: a class stays as it is if there is no component in it.
* `Program.classes_rewritten`: the classes of the module that the pass leaves are those that were visited.
* `Program.output_bareDecorator`: what the pass makes of a class with a bare decorator.
-/

namespace ComponentHoist

variable {config : Config} {exports : List ExportedSymbol} {cls : Class} {decorator : Decorator}

namespace Class

/-! ### Classes without components -/

/-- What the pass makes of a class is the settled class with what it makes of the classes directly inside. -/
theorem rewritten_eq_exchange (c : Class) :
    c.rewritten config exports = (c.settled config exports).exchange (rewritten config exports) := by
  rw [rewritten_eq, run_visitParts]
  rfl

/-- A class in which there is no component stays as it is. -/
theorem rewritten_of_no_component (c : Class) (absent : ∀ d ∈ c.classes, d.componentDecorator? config = none) :
    c.rewritten config exports = c := by
  induction c using nesting_induction with
  | step c ih =>
    rw [classes_eq] at absent
    have settled : c.settled config exports = c :=
      settled_of_outcome_none (outcome_of_no_component exports (absent c List.mem_cons_self))
    rw [rewritten_eq_exchange, settled]
    refine exchange_eq_self c fun d hd => ih _ d hd fun e he => absent e ?_
    exact List.mem_cons_of_mem _ (List.mem_flatMap.mpr ⟨d, hd, he⟩)

theorem settled_of_no_options (exports : List ExportedSymbol) (found : cls.componentDecorator? config = some decorator)
    (bare : decorator.options? = none) :
    cls.settled config exports =
      { cls with
        decorators := cls.decorators.filter fun d =>
          !d.name?.any fun name => name ∈ config.decoratorsToRemove ∧ name ≠ config.decoratorName } := by
  rw [settled_of_not_hoisted (outcome_of_no_options found bare) rfl, strip]
  simp only [Decorator.isStripped_eq]

/-! ### The classes that are left -/

theorem classes_rewritten (c : Class) :
    (c.rewritten config exports).classes = (c.reached (keeps config exports)).map (rewritten config exports) := by
  induction c using nesting_induction with
  | step c ih =>
    rw [classes_eq, reached_eq, List.map_cons, inner_rewritten, List.flatMap_map, List.map_flatMap]
    congr 1
    exact List.flatMap_congr fun d hd => ih _ d hd

end Class

namespace Program

/-- The classes of the module that the pass leaves are those that it has visited, as it has left them. -/
theorem classes_rewritten (config : Config) (p : Program) :
    (p.rewritten config).classes = (p.visited config).map (Class.rewritten config p.exports) := by
  rw [classes_eq, visited, reached_eq, rewritten, outer_visit, List.flatMap_map, List.map_flatMap]
  exact List.flatMap_congr fun c _ => c.classes_rewritten

/-- What comes of a class whose first component decorator has no options.  It gives no component and no report.  In
the module that the pass leaves it stands at its place, without the decorators that are to be removed by name.  All
its other parts are unchanged, except that the classes inside them are what the pass makes of them, and these are
unchanged as well if there is no component in them.  A class at which the pass does not arrive stands in a decorator
that another class loses. -/
theorem output_bareDecorator (config : Config) (path source : String) (p : Program) {cls : Class}
    {decorator : Decorator} (inside : cls ∈ p.classes) (found : cls.componentDecorator? config = some decorator)
    (bare : decorator.options? = none) :
    let output := p.output config path source
    let result := ((p.transform config).run (Ledger.start path)).1
    let hoisted? := Class.hoisted? config p.exports
    let reported := Class.reported config p.exports path source
    let rewritten := Class.rewritten config p.exports
    let kept : Class :=
      { cls with
        decorators := cls.decorators.filter fun d =>
          !d.name?.any fun name => name ∈ config.decoratorsToRemove ∧ name ≠ config.decoratorName }
    (∀ before after, p.visited config = before ++ cls :: after →
      output.components = before.filterMap hoisted? ++ after.filterMap hoisted? ∧
      output.diagnostics = before.flatMap reported ++ after.flatMap reported ∧
      result.classes = before.map rewritten ++ kept.exchange rewritten :: after.map rewritten ∧
      (∀ d, (∀ e ∈ d.classes, e.componentDecorator? config = none) → rewritten d = d) ∧
      ((∀ d ∈ kept.inner fun _ => true, ∀ e ∈ d.classes, e.componentDecorator? config = none) →
        kept.exchange rewritten = kept)) ∧
    (cls ∉ p.visited config →
      ∃ other ∈ p.visited config, ∃ d ∈ other.decorators,
        other.keeps config p.exports d = false ∧ cls ∈ d.classes) := by
  intro output result hoisted? reported rewritten kept
  have left : result = p.rewritten config := p.node_transform config _
  have stripped : cls.rewritten config p.exports = kept.exchange rewritten := by
    rw [Class.rewritten_eq_exchange, Class.settled_of_no_options p.exports found bare]
  refine ⟨fun before after visited => ⟨?_, ?_, ?_, fun d => d.rewritten_of_no_component, fun absent => ?_⟩,
    fun missed => ?_⟩
  · have collected : output.components = _ := components_of_visited path source visited
    rwa [Class.hoisted?_of_no_options p.exports found bare, Option.toList_none, List.append_nil] at collected
  · have filed : output.diagnostics = _ := diagnostics_of_visited path source visited
    rwa [Class.reported_of_no_options p.exports path source found bare, List.append_nil] at filed
  · rw [left, classes_rewritten, visited, List.map_append, List.map_cons, stripped]
  · exact kept.exchange_eq_self fun d hd => d.rewritten_of_no_component (absent d hd)
  · -- A class is visited, or it lies in a decorator that a visited class does not keep.
    have split := (p.classes_perm (Class.keeps config p.exports)).mem_iff.mp inside
    have passed := (List.mem_append.mp split).resolve_left missed
    obtain ⟨other, visited, lost⟩ := List.mem_flatMap.mp passed
    obtain ⟨d, dropped, within⟩ := List.mem_flatMap.mp lost
    obtain ⟨mem, gone⟩ := List.mem_filter.mp dropped
    exact ⟨other, visited, d, mem, by simpa using gone, within⟩

end Program

/-! ### A bare decorator beside one that is to be removed -/

/-- A decorator that is to be removed. -/
def legacyDecorator : Decorator :=
  ⟨⟨0, 7⟩, .ident ⟨1, 7⟩ "Legacy"⟩

/-- A class with that decorator and a bare component decorator. -/
def legacyClass : Class :=
  decoratedClass 29 [legacyDecorator, bareDecorator 8]

namespace Program

/-- Only the decorator that is to be removed goes. -/
theorem output_legacyClass :
    let config : Config := { decoratorsToRemove := ["Legacy"] }
    let p := legacyClass.toModule
    legacyClass ∈ p.classes ∧ legacyClass.componentDecorator? config = some (bareDecorator 8) ∧
      (bareDecorator 8).options? = none ∧ (p.output config "test.tsx" "").components = [] ∧
      (p.output config "test.tsx" "").diagnostics = [] ∧
      ((p.transform config).run (Ledger.start "test.tsx")).1.classes = [decoratedClass 29 [bareDecorator 8]] := by
  intro config p
  have inside : legacyClass ∈ p.classes := List.mem_singleton.mpr rfl
  have found : legacyClass.componentDecorator? config = some (bareDecorator 8) := rfl
  obtain ⟨seen, -⟩ := output_bareDecorator config "test.tsx" "" p inside found rfl
  obtain ⟨components, diagnostics, left, -, same⟩ := seen [] [] (visited_of_outer rfl rfl)
  have alone := same fun d hd => nomatch (hd : d ∈ [])
  exact ⟨inside, found, rfl, components, diagnostics, left.trans (congrArg (fun c => [c]) alone)⟩

/-- So the class does not keep all of its decorators. -/
theorem legacyDecorator_lost :
    let config : Config := { decoratorsToRemove := ["Legacy"] }
    let p := legacyClass.toModule
    legacyClass ∈ p.classes ∧ legacyClass.componentDecorator? config = some (bareDecorator 8) ∧
      (bareDecorator 8).options? = none ∧
      legacyClass.decorators.map Decorator.name? = [some "Legacy", some "Component"] ∧
      ∀ c ∈ ((p.transform config).run (Ledger.start "test.tsx")).1.classes,
        c.decorators.map Decorator.name? = [some "Component"] := by
  intro config p
  refine ⟨List.mem_singleton.mpr rfl, rfl, rfl, rfl, fun c hc => ?_⟩
  have visited : p.visited config = [legacyClass] := visited_of_outer rfl rfl
  have left : ((p.transform config).run (Ledger.start "test.tsx")).1 = p.rewritten config := p.node_transform config _
  rw [left, classes_rewritten, visited] at hc
  obtain rfl := List.mem_singleton.mp hc
  rfl

end Program
end ComponentHoist

import ComponentHoist.Proofs.Accounting
import ComponentHoist.Proofs.Idempotence
import ComponentHoist.Syntax.Type

/-!
# ComponentHoist.Proofs.Testing — what changes for a module under test

Under test the exports beside a component are not checked.  This is the last of all checks, so a class that fails by it
alone is hoisted under test, and for every other class nothing changes.

A class that is hoisted loses its decorator with all classes inside, and one that is refused keeps it.  So what is said
about other classes is the same under both settings only if none of them stands in such a decorator.

* `Class.problemsAt_tested`, `Class.outcome_relaxed`: the verdict on a class, and what comes of it.
* `Class.reported_tested`, `Class.hoisted?_strict`: what a class contributes to the output.
* `Program.candidates_tested`: the candidates of a module.
* `Program.rewritten_tested`: the module that the pass leaves.
* `Program.output_tested`: the two outputs.
-/

namespace ComponentHoist

variable {config : Config} {exports : List ExportedSymbol} {cls : Class}

/-- The settings for a module under test, alike in all else. -/
def Config.tested (config : Config) : Config :=
  { config with isTesting := true }

/-- The settings for a module that is not under test, alike in all else. -/
def Config.strict (config : Config) : Config :=
  { config with isTesting := false }

/-! ### What comes of a class -/

namespace Class

/-- Under test the same is wrong with a class, or nothing if it was its module's other exports alone. -/
theorem problemsAt_tested (config : Config) (exports : List ExportedSymbol) (options : Options) (cls : Class)
    (index : Nat) (decorator : Decorator) :
    let strict := cls.problemsAt config.strict exports options index decorator
    let tested := cls.problemsAt config.tested exports options index decorator
    (tested = strict ∧ ∀ p ∈ strict, p.rule ≠ .singleExport) ∨
      (tested = [] ∧ strict ≠ [] ∧ ∀ p ∈ strict, p.rule = .singleExport) := by
  intro strict tested
  let front : List Rule :=
    [.baseClass, .soleDecorator, .encapsulation, .staticOption, .tagMissing, .tagInvalid, .constructorArgs]
  let earlier := front.map (breaches config.strict exports options cls index decorator)
  let crowd := cls.exportProblems config.strict exports
  -- The setting is looked at by the last check only.
  have strict_eq : strict = ((earlier ++ [crowd]).find? fun problems : List Problem => !problems.isEmpty).getD [] :=
    problemsAt_eq_find?
  have tested_eq : tested = ((earlier ++ [[]]).find? fun problems : List Problem => !problems.isEmpty).getD [] :=
    problemsAt_eq_find?
  rw [List.find?_append] at strict_eq tested_eq
  cases found : earlier.find? fun problems : List Problem => !problems.isEmpty with
  | some problems =>
    rw [found, Option.some_or, Option.getD_some] at strict_eq tested_eq
    obtain ⟨rule, first, rfl⟩ := List.mem_map.mp (List.mem_of_find?_eq_some found)
    refine .inl ⟨tested_eq.trans strict_eq.symm, fun p hp => ?_⟩
    rw [strict_eq] at hp
    rw [rule_of_mem_breaches hp]
    rintro rfl
    exact absurd first (by decide)
  | none =>
    rw [found, Option.none_or] at strict_eq tested_eq
    have clean : tested = [] := tested_eq
    by_cases crowded : crowd = []
    · have passed : strict = [] := by rw [strict_eq, crowded]; rfl
      rw [passed]
      exact .inl ⟨clean, fun p hp => absurd hp List.not_mem_nil⟩
    · have all : strict = crowd := by
        rw [strict_eq, List.find?_cons_of_pos (by simpa using crowded)]
        rfl
      rw [all]
      have rule_eq : ∀ p ∈ breaches config.strict exports options cls index decorator .singleExport,
          p.rule = .singleExport := fun p hp => rule_of_mem_breaches hp
      exact .inr ⟨clean, crowded, rule_eq⟩

end Class

/-- How what comes of a class under test goes with what comes of it otherwise: it is the same, or the class was refused
for the exports of its module alone and is hoisted. -/
inductive Relaxed : Option Hoisting → Option Hoisting → Prop where
  | same {outcome : Option Hoisting}
      (others : ∀ p ∈ outcome.elim [] Hoisting.problems, p.rule ≠ .singleExport) : Relaxed outcome outcome
  | released {problems : List Problem} {declaration : Declaration} (wrong : problems ≠ [])
      (crowd : ∀ p ∈ problems, p.rule = .singleExport) :
      Relaxed (some (.refused problems)) (some (.hoisted declaration))

namespace Class

theorem hoisting_relaxed (index : Nat) :
    Relaxed (some (cls.hoisting config.strict exports index)) (some (cls.hoisting config.tested exports index)) := by
  cases given : cls.optionsAt? index with
  | none =>
    rw [hoisting_of_no_options given, hoisting_of_no_options given]
    exact .same fun p hp => absurd hp List.not_mem_nil
  | some options =>
    obtain ⟨decorator, found, decoded⟩ := Option.bind_eq_some_iff.mp given
    rw [hoisting_of_options found decoded, hoisting_of_options found decoded]
    rcases problemsAt_tested config exports options cls index decorator with ⟨alike, others⟩ | ⟨clean, wrong, crowd⟩
    · rw [alike]
      refine .same fun p hp => ?_
      split at hp
      · cases hp
      · exact others p hp
    · have refused : ¬(cls.problemsAt config.strict exports options index decorator).isEmpty := by
        rwa [List.isEmpty_iff]
      rw [clean, if_pos List.isEmpty_nil, if_neg refused]
      exact .released wrong crowd

theorem outcome_relaxed (config : Config) (exports : List ExportedSymbol) (cls : Class) :
    Relaxed (cls.outcome config.strict exports) (cls.outcome config.tested exports) := by
  let stripped := cls.strip config.decoratorsToRemove config.decoratorName
  have strict : cls.outcome config.strict exports =
      (stripped.componentIndex? config).map (stripped.hoisting config.strict exports) := rfl
  have tested : cls.outcome config.tested exports =
      (stripped.componentIndex? config).map (stripped.hoisting config.tested exports) := rfl
  rw [strict, tested]
  cases stripped.componentIndex? config with
  | none => exact .same fun p hp => absurd hp List.not_mem_nil
  | some index => exact hoisting_relaxed index

end Class

/-! ### What a class contributes to the output -/

/-- Whether the report is about another export of the module. -/
def Diagnostic.isCrowding (d : Diagnostic) : Bool :=
  d.code == "C-ERR-SINGLE-EXPORT"

theorem Problem.isCrowding_filed (name path source : String) (p : Problem) :
    ((p.filed name path).resolve source).isCrowding = true ↔ p.rule = .singleExport := by
  rw [Diagnostic.isCrowding, Diagnostic.code_resolve, code_filed]
  cases p.rule <;> decide

namespace Class

/-- Whether other exports of the module are reported for the class. -/
def isCrowded (config : Config) (exports : List ExportedSymbol) (path source : String) (cls : Class) : Bool :=
  (cls.reported config.strict exports path source).any Diagnostic.isCrowding

/-- What becomes of a class that is not under test: the same as under test, without reports on other exports, or it is
refused with such reports only and would be hoisted under test. -/
theorem relaxed_cases (config : Config) (exports : List ExportedSymbol) (path source : String) (cls : Class) :
    (cls.isCrowded config exports path source = false ∧
        cls.outcome config.tested exports = cls.outcome config.strict exports) ∨
      (cls.isCrowded config exports path source = true ∧
        (∀ d ∈ cls.reported config.strict exports path source, d.isCrowding = true) ∧
        (∃ problems, cls.outcome config.strict exports = some (.refused problems)) ∧
        ∃ declaration, cls.outcome config.tested exports = some (.hoisted declaration)) := by
  have reported : cls.reported config.strict exports path source =
      ((cls.outcome config.strict exports).elim [] Hoisting.problems).map fun problem =>
        (problem.filed config.decoratorName path).resolve source := rfl
  have relaxed := cls.outcome_relaxed config exports
  rw [isCrowded, reported]
  generalize cls.outcome config.strict exports = strict at relaxed ⊢
  generalize cls.outcome config.tested exports = tested at relaxed ⊢
  cases relaxed with
  | same others =>
    refine .inl ⟨List.any_eq_false.mpr fun d hd => ?_, rfl⟩
    obtain ⟨problem, mem, rfl⟩ := List.mem_map.mp hd
    rw [Problem.isCrowding_filed]
    exact others problem mem
  | @released problems declaration wrong crowd =>
    have crowding : ∀ d ∈ problems.map fun problem => (problem.filed config.decoratorName path).resolve source,
        d.isCrowding = true := fun d hd => by
      obtain ⟨problem, mem, rfl⟩ := List.mem_map.mp hd
      exact (Problem.isCrowding_filed _ _ _ problem).mpr (crowd problem mem)
    obtain ⟨problem, mem⟩ := List.exists_mem_of_ne_nil problems wrong
    refine .inr ⟨?_, crowding, ⟨problems, rfl⟩, declaration, rfl⟩
    exact List.any_eq_true.mpr ⟨_, List.mem_map_of_mem mem, crowding _ (List.mem_map_of_mem mem)⟩

/-- Under test the reports on other exports are left out. -/
theorem reported_tested (config : Config) (exports : List ExportedSymbol) (path source : String) (cls : Class) :
    cls.reported config.tested exports path source =
      (cls.reported config.strict exports path source).filter fun d => !d.isCrowding := by
  rcases cls.relaxed_cases config exports path source with ⟨apart, alike⟩ | ⟨-, crowding, -, declaration, hoisted⟩
  · have all : cls.reported config.tested exports path source = cls.reported config.strict exports path source := by
      rw [reported, alike]
      rfl
    have kept : ∀ d ∈ cls.reported config.strict exports path source, (!d.isCrowding) = true := fun d hd => by
      simpa using List.any_eq_false.mp apart d hd
    rw [all, List.filter_eq_self.mpr kept]
  · have silent : cls.reported config.tested exports path source = [] := by
      rw [reported, hoisted]
      rfl
    have dropped : ∀ d ∈ cls.reported config.strict exports path source, ¬(!d.isCrowding) = true := fun d hd => by
      simpa using crowding d hd
    rw [silent, List.filter_eq_nil_iff.mpr dropped]

/-- A class is hoisted if it is hoisted under test and no other exports are reported for it. -/
theorem hoisted?_strict (config : Config) (exports : List ExportedSymbol) (path source : String) (cls : Class) :
    cls.hoisted? config.strict exports =
      if cls.isCrowded config exports path source then none else cls.hoisted? config.tested exports := by
  rcases cls.relaxed_cases config exports path source with ⟨apart, alike⟩ | ⟨crowded, -, ⟨problems, refused⟩, -⟩
  · rw [apart, if_neg Bool.false_ne_true, hoisted?, hoisted?, alike]
  · rw [crowded, if_pos rfl, hoisted?, refused]
    rfl

theorem isSome_hoisted?_of_isCrowded {path source : String}
    (crowded : cls.isCrowded config exports path source = true) :
    (cls.hoisted? config.tested exports).isSome := by
  rcases cls.relaxed_cases config exports path source with ⟨apart, -⟩ | ⟨-, -, -, declaration, hoisted⟩
  · rw [apart] at crowded
    cases crowded
  · rw [hoisted?, hoisted]
    rfl

/-! ### The classes inside a class -/

/-- The one decorator of a hoisted class that is left when it is stripped gives the options. -/
theorem decorators_of_hoisted {declaration : Declaration}
    (hoisted : cls.outcome config exports = some (.hoisted declaration)) :
    ∃ decorator, (cls.strip config.decoratorsToRemove config.decoratorName).decorators = [decorator] ∧
      cls.componentDecorator? config = some decorator ∧ decorator.options? ≠ none := by
  cases found : cls.componentDecorator? config with
  | none =>
    rw [outcome_of_no_component exports found] at hoisted
    cases hoisted
  | some decorator =>
    have given : decorator.options? ≠ none := fun bare => by
      rw [outcome_of_no_options found bare] at hoisted
      cases hoisted
    obtain ⟨index, there, outcome⟩ := outcome_of_componentDecorator? exports found
    rw [outcome] at hoisted
    have alone := removeDecorator_of_hoisting (Option.some.inj hoisted)
    rcases List.eraseIdx_eq_nil_iff.mp alone with bare | ⟨single, rfl⟩
    · rw [bare] at there
      cases there
    · obtain ⟨only, single⟩ := List.length_eq_one_iff.mp single
      rw [single] at there
      cases there
      exact ⟨_, single, rfl, given⟩

theorem keeps_of_outcome_eq (alike : cls.outcome config.tested exports = cls.outcome config.strict exports) :
    cls.keeps config.tested exports = cls.keeps config.strict exports := by
  funext d
  unfold keeps
  rw [alike]
  rfl

/-- A class that is hoisted under test alone loses the classes in its component decorator under test alone. -/
theorem inner_keeps_strict {problems : List Problem} {declaration : Declaration}
    (refused : cls.outcome config.strict exports = some (.refused problems))
    (hoisted : cls.outcome config.tested exports = some (.hoisted declaration)) :
    ∃ decorator, cls.componentDecorator? config = some decorator ∧ decorator.options? ≠ none ∧
      cls.inner (cls.keeps config.strict exports) = decorator.outer ++ cls.inner (cls.keeps config.tested exports) := by
  obtain ⟨decorator, left, found, given⟩ := decorators_of_hoisted hoisted
  have none_kept : cls.keeps config.tested exports = fun _ => false := by
    funext d
    rw [keeps, hoisted]
  have stripped : cls.decorators.filter (cls.keeps config.strict exports) = [decorator] := by
    rw [← left]
    refine List.filter_congr fun d _ => ?_
    rw [keeps, refused]
    rfl
  refine ⟨decorator, found, given, ?_⟩
  rw [inner_eq (cls.keeps config.strict exports), stripped, none_kept, List.flatMap_singleton]

/-- Whether no class is given options inside the decorator by which this one is given options. -/
def KeepsApart (config : Config) (cls : Class) : Prop :=
  ∀ d, cls.componentDecorator? config = some d → d.options? ≠ none → ∀ e ∈ d.classes, e.options? config = none

/-- The pass gets to the same candidates under test. -/
theorem filter_reached_tested (c : Class) (apart : ∀ e ∈ c.classes, e.KeepsApart config) :
    (c.reached (keeps config.tested exports)).filter (fun e => (e.options? config).isSome) =
      (c.reached (keeps config.strict exports)).filter fun e => (e.options? config).isSome := by
  induction c using nesting_induction with
  | step c ih =>
    have inside : ∀ keeps, ∀ d ∈ c.inner keeps, ∀ e ∈ d.classes, e.KeepsApart config := fun keeps d hd e he => by
      refine apart e ?_
      rw [classes_eq]
      exact List.mem_cons_of_mem c (List.mem_flatMap.mpr ⟨d, (c.inner_sublist keeps).subset hd, he⟩)
    have later : (((c.inner (c.keeps config.tested exports)).flatMap (reached (keeps config.tested exports))).filter
        fun e => (e.options? config).isSome) =
          ((c.inner (c.keeps config.tested exports)).flatMap (reached (keeps config.strict exports))).filter
            fun e => (e.options? config).isSome := by
      rw [List.filter_flatMap, List.filter_flatMap]
      exact List.flatMap_congr fun d hd => ih _ d hd (inside _ d hd)
    rw [reached_eq, reached_eq, List.filter_cons, List.filter_cons, later]
    rcases c.relaxed_cases config exports "" "" with ⟨-, alike⟩ | ⟨-, -, ⟨problems, refused⟩, declaration, hoisted⟩
    · rw [keeps_of_outcome_eq alike]
    · obtain ⟨decorator, found, given, inner⟩ := inner_keeps_strict refused hoisted
      -- There is no candidate among the classes that are met in the decorator.
      have nothing : ((decorator.outer.flatMap (reached (keeps config.strict exports))).filter
          fun e => (e.options? config).isSome) = [] := by
        refine List.filter_eq_nil_iff.mpr fun e he => ?_
        have within : e ∈ decorator.classes := by
          rw [Decorator.classes_eq]
          exact (List.Sublist.flatMap_right _ fun d _ => d.reached_sublist _).subset he
        have bare := apart c (by rw [classes_eq]; exact List.mem_cons_self) decorator found given e within
        simp [bare]
      rw [inner, List.flatMap_append, List.filter_append, nothing, List.nil_append]

/-! ### What the pass makes of a class -/

/-- If the same comes of all classes that are met, then the pass makes the same of them under test. -/
theorem rewritten_tested (c : Class)
    (alike : ∀ e ∈ c.reached (keeps config.strict exports),
      e.outcome config.tested exports = e.outcome config.strict exports) :
    c.rewritten config.tested exports = c.rewritten config.strict exports := by
  induction c using nesting_induction with
  | step c ih =>
    rw [reached_eq] at alike
    have here := alike c List.mem_cons_self
    have keeps_eq := keeps_of_outcome_eq here
    have gains_eq : c.gains config.tested exports = c.gains config.strict exports := by
      rw [gains, gains, hoisted?, hoisted?, here]
    have parts : c.visitParts (Plan.rewrite config.tested exports) (c.keeps config.strict exports) =
        c.visitParts (Plan.rewrite config.strict exports) (c.keeps config.strict exports) := by
      refine visitParts_rel (RunRelation.equality Id) _ _ _ c fun d hd => ?_
      refine ih _ d hd fun e he => alike e ?_
      exact List.mem_cons_of_mem c (List.mem_flatMap.mpr ⟨d, hd, he⟩)
    rw [rewritten, rewritten, visit_descend (rfl : Plan.rewrite config.tested exports c = _),
      visit_descend (rfl : Plan.rewrite config.strict exports c = _), keeps_eq, gains_eq, parts]

end Class

/-! ### A module -/

namespace Program

/-- Whether no class is given options inside a decorator by which another class is given options. -/
def KeepsApart (config : Config) (p : Program) : Prop :=
  ∀ c ∈ p.classes, c.KeepsApart config

theorem candidates_tested {p : Program} (apart : p.KeepsApart config) :
    p.candidates config.tested = p.candidates config.strict := by
  have strict : p.candidates config.strict = (p.outer.flatMap fun c =>
      (c.reached (Class.keeps config.strict p.exports)).filter fun e => (e.options? config).isSome) := by
    rw [candidates, visited, reached_eq, List.filter_flatMap]
    rfl
  have tested : p.candidates config.tested = (p.outer.flatMap fun c =>
      (c.reached (Class.keeps config.tested p.exports)).filter fun e => (e.options? config).isSome) := by
    rw [candidates, visited, reached_eq, List.filter_flatMap]
    rfl
  rw [strict, tested]
  refine List.flatMap_congr fun c hc => c.filter_reached_tested fun e he => apart e ?_
  rw [classes_eq]
  exact List.mem_flatMap.mpr ⟨c, hc, he⟩

/-- If no other exports are reported, then the pass leaves the same module under test. -/
theorem rewritten_tested {path source : String} {p : Program}
    (apart : ∀ d ∈ (p.output config.strict path source).diagnostics, d.isCrowding = false) :
    p.rewritten config.tested = p.rewritten config.strict := by
  have alike : ∀ c ∈ p.visited config.strict,
      c.outcome config.tested p.exports = c.outcome config.strict p.exports := by
    intro c visited
    rcases c.relaxed_cases config p.exports path source with ⟨-, alike⟩ | ⟨crowded, -⟩
    · exact alike
    · obtain ⟨d, reported, crowding⟩ := List.any_eq_true.mp crowded
      rw [diagnostics_output] at apart
      rw [apart d (List.mem_flatMap.mpr ⟨c, visited, reported⟩)] at crowding
      cases crowding
  refine congrArg Id.run (visit_rel (RunRelation.equality Id) _ _ p fun c hc => ?_)
  refine c.rewritten_tested fun e he => alike e ?_
  rw [visited, reached_eq]
  exact List.mem_flatMap.mpr ⟨c, hc, he⟩

/-- The output under test and the one otherwise, for a module in which no candidate stands in the decorator of another
one.  The reports under test are the others without those on other exports, in the same order.  The components
otherwise are those under test without the ones of the classes for which other exports are reported, each of which is
hoisted under test.  If there are no such reports, then the module that is left is the same. -/
theorem output_tested (config : Config) (path source : String) (p : Program) (apart : p.KeepsApart config) :
    let strict : Config := { config with isTesting := false }
    let tested : Config := { config with isTesting := true }
    let isCrowding (d : Diagnostic) : Bool := d.code == "C-ERR-SINGLE-EXPORT"
    let reported := Class.reported strict p.exports path source
    let hoisted? := Class.hoisted? tested p.exports
    let isCrowded (c : Class) : Bool := (reported c).any isCrowding
    let candidates := p.candidates strict
    (p.output tested path source).diagnostics =
        (p.output strict path source).diagnostics.filter (fun d => !isCrowding d) ∧
      (p.output strict path source).diagnostics = candidates.flatMap reported ∧
      (p.output tested path source).components = candidates.filterMap hoisted? ∧
      (p.output strict path source).components = (candidates.filter fun c => !isCrowded c).filterMap hoisted? ∧
      (p.output strict path source).components.Sublist (p.output tested path source).components ∧
      (∀ c ∈ candidates, isCrowded c = true → (hoisted? c).isSome = true) ∧
      ((∀ d ∈ (p.output strict path source).diagnostics, isCrowding d = false) →
        ((p.transform tested).run (Ledger.start path)).1 = ((p.transform strict).run (Ledger.start path)).1 ∧
          (p.output tested path source).code = (p.output strict path source).code) := by
  intro strict tested isCrowding reported hoisted? isCrowded candidates
  have same : p.candidates tested = candidates := candidates_tested apart
  have components_tested : (p.output tested path source).components = candidates.filterMap hoisted? := by
    rw [components_candidates, same]
  have components_strict : (p.output strict path source).components =
      (candidates.filter fun c => !isCrowded c).filterMap hoisted? := by
    rw [components_candidates, List.filterMap_filter]
    refine List.filterMap_congr fun c _ => ?_
    have relation : c.hoisted? strict p.exports = if isCrowded c then none else hoisted? c :=
      c.hoisted?_strict config p.exports path source
    rw [relation]
    cases isCrowded c <;> rfl
  refine ⟨?_, p.diagnostics_candidates strict path source, components_tested, components_strict, ?_,
    fun c _ crowded => ?_, fun none => ?_⟩
  · rw [diagnostics_candidates, diagnostics_candidates, same, List.filter_flatMap]
    exact List.flatMap_congr fun c _ => c.reported_tested config p.exports path source
  · rw [components_strict, components_tested]
    exact List.filter_sublist.filterMap hoisted?
  · exact Class.isSome_hoisted?_of_isCrowded crowded
  · have left : p.rewritten tested = p.rewritten strict := rewritten_tested none
    have print (config : Config) : (p.output config path source).code = (p.rewritten config).print := by
      rw [← p.node_transform config (Ledger.start path)]
      rfl
    rw [node_transform, node_transform, print, print, left]
    exact ⟨rfl, rfl⟩

end Program

/-! ### A component beside another export -/

/-- The export of a constant at the position. -/
def constantExport (start : Nat) : Stmt :=
  .exportDecl ⟨start, start + 19⟩ false (.variables ⟨start + 7, start + 19⟩ false "const"
    [⟨⟨start + 13, start + 18⟩, .name ⟨start + 13, start + 14⟩ "x" ⟨false, none⟩, false,
      some (.number ⟨start + 17, start + 18⟩ ⟨0x3FF0000000000000⟩)⟩])

/-- A module that declares a component and exports a constant. -/
def crowdedModule : Program where
  statements := [.decl (.classDecl (decoratedClass 37 [tagDecorator 0])), constantExport 38]

namespace Program

/-- The component is hoisted under test, and refused for the constant otherwise. -/
theorem output_tested_crowdedModule :
    let strict : Config := { isTesting := false }
    let tested : Config := { isTesting := true }
    crowdedModule.KeepsApart {} ∧
      (crowdedModule.output strict "a.tsx" "").diagnostics.map Diagnostic.code = ["C-ERR-SINGLE-EXPORT"] ∧
      (crowdedModule.output strict "a.tsx" "").components = [] ∧
      (crowdedModule.output tested "a.tsx" "").diagnostics = [] ∧
      (crowdedModule.output tested "a.tsx" "").components.map Declaration.tag = ["a-b"] := by
  intro strict tested
  have classes : crowdedModule.classes = [decoratedClass 37 [tagDecorator 0]] := rfl
  have apart : crowdedModule.KeepsApart {} := by
    intro c hc d found _ e he
    rw [classes] at hc
    obtain rfl := List.mem_singleton.mp hc
    obtain rfl : tagDecorator 0 = d := Option.some.inj found
    exact absurd he List.not_mem_nil
  have candidates : crowdedModule.candidates strict = [decoratedClass 37 [tagDecorator 0]] := by
    have visited : crowdedModule.visited strict = [decoratedClass 37 [tagDecorator 0]] := visited_of_outer rfl rfl
    rw [Program.candidates, visited]
    rfl
  obtain ⟨diagnostics_tested, diagnostics_strict, components_tested, components_strict, -⟩ :=
    output_tested {} "a.tsx" "" crowdedModule apart
  rw [diagnostics_strict] at diagnostics_tested
  refine ⟨apart, ?_, components_strict.trans ?_, diagnostics_tested.trans ?_, ?_⟩
  · rw [diagnostics_strict, candidates]
    decide
  · rw [candidates]
    decide
  · rw [candidates]
    decide
  · rw [components_tested, candidates]
    decide

end Program

/-! ### A component in the type of a decorator -/

namespace Decorator

/-- All classes in the arguments of the call that the decorator is. -/
def argumentClasses (d : Decorator) : List Class :=
  match d.expr.unwrap with
  | .call _ _ _ arguments => (Expr.visitList (Plan.reach fun _ _ => true) arguments).notes
  | _ => []

end Decorator

/-- A component without a tag. -/
def taglessClass : Class where
  head := { span := ⟨19, 44⟩, name := some "B" }
  decorators := [⟨⟨19, 33⟩, .call ⟨20, 33⟩ (.ident ⟨20, 29⟩ "Component") [] [.object ⟨30, 32⟩ []]⟩]
  generics := []
  superclass := none
  superArguments := []
  interfaces := []
  members := []

/-- An object type with a key for which the component is evaluated. -/
def keyedType : Phrase :=
  .objectType [.property false
    (.computed (.member ⟨18, 47⟩ (.wrapped ⟨18, 45⟩ .parentheses (.classExpr taglessClass)) "x")) false
    (some (.text "1"))]

/-- A component decorator that is asserted to be of that type before it is called. -/
def assertedDecorator : Decorator where
  span := ⟨0, 70⟩
  expr := .call ⟨1, 70⟩
    (.wrapped ⟨1, 54⟩ .parentheses (.wrapped ⟨2, 53⟩ (.asType keyedType) (.ident ⟨2, 11⟩ "Component"))) []
    [.object ⟨55, 69⟩ [.property ⟨57, 67⟩ (.label (.bare "tag")) .plain (.string ⟨62, 67⟩ "a-a")]]

/-- A module that declares a component with this decorator and exports a constant. -/
def assertedModule : Program where
  statements := [.decl (.classDecl (decoratedClass 81 [assertedDecorator])), constantExport 82]

namespace Program

/-- No class stands in the arguments of a decorator, but one stands in the type.  It is lost with its report under
test. -/
theorem assertedModule_reports :
    let strict : Config := { isTesting := false }
    let tested : Config := { isTesting := true }
    (∀ c ∈ assertedModule.classes, ∀ d ∈ c.decorators, d.argumentClasses = []) ∧
      ((assertedModule.output strict "a.tsx" "").diagnostics.filter fun d => !d.isCrowding).map Diagnostic.code =
        ["C-ERR-TAG-MISSING"] ∧
      (assertedModule.output tested "a.tsx" "").diagnostics = [] := by
  intro strict tested
  have classes : assertedModule.classes = [decoratedClass 81 [assertedDecorator], taglessClass] := rfl
  refine ⟨fun c hc d hd => ?_, ?_, ?_⟩
  · rw [classes] at hc
    rcases List.mem_cons.mp hc with rfl | hc
    · obtain rfl := List.mem_singleton.mp hd
      rfl
    · obtain rfl := List.mem_singleton.mp hc
      obtain rfl := List.mem_singleton.mp hd
      rfl
  · decide +kernel
  · decide +kernel

end Program
end ComponentHoist

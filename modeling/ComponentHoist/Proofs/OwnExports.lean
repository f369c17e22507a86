import ComponentHoist.Proofs.ExportForms
import ComponentHoist.Proofs.Outcome

/-!
# ComponentHoist.Proofs.OwnExports — a component may be exported in every form

The module of a component should export nothing but the component.  The component itself can be exported where it is
declared, as the default of its module, and in export lists under any names, and none of this counts against it.

* `Class.OwnExport`: the exported symbols that stem from a class.
* `Class.OwnExport.isItself`: the check takes them for the class.
* `Class.Broken.ne_singleExport`: if all other exports are types, then the rule on exports is not the broken one.
* `Class.ownExports_pass`: what this means for a module that exports no other values.
-/

namespace ComponentHoist

/-- No two rules are reported under one code. -/
theorem Rule.code_injective : Function.Injective Rule.code := by
  intro rule other
  cases rule <;> cases other <;> decide

namespace Class

/-- The exported symbols of a module that stem from an export of the class. -/
inductive OwnExport (p : Program) (cls : Class) : ExportedSymbol → Prop
  /-- The class is exported where it is declared. -/
  | inline {span : Span} {isTypeOnly : Bool} {s : ExportedSymbol}
    (stands : .exportDecl span isTypeOnly (.classDecl cls) ∈ p.statements)
    (exported : s ∈ (Stmt.exportDecl span isTypeOnly (.classDecl cls)).exports p.locals) : OwnExport p cls s
  /-- The class is declared as the default of the module, with or without a name. -/
  | asDefault {span : Span} {s : ExportedSymbol} (stands : .exportDefaultDecl span (.classDecl cls) ∈ p.statements)
    (exported : s ∈ (Stmt.exportDefaultDecl span (.classDecl cls)).exports p.locals) : OwnExport p cls s
  /-- The name of the class is exported as the default of the module. -/
  | defaultName {span place : Span} {name : String} {s : ExportedSymbol} (named : cls.head.name = some name)
    (stands : .exportDefault span (.ident place name) ∈ p.statements)
    (exported : s ∈ (Stmt.exportDefault span (.ident place name)).exports p.locals) : OwnExport p cls s
  /-- The name of the class stands in an export list, with any name under which it is exported. -/
  | listed {list : ExportList} {specifier : ExportSpecifier}
    (named : cls.head.name = some specifier.name.text) (stands : .exportList list ∈ p.statements)
    (source : list.source = none) (mem : specifier ∈ list.specifiers) :
    OwnExport p cls (specifier.toExport p.locals list)

variable {config : Config} {exports : List ExportedSymbol} {options : Options} {cls : Class} {index : Nat}
  {p : Program} {s : ExportedSymbol}

/-! ### What stems from the class -/

theorem OwnExport.mem_exports (own : OwnExport p cls s) : s ∈ p.exports := by
  cases own with
  | inline stands exported => exact List.mem_flatMap.mpr ⟨_, stands, exported⟩
  | asDefault stands exported => exact List.mem_flatMap.mpr ⟨_, stands, exported⟩
  | defaultName _ stands exported => exact List.mem_flatMap.mpr ⟨_, stands, exported⟩
  | listed _ stands _ mem => exact List.mem_flatMap.mpr ⟨_, stands, List.mem_map_of_mem mem⟩

/-- A symbol of the declaration has the place of the class, and a symbol of the name has it inside the module, whatever
the name resolves to. -/
theorem OwnExport.isItself (own : OwnExport p cls s) : cls.IsItself s := by
  cases own with
  | inline _ exported =>
    obtain ⟨b, declared, rfl⟩ := List.mem_map.mp exported
    obtain ⟨name, -, rfl⟩ := List.mem_map.mp declared
    exact .inl rfl
  | asDefault _ exported =>
    obtain rfl := List.mem_singleton.mp exported
    exact .inl rfl
  | @defaultName span place name _ named _ exported =>
    obtain rfl := List.mem_singleton.mp exported
    rw [Expr.toDefaultExport_ident]
    exact .inr ⟨name, named, .inl rfl⟩
  | @listed list specifier named _ source _ =>
    rw [ExportSpecifier.toExport_eq source]
    exact .inr ⟨specifier.name.text, named, .inl rfl⟩

theorem OwnExport.not_mem_extraExports (own : OwnExport p cls s) : s ∉ cls.extraExports exports := by
  rw [extraExports_eq]
  intro extra
  have foreign := of_decide_eq_true (List.mem_filter.mp extra).2
  exact foreign (.inr own.isItself)

/-! ### A module without other values -/

theorem extraExports_eq_nil (only : ∀ s ∈ exports, s.isTypeOnly = false → cls.IsItself s) :
    cls.extraExports exports = [] := by
  rw [extraExports_eq, List.filter_eq_nil_iff]
  intro s hs
  cases type : s.isTypeOnly with
  | true => simp
  | false => simp [only s hs type]

/-- If no export is reported, then the rule on exports is met, so another rule is broken if any is. -/
theorem Broken.ne_singleExport {rule : Rule} (broken : Broken config exports options cls index rule)
    (none : cls.extraExports exports = []) : rule ≠ .singleExport := by
  rintro rfl
  apply broken.unmet
  refine .inr fun s hs => ?_
  rw [extraExports_eq, List.filter_eq_nil_iff] at none
  by_contra foreign
  exact none s hs (decide_eq_true foreign)

theorem rule_ne_singleExport {decorator : Decorator} {problem : Problem} (none : cls.extraExports exports = [])
    (found : problem ∈ cls.problemsAt config exports options index decorator) : problem.rule ≠ .singleExport := by
  rcases problemsAt_spec config exports options cls index decorator with ⟨-, clean⟩ | ⟨rule, broken, wrong⟩
  · rw [clean] at found
    cases found
  · rw [wrong] at found
    rw [rule_of_mem_breaches found]
    exact broken.ne_singleExport none

theorem rule_ne_singleExport_of_outcome {problem : Problem} (none : cls.extraExports exports = [])
    (found : problem ∈ (cls.outcome config exports).elim [] Hoisting.problems) : problem.rule ≠ .singleExport := by
  cases component : cls.componentDecorator? config with
  | none =>
    rw [outcome_of_no_component exports component] at found
    cases found
  | some decorator =>
    cases given : decorator.options? with
    | none =>
      rw [outcome_of_no_options component given] at found
      cases found
    | some options =>
      obtain ⟨index, -, outcome⟩ := outcome_of_options exports component given
      -- Stripping leaves the name and the place of the class, and the check looks at nothing else.
      have stripped : (cls.strip config.decoratorsToRemove config.decoratorName).extraExports exports = [] := none
      rw [outcome] at found
      split at found
      · cases found
      · exact rule_ne_singleExport stripped found

/-- None of the symbols that stem from a class is among the exports that are reported for it.  So if all other exports
of the module are types, then no report on the class is about exports, neither in a verdict on it nor in the output for
the module. -/
theorem ownExports_pass (p : Program) (cls : Class) :
    (∀ s, OwnExport p cls s → s ∈ p.exports ∧ s ∉ cls.extraExports p.exports) ∧
      ((∀ s ∈ p.exports, s.isTypeOnly = false → OwnExport p cls s) →
        cls.extraExports p.exports = [] ∧
          (∀ (config : Config) (options : Options) (index : Nat) (reports : Diagnostics),
            ∃ added, (cls.validate config p.exports options index reports).2.items = reports.items ++ added ∧
              ∀ d ∈ added, d.code ≠ Rule.singleExport.code) ∧
          ∀ (config : Config) (path source : String), ∀ d ∈ cls.reported config p.exports path source,
            d.code ≠ Rule.singleExport.code) := by
  refine ⟨fun s own => ⟨own.mem_exports, own.not_mem_extraExports⟩, fun only => ?_⟩
  have none : cls.extraExports p.exports = [] := extraExports_eq_nil fun s hs value => (only s hs value).isItself
  refine ⟨none, fun config options index reports => ?_, fun config path source d reported => ?_⟩
  · rcases Nat.lt_or_ge index cls.decorators.length with inRange | missing
    · have found := List.getElem?_eq_getElem inRange
      rcases validate_spec config p.exports options reports found with ⟨-, passed⟩ | ⟨rule, broken, -, refused⟩
      · exact ⟨[], by rw [passed, List.append_nil], by simp⟩
      · refine ⟨_, congrArg (fun verdict => verdict.2.items) refused, fun d hd => ?_⟩
        obtain ⟨problem, hp, rfl⟩ := List.mem_map.mp hd
        rw [Problem.code_filed, rule_of_mem_breaches hp]
        exact Rule.code_injective.ne (broken.ne_singleExport none)
    · exact ⟨[], by rw [validate_of_missing missing, List.append_nil], by simp⟩
  · obtain ⟨problem, hp, rfl⟩ := List.mem_map.mp reported
    exact Rule.code_injective.ne (rule_ne_singleExport_of_outcome none hp)

/-! ### A component and a namespace of the same name -/

/-- The name of the component in an export list, exported under another name. -/
def renamedSpecifier : ExportSpecifier :=
  ⟨⟨119, 135⟩, false, .bare "MyComponent", .bare "A"⟩

/-- The export list with that name. -/
def renamedList : ExportList :=
  ⟨⟨110, 138⟩, false, [renamedSpecifier], none⟩

/-- A module that declares a component and a namespace under one name, and exports that name twice. -/
def mergedComponent : Program where
  statements := [
    .decl (.classDecl bareComponent),
    .decl (.namespaceDecl ⟨57, 81⟩ false "namespace" (.path "MyComponent" []) (some [])),
    .exportDefault ⟨82, 109⟩ (.ident ⟨97, 108⟩ "MyComponent"),
    .exportList renamedList]

/-- Both exports stand for the namespace, and neither counts against the component. -/
theorem ownExports_pass_mergedComponent :
    mergedComponent.exports =
        [⟨"default", some "MyComponent", .namespace, false, ⟨57, 81⟩, some ⟨82, 88⟩⟩,
          ⟨"A", some "MyComponent", .namespace, false, ⟨57, 81⟩, none⟩] ∧
      (∀ s ∈ mergedComponent.exports, s.isTypeOnly = false → OwnExport mergedComponent bareComponent s) ∧
      bareComponent.extraExports mergedComponent.exports = [] := by
  have only : ∀ s ∈ mergedComponent.exports, s.isTypeOnly = false → OwnExport mergedComponent bareComponent s := by
    intro s hs _
    obtain ⟨statement, stands, exported⟩ := List.mem_flatMap.mp hs
    have place := stands
    simp only [mergedComponent, List.mem_cons, List.not_mem_nil, or_false] at place
    rcases place with rfl | rfl | rfl | rfl
    · cases exported
    · cases exported
    · exact .defaultName rfl stands exported
    · obtain rfl := List.mem_singleton.mp exported
      exact .listed rfl stands rfl (List.mem_singleton_self _)
  exact ⟨by decide, only, ((ownExports_pass mergedComponent bareComponent).2 only).1⟩

end Class
end ComponentHoist

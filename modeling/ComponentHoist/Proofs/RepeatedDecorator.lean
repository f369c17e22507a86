import ComponentHoist.Proofs.Outcome

/-!
# ComponentHoist.Proofs.RepeatedDecorator — a class with several component decorators

Only the options of the first component decorator are looked at, and the other decorators are counted only if there are
some.  So a class with two component decorators is refused if the first one has options, and is passed over in silence
if not, whatever the second one is given.

* `Class.outcome_of_repeated`, `Class.reported_of_repeated`: with options in front it is refused with one breach, which
  is reported at one of its decorators.
* `Program.diagnostics_of_visited`, `Program.components_of_visited`: what one class contributes to the output.
* `Program.output_repeatedDecorator`: the contribution of such a class, with and without options in front.
-/

namespace ComponentHoist

variable {config : Config} {exports : List ExportedSymbol} {cls : Class} {decorator : Decorator} {options : Options}

/-! ### The breach -/

namespace Class

/-- Without a base class the other decorator is the first thing that is wrong. -/
theorem problemsAt_of_otherDecorator? {index : Nat} {other : Decorator} (base : cls.superclass = none)
    (found : cls.otherDecorator? index = some other) :
    cls.problemsAt config exports options index decorator = [.otherDecorator other.span] := by
  have noBase : cls.baseClassProblems = [] := by simp [baseClassProblems, base]
  have others : cls.decoratorProblems index = [.otherDecorator other.span] := by simp [decoratorProblems, found]
  simp [problemsAt, noBase, others]

/-- Stripping leaves all component decorators, so with two of them there is another one beside each. -/
theorem exists_otherDecorator?_strip (index : Nat)
    (repeated : 2 ≤ (cls.decorators.filter fun d => d.name? = some config.decoratorName).length) :
    ∃ other ∈ cls.decorators,
      (cls.strip config.decoratorsToRemove config.decoratorName).otherDecorator? index = some other := by
  let stripped := cls.strip config.decoratorsToRemove config.decoratorName
  have enough : 2 ≤ stripped.decorators.length := by
    rw [← filter_decorators_strip] at repeated
    exact Nat.le_trans repeated (List.length_filter_le _ _)
  have remain : stripped.decorators.eraseIdx index ≠ [] := fun nothing => by
    rcases List.eraseIdx_eq_nil_iff.mp nothing with bare | ⟨single, -⟩
    · simp [bare] at enough
    · omega
  obtain ⟨other, rest, beside⟩ := List.exists_cons_of_ne_nil remain
  have kept : other ∈ stripped.decorators := List.mem_of_mem_eraseIdx (beside ▸ List.mem_cons_self)
  exact ⟨other, (List.mem_filter.mp kept).1, by rw [otherDecorator?, beside, List.head?_cons]⟩

/-- A class with two component decorators is refused if the first of them has options. -/
theorem outcome_of_repeated (exports : List ExportedSymbol) (base : cls.superclass = none)
    (repeated : 2 ≤ (cls.decorators.filter fun d => d.name? = some config.decoratorName).length)
    (found : cls.componentDecorator? config = some decorator) (given : decorator.options? = some options) :
    ∃ other ∈ cls.decorators, cls.outcome config exports = some (.refused [.otherDecorator other.span]) := by
  obtain ⟨index, -, outcome⟩ := outcome_of_options exports found given
  obtain ⟨other, mem, beside⟩ := exists_otherDecorator?_strip index repeated
  have stripped : (cls.strip config.decoratorsToRemove config.decoratorName).superclass = none := base
  refine ⟨other, mem, ?_⟩
  rw [outcome, problemsAt_of_otherDecorator? stripped beside]
  rfl

end Class

/-! ### What a class contributes to the output -/

@[simp] theorem Diagnostic.code_resolve (source : String) (d : Diagnostic) : (d.resolve source).code = d.code := by
  unfold resolve
  split <;> rfl

@[simp] theorem Diagnostic.span_resolve (source : String) (d : Diagnostic) : (d.resolve source).span = d.span := by
  unfold resolve
  split <;> rfl

namespace Class

theorem exists_componentDecorator?
    (present : 0 < (cls.decorators.filter fun d => d.name? = some config.decoratorName).length) :
    ∃ first, cls.componentDecorator? config = some first := by
  obtain ⟨d, component⟩ := List.exists_mem_of_length_pos present
  obtain ⟨mem, name⟩ := List.mem_filter.mp component
  refine Option.isSome_iff_exists.mp (List.find?_isSome.mpr ⟨d, mem, ?_⟩)
  simpa [Config.isComponentDecorator] using name

/-- With options in front a class with two component decorators has one report, at one of its decorators. -/
theorem reported_of_repeated (exports : List ExportedSymbol) (path source : String) (base : cls.superclass = none)
    (repeated : 2 ≤ (cls.decorators.filter fun d => d.name? = some config.decoratorName).length)
    (found : cls.componentDecorator? config = some decorator) (given : decorator.options? = some options) :
    cls.hoisted? config exports = none ∧
      ∃ report, cls.reported config exports path source = [report] ∧ report.code = "C-ERR-MULTI-DECORATOR" ∧
        ∃ d ∈ cls.decorators, report.span = d.span := by
  obtain ⟨other, mem, outcome⟩ := outcome_of_repeated exports base repeated found given
  let report := ((Problem.otherDecorator other.span).filed config.decoratorName path).resolve source
  have code : report.code = "C-ERR-MULTI-DECORATOR" := by
    rw [Diagnostic.code_resolve, Problem.code_filed]
    rfl
  have place : report.span = other.span := by
    rw [Diagnostic.span_resolve, Problem.span_filed]
    rfl
  refine ⟨by rw [hoisted?, outcome]; rfl, report, ?_, code, other, mem, place⟩
  rw [reported, outcome]
  rfl

theorem hoisted?_of_no_options (exports : List ExportedSymbol)
    (found : cls.componentDecorator? config = some decorator) (bare : decorator.options? = none) :
    cls.hoisted? config exports = none := by
  rw [hoisted?, outcome_of_no_options found bare]
  rfl

theorem reported_of_no_options (exports : List ExportedSymbol) (path source : String)
    (found : cls.componentDecorator? config = some decorator) (bare : decorator.options? = none) :
    cls.reported config exports path source = [] := by
  rw [reported, outcome_of_no_options found bare]
  rfl

end Class

namespace Program

variable {p : Program} {before after : List Class} (path source : String)

theorem diagnostics_of_visited (visited : p.visited config = before ++ cls :: after) :
    (p.output config path source).diagnostics =
      before.flatMap (Class.reported config p.exports path source) ++ cls.reported config p.exports path source ++
        after.flatMap (Class.reported config p.exports path source) := by
  rw [diagnostics_output, visited, List.flatMap_append, List.flatMap_cons, List.append_assoc]

theorem components_of_visited (visited : p.visited config = before ++ cls :: after) :
    (p.output config path source).components =
      before.filterMap (Class.hoisted? config p.exports) ++ (cls.hoisted? config p.exports).toList ++
        after.filterMap (Class.hoisted? config p.exports) := by
  rw [components_output, visited, List.filterMap_append, List.filterMap_cons]
  cases cls.hoisted? config p.exports <;> simp

/-- A class with two component decorators and no base class is not hoisted.  If the first one of them has options, then
one report is made, at one of the decorators of the class, that there are several, and else none.  The options of the
others do not matter. -/
theorem output_repeatedDecorator (config : Config) (path source : String) (p : Program) {before after : List Class}
    {cls : Class} (visited : p.visited config = before ++ cls :: after) (base : cls.superclass = none)
    (repeated : 2 ≤ (cls.decorators.filter fun d => d.name? = some config.decoratorName).length) :
    let output := p.output config path source
    let reported := Class.reported config p.exports path source
    let hoisted? := Class.hoisted? config p.exports
    let given := ∃ first options, cls.componentDecorator? config = some first ∧ first.options? = some options
    ∃ own, output.diagnostics = before.flatMap reported ++ own ++ after.flatMap reported ∧
      output.components = before.filterMap hoisted? ++ after.filterMap hoisted? ∧
      ((∃ report, own = [report] ∧ report.code = "C-ERR-MULTI-DECORATOR" ∧
        ∃ d ∈ cls.decorators, report.span = d.span) ↔ given) ∧
      (¬given → own = []) := by
  intro output reported hoisted? given
  have filed : output.diagnostics = before.flatMap reported ++ reported cls ++ after.flatMap reported :=
    diagnostics_of_visited path source visited
  have collected : output.components =
      before.filterMap hoisted? ++ (hoisted? cls).toList ++ after.filterMap hoisted? :=
    components_of_visited path source visited
  obtain ⟨first, found⟩ := Class.exists_componentDecorator? (Nat.lt_of_lt_of_le Nat.zero_lt_two repeated)
  cases options : first.options? with
  | some options_first =>
    have front : given := ⟨first, options_first, found, options⟩
    obtain ⟨(refused : hoisted? cls = none), report, (alone : reported cls = [report]), code, place⟩ :=
      Class.reported_of_repeated p.exports path source base repeated found options
    rw [refused, Option.toList_none, List.append_nil] at collected
    rw [alone] at filed
    exact ⟨[report], filed, collected, iff_of_true ⟨report, rfl, code, place⟩ front, fun bare => absurd front bare⟩
  | none =>
    have bare : ¬given := by
      rintro ⟨other, options_other, found_other, options'⟩
      rw [found] at found_other
      cases found_other
      rw [options] at options'
      cases options'
    have silent : reported cls = [] := Class.reported_of_no_options p.exports path source found options
    have refused : hoisted? cls = none := Class.hoisted?_of_no_options p.exports found options
    rw [refused, Option.toList_none, List.append_nil] at collected
    rw [silent] at filed
    refine ⟨[], filed, collected, iff_of_false ?_ bare, fun _ => rfl⟩
    rintro ⟨report, single, -⟩
    cases single

end Program

/-! ### Two decorators in either order -/

/-- A component decorator at the position that is not called. -/
def bareDecorator (start : Nat) : Decorator :=
  ⟨⟨start, start + 10⟩, .ident ⟨start + 1, start + 10⟩ "Component"⟩

/-- A component decorator at the position that is given a tag. -/
def tagDecorator (start : Nat) : Decorator :=
  ⟨⟨start, start + 26⟩, .call ⟨start + 1, start + 26⟩ (.ident ⟨start + 1, start + 10⟩ "Component") []
    [.object ⟨start + 11, start + 25⟩
      [.property ⟨start + 13, start + 23⟩ (.label (.bare "tag")) .plain (.string ⟨start + 18, start + 23⟩ "a-b")]]⟩

/-- A class with the decorators, up to the given position. -/
def decoratedClass (stop : Nat) (decorators : List Decorator) : Class where
  head := { span := ⟨0, stop⟩, name := some "A" }
  decorators := decorators
  generics := []
  superclass := none
  superArguments := []
  interfaces := []
  members := []

/-- The module that declares the class. -/
def Class.toModule (cls : Class) : Program where
  statements := [.decl (.classDecl cls)]

namespace Program

/-- With the options in front there is one report. -/
theorem output_optionsFirst :
    let cls := decoratedClass 48 [tagDecorator 0, bareDecorator 27]
    let p := cls.toModule
    p.visited {} = [cls] ∧ cls.superclass = none ∧
      2 ≤ (cls.decorators.filter fun d => d.name? = some "Component").length ∧
      ∃ report, (p.output {} "test.tsx" "").diagnostics = [report] ∧ report.code = "C-ERR-MULTI-DECORATOR" ∧
        ∃ d ∈ cls.decorators, report.span = d.span := by
  intro cls p
  have visited : p.visited {} = [] ++ cls :: [] := visited_of_outer rfl rfl
  have two : 2 ≤ (cls.decorators.filter fun d => d.name? = some "Component").length := by decide
  obtain ⟨own, filed, -, reported, -⟩ := output_repeatedDecorator {} "test.tsx" "" p visited rfl two
  obtain ⟨report, rfl, code, place⟩ := reported.mpr ⟨tagDecorator 0, _, rfl, rfl⟩
  exact ⟨visited, rfl, two, report, filed, code, place⟩

/-- With the options behind there is none. -/
theorem output_optionsSecond :
    let cls := decoratedClass 48 [bareDecorator 0, tagDecorator 11]
    let p := cls.toModule
    p.visited {} = [cls] ∧ cls.superclass = none ∧
      2 ≤ (cls.decorators.filter fun d => d.name? = some "Component").length ∧
      (∃ d ∈ cls.decorators, d.name? = some "Component" ∧ d.options?.isSome = true) ∧
      (p.output {} "test.tsx" "").diagnostics = [] := by
  intro cls p
  have visited : p.visited {} = [cls] := visited_of_outer rfl rfl
  refine ⟨visited, rfl, by decide, ⟨tagDecorator 11, by simp [cls, decoratedClass], rfl, rfl⟩, ?_⟩
  rw [diagnostics_output, visited]
  rfl

end Program
end ComponentHoist

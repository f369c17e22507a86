import ComponentHoist.Proofs.Validation

/-!
# ComponentHoist.Proofs.Verdict — which rules a class meets, and what is reported of it

The checks look at one rule after the other and stop at the first one that is broken.

* `Class.Meets`: what each rule asks of a component class, apart from the checks.
* `Class.Broken`: a rule that is not met while all rules in front of it are.
* `Class.problemsAt_spec`: either all rules are met and nothing is wrong, or what is wrong are the breaches of the
  broken rule.
* `Class.validate_verdict`, `Class.validate_reports`: the verdict, and the reports that come with it.
-/

namespace ComponentHoist

/-! ### The rules -/

/-- The rules in the order in which they are checked. -/
def Rule.order : List Rule :=
  [.baseClass, .soleDecorator, .encapsulation, .staticOption, .tagMissing, .tagInvalid, .constructorArgs, .singleExport]

theorem Rule.mem_order (rule : Rule) : rule ∈ Rule.order := by
  cases rule <;> decide

namespace Class

/-- Whether the exported symbol is taken for the class: it is declared where the class stands, or the class has its name
inside the module, or its name outside if it has none inside and is not that of another module. -/
def IsItself (cls : Class) (s : ExportedSymbol) : Prop :=
  s.declaration = cls.head.span ∨
    ∃ name, cls.head.name = some name ∧
      (s.localName = some name ∨ (s.localName = none ∧ s.name = name ∧ s.kind ≠ .external))

theorem isExportedAs_iff (cls : Class) (s : ExportedSymbol) : cls.isExportedAs s = true ↔ cls.IsItself s := by
  unfold isExportedAs IsItself
  cases name : cls.head.name with
  | none => simp
  | some own =>
    cases inside : s.localName with
    | none => simp [and_comm, eq_comm (a := s.name)]
    | some other => simp

instance (cls : Class) (s : ExportedSymbol) : Decidable (cls.IsItself s) :=
  decidable_of_iff _ (cls.isExportedAs_iff s)

section Rules

variable (config : Config) (exports : List ExportedSymbol) (options : Options) (cls : Class) (index : Nat)

/-- What a rule asks of a component class with its decorator at `index`. -/
def Meets : Rule → Prop
  | .baseClass => cls.superclass = none
  | .soleDecorator => ∀ i, i ≠ index → cls.decorators[i]? = none
  | .encapsulation => ¬(options.isShadow = true ∧ options.isScoped = true)
  | .staticOption => options.invalid = []
  | .tagMissing => ∃ tag, options.trimmedTag? = some tag ∧ tag ≠ ""
  | .tagInvalid => ∀ tag, options.trimmedTag? = some tag → tag ≠ "" → Tag.IsValid tag
  | .constructorArgs =>
    -- What gives a type to the receiver stands among the parameters, but is none.
    ∀ head decorators key func, .method head decorators .constructor key func ∈ cls.members →
      ∀ parameter ∈ func.params, parameter.isThis = true
  | .singleExport => config.isTesting = true ∨ ∀ s ∈ exports, s.isTypeOnly = true ∨ cls.IsItself s

/-- Whether the rule is the first one in the order that the class does not meet. -/
structure Broken (rule : Rule) : Prop where
  first : ∃ before after, Rule.order = before ++ rule :: after ∧
    ∀ earlier ∈ before, Meets config exports options cls index earlier
  unmet : ¬Meets config exports options cls index rule

/-- The breaches of a rule, whether or not an earlier rule is broken. -/
def breaches (decorator : Decorator) : Rule → List Problem
  | .baseClass => cls.baseClassProblems
  | .soleDecorator => cls.decoratorProblems index
  | .encapsulation => options.encapsulationProblems decorator
  | .staticOption => options.staticProblems
  | .tagMissing => (options.tagProblems decorator).filter fun p => p.rule = .tagMissing
  | .tagInvalid => (options.tagProblems decorator).filter fun p => p.rule = .tagInvalid
  | .constructorArgs => cls.constructorProblems
  | .singleExport => cls.exportProblems config exports

end Rules

/-! ### What each check finds -/

variable {config : Config} {exports : List ExportedSymbol} {options : Options} {cls : Class} {index : Nat}
  {decorator : Decorator} {reports : Diagnostics} {rule : Rule}

theorem eraseIdx_eq_nil_iff_getElem? {α : Type} {l : List α} {n : Nat} :
    l.eraseIdx n = [] ↔ ∀ i, i ≠ n → l[i]? = none := by
  rw [List.eraseIdx_eq_nil_iff]
  constructor
  · rintro (rfl | ⟨one, rfl⟩) i other
    · simp
    · exact List.getElem?_eq_none (by omega)
  · intro h
    match l with
    | [] => exact .inl rfl
    | a :: rest =>
      have here : n = 0 := Decidable.byContradiction fun elsewhere => by
        simpa using h 0 (Ne.symm elsewhere)
      have alone := h 1 (by omega)
      rw [List.getElem?_eq_none_iff, List.length_cons] at alone
      exact .inr ⟨by rw [List.length_cons]; omega, here⟩

theorem encapsulationProblems_eq_nil_iff :
    options.encapsulationProblems decorator = [] ↔ ¬(options.isShadow = true ∧ options.isScoped = true) := by
  simp [Options.encapsulationProblems]

/-- The breaches of the rules on tags: there is no tag, or there is one that is no valid name. -/
theorem tagProblems_eq (options : Options) (decorator : Decorator) :
    (options.tagProblems decorator = [.tagMissing decorator.span] ∧
        ¬∃ tag, options.trimmedTag? = some tag ∧ tag ≠ "") ∨
      ∃ tag, options.trimmedTag? = some tag ∧ tag ≠ "" ∧
        ((options.tagProblems decorator = [] ∧ Tag.IsValid tag) ∨
          ((∃ violation span, options.tagProblems decorator = [.tagInvalid tag violation span]) ∧
            ¬Tag.IsValid tag)) := by
  unfold Options.tagProblems
  cases given : options.trimmedTag? with
  | none => simp
  | some tag =>
    by_cases blank : tag = ""
    · simp [blank]
    · refine .inr ⟨tag, rfl, blank, ?_⟩
      cases found : Tag.firstViolation tag with
      | none => exact .inl ⟨by simp [blank, found], found⟩
      | some violation => exact .inr ⟨⟨violation, _, by simp [blank, found]; rfl⟩, by simp [Tag.IsValid, found]⟩

theorem constructorParameter?_eq_none_iff {m : Member} :
    m.constructorParameter? = none ↔
      ∀ head decorators key func, m = .method head decorators .constructor key func →
        ∀ parameter ∈ func.params, parameter.isThis = true := by
  unfold Member.constructorParameter?
  split
  · next head decorators key func =>
    simp only [Option.map_eq_none_iff, List.find?_eq_none, Bool.not_eq_eq_eq_not, Bool.not_true, Bool.not_eq_false]
    constructor
    · rintro h _ _ _ _ ⟨⟩
      exact h
    · intro h
      exact h head decorators key func rfl
  · next other =>
    simp only [true_iff]
    rintro head decorators key func rfl
    exact absurd rfl (other head decorators key func)

/-- The check of a rule finds something exactly if the rule is not met. -/
theorem breaches_eq_nil_iff :
    breaches config exports options cls index decorator rule = [] ↔ Meets config exports options cls index rule := by
  cases rule with
  | baseClass => simp [breaches, Meets, baseClassProblems]
  | soleDecorator => rw [breaches, Meets, decoratorProblems_eq_nil_iff, eraseIdx_eq_nil_iff_getElem?]
  | encapsulation => exact encapsulationProblems_eq_nil_iff
  | staticOption => simp [breaches, Meets, Options.staticProblems]
  | tagMissing =>
    simp only [breaches, Meets]
    rcases tagProblems_eq options decorator with
      ⟨found, absent⟩ | ⟨tag, given, named, ⟨found, -⟩ | ⟨⟨_, _, found⟩, -⟩⟩
    · simp only [absent, found, iff_false]
      simp [Problem.rule]
    · simp [found, given, named]
    · simp [found, given, named, Problem.rule]
  | tagInvalid =>
    simp only [breaches, Meets]
    rcases tagProblems_eq options decorator with
      ⟨found, absent⟩ | ⟨tag, given, named, ⟨found, valid⟩ | ⟨⟨_, _, found⟩, invalid⟩⟩
    · have vacuous : ∀ tag, options.trimmedTag? = some tag → tag ≠ "" → Tag.IsValid tag :=
        fun tag given named => absurd ⟨tag, given, named⟩ absent
      simpa [found, Problem.rule] using vacuous
    · simp [found, given, valid]
    · simp [found, given, named, invalid, Problem.rule]
  | constructorArgs =>
    simp only [breaches, Meets, constructorProblems, constructorParameter?]
    simp only [Option.toList_eq_nil_iff, Option.map_eq_none_iff, List.findSome?_eq_none_iff,
      constructorParameter?_eq_none_iff]
    constructor
    · intro h head decorators key func hm
      exact h _ hm head decorators key func rfl
    · rintro h _ hm head decorators key func rfl
      exact h head decorators key func hm
  | singleExport => simp only [breaches, Meets, exportProblems_eq_nil_iff, isExportedAs_iff]

/-- The check of a rule finds breaches of that rule only. -/
theorem rule_of_mem_breaches {p : Problem} (h : p ∈ breaches config exports options cls index decorator rule) :
    p.rule = rule := by
  cases rule with
  | baseClass =>
    obtain ⟨e, -, rfl⟩ := Option.map_eq_some_iff.mp (Option.mem_toList.mp h)
    rfl
  | soleDecorator =>
    obtain ⟨d, -, rfl⟩ := Option.map_eq_some_iff.mp (Option.mem_toList.mp h)
    rfl
  | encapsulation =>
    simp only [breaches, Options.encapsulationProblems] at h
    split at h
    · obtain rfl := List.mem_singleton.mp h
      rfl
    · cases h
  | staticOption =>
    obtain ⟨option, -, rfl⟩ := List.mem_map.mp h
    rfl
  | tagMissing => simpa using (List.mem_filter.mp h).2
  | tagInvalid => simpa using (List.mem_filter.mp h).2
  | constructorArgs =>
    obtain ⟨span, -, rfl⟩ := Option.map_eq_some_iff.mp (Option.mem_toList.mp h)
    rfl
  | singleExport =>
    simp only [breaches, exportProblems] at h
    split at h
    · cases h
    · obtain ⟨s, -, rfl⟩ := List.mem_map.mp h
      rfl

theorem length_tagProblems_le : (options.tagProblems decorator).length ≤ 1 := by
  rcases tagProblems_eq options decorator with
    ⟨found, -⟩ | ⟨_, -, -, ⟨found, -⟩ | ⟨⟨_, _, found⟩, -⟩⟩
  all_goals simp [found]

/-- Options and exports are reported one by one, and all other faults once. -/
theorem length_breaches_le (option : rule ≠ .staticOption) (export_ : rule ≠ .singleExport) :
    (breaches config exports options cls index decorator rule).length ≤ 1 := by
  cases rule with
  | baseClass => exact Option.length_toList_le
  | soleDecorator => exact Option.length_toList_le
  | encapsulation =>
    simp only [breaches, Options.encapsulationProblems]
    split <;> simp
  | staticOption => exact absurd rfl option
  | tagMissing => exact Nat.le_trans (List.length_filter_le _ _) length_tagProblems_le
  | tagInvalid => exact Nat.le_trans (List.length_filter_le _ _) length_tagProblems_le
  | constructorArgs => exact Option.length_toList_le
  | singleExport => exact absurd rfl export_

theorem breaches_eq_singleton (option : rule ≠ .staticOption) (export_ : rule ≠ .singleExport)
    (nonempty : breaches config exports options cls index decorator rule ≠ []) :
    ∃ p, breaches config exports options cls index decorator rule = [p] :=
  List.length_eq_one_iff.mp (Nat.le_antisymm (length_breaches_le option export_) (List.length_pos_iff.mpr nonempty))

/-! ### The first broken rule -/

/-- The first list with something in it is that of the first entry to which one belongs. -/
theorem find?_nonempty_spec {α β : Type} (f : β → List α) (l : List β) :
    ((∀ b ∈ l, f b = []) ∧ ((l.map f).find? fun x => !x.isEmpty).getD [] = []) ∨
      ∃ before b after, l = before ++ b :: after ∧ (∀ a ∈ before, f a = []) ∧ f b ≠ [] ∧
        ((l.map f).find? fun x => !x.isEmpty).getD [] = f b := by
  rw [List.find?_map]
  cases found : l.find? ((fun x => !x.isEmpty) ∘ f) with
  | none => exact .inl ⟨by simpa using found, rfl⟩
  | some b =>
    obtain ⟨nonempty, before, after, split, passed⟩ := List.find?_eq_some_iff_append.mp found
    exact .inr ⟨before, b, after, split, by simpa using passed, by simpa using nonempty, rfl⟩

/-- What is wrong with a class are the breaches of the first rule that has any. -/
theorem problemsAt_eq_find? :
    cls.problemsAt config exports options index decorator =
      ((Rule.order.map (breaches config exports options cls index decorator)).find? fun problems =>
        !problems.isEmpty).getD [] := by
  let front := [cls.baseClassProblems, cls.decoratorProblems index, options.encapsulationProblems decorator,
    options.staticProblems]
  let back := [cls.constructorProblems, cls.exportProblems config exports]
  let tags := [(options.tagProblems decorator).filter fun p => p.rule = .tagMissing,
    (options.tagProblems decorator).filter fun p => p.rule = .tagInvalid]
  -- One check looks at both rules on tags, and it finds breaches of one of them only.
  have same : tags.find? (fun problems => !problems.isEmpty) =
      [options.tagProblems decorator].find? fun problems => !problems.isEmpty := by
    rcases tagProblems_eq options decorator with
      ⟨found, -⟩ | ⟨_, -, -, ⟨found, -⟩ | ⟨⟨_, _, found⟩, -⟩⟩ <;> simp [tags, found, Problem.rule]
  have checks : (front ++ ([options.tagProblems decorator] ++ back)).find? (fun problems => !problems.isEmpty) =
      (front ++ (tags ++ back)).find? fun problems => !problems.isEmpty := by
    simp only [List.find?_append, same]
  exact congrArg (Option.getD · []) checks

/-- Either a class meets all rules and nothing is wrong with it, or what is wrong are the breaches of the first rule
that it does not meet. -/
theorem problemsAt_spec (config : Config) (exports : List ExportedSymbol) (options : Options) (cls : Class) (index : Nat)
    (decorator : Decorator) :
    ((∀ rule, Meets config exports options cls index rule) ∧
        cls.problemsAt config exports options index decorator = []) ∨
      ∃ rule, Broken config exports options cls index rule ∧
        cls.problemsAt config exports options index decorator =
          breaches config exports options cls index decorator rule := by
  rw [problemsAt_eq_find?]
  rcases find?_nonempty_spec (breaches config exports options cls index decorator) Rule.order with
    ⟨clean, none⟩ | ⟨before, rule, after, split, passed, found, all⟩
  · exact .inl ⟨fun rule => breaches_eq_nil_iff.mp (clean rule rule.mem_order), none⟩
  · have earlier : ∀ r ∈ before, Meets config exports options cls index r :=
      fun r hr => breaches_eq_nil_iff.mp (passed r hr)
    exact .inr ⟨rule, ⟨⟨before, after, split, earlier⟩, fun met => found (breaches_eq_nil_iff.mpr met)⟩, all⟩

end Class

/-! ### Reports in a collector -/

/-- The report of a breach as it stands in the collector of a file. -/
def Problem.filed (decorator file : String) (p : Problem) : Diagnostic :=
  (p.report decorator).stamp file

@[simp] theorem Problem.code_filed (decorator file : String) (p : Problem) :
    (p.filed decorator file).code = p.rule.code := rfl

@[simp] theorem Problem.span_filed (decorator file : String) (p : Problem) : (p.filed decorator file).span = p.span :=
  rfl

@[simp] theorem Problem.message_filed (decorator file : String) (p : Problem) :
    (p.filed decorator file).message = p.message decorator := rfl

theorem Diagnostics.pushAll_report (reports : Diagnostics) (decorator : String) (problems : List Problem) :
    reports.pushAll (problems.map (Problem.report decorator)) =
      { reports with items := reports.items ++ problems.map (Problem.filed decorator reports.file) } := by
  rw [Diagnostics.mk.injEq]
  refine ⟨file_pushAll _ _, ?_⟩
  rw [items_pushAll, List.map_map]
  rfl

/-! ### The verdict -/

namespace Class

variable {config : Config} {exports : List ExportedSymbol} {options : Options} {cls : Class} {index : Nat}
  {decorator : Decorator} {reports : Diagnostics}

theorem validate_of_missing (absent : cls.decorators.length ≤ index) :
    cls.validate config exports options index reports = (false, reports) := by
  simp [validate, problems, List.getElem?_eq_none absent]

/-- Either a class meets all rules and is valid, and nothing is reported, or it is not, and the breaches of the first
rule that it does not meet are put behind the earlier reports.  There is at least one. -/
theorem validate_spec (config : Config) (exports : List ExportedSymbol) (options : Options) (reports : Diagnostics)
    (found : cls.decorators[index]? = some decorator) :
    ((∀ rule, Meets config exports options cls index rule) ∧
        cls.validate config exports options index reports = (true, reports)) ∨
      ∃ rule, Broken config exports options cls index rule ∧
        breaches config exports options cls index decorator rule ≠ [] ∧
        cls.validate config exports options index reports =
          (false, { reports with
            items := reports.items ++ (breaches config exports options cls index decorator rule).map
              (Problem.filed config.decoratorName reports.file) }) := by
  rcases problemsAt_spec config exports options cls index decorator with ⟨met, clean⟩ | ⟨rule, broken, wrong⟩
  · exact .inl ⟨met, by simp [validate, problems, found, clean]⟩
  · have nonempty : breaches config exports options cls index decorator rule ≠ [] :=
      fun none => broken.unmet (breaches_eq_nil_iff.mp none)
    refine .inr ⟨rule, broken, nonempty, ?_⟩
    simp [validate, problems, found, wrong, nonempty, Diagnostics.pushAll_report]

/-- A class is valid exactly if it meets all rules.  If it is not, then what is reported has the code of the first rule
that it does not meet.  Without a decorator at the place it is not valid either, but nothing is reported. -/
theorem validate_verdict (config : Config) (exports : List ExportedSymbol) (options : Options) (cls : Class)
    (index : Nat) (reports : Diagnostics) :
    let verdict := cls.validate config exports options index reports
    (index < cls.decorators.length →
        (verdict.1 = true ↔ ∀ rule, Meets config exports options cls index rule) ∧
          (verdict.1 = false →
            ∃ rule, Broken config exports options cls index rule ∧
              ∃ added, verdict.2.items = reports.items ++ added ∧ added ≠ [] ∧ ∀ d ∈ added, d.code = rule.code)) ∧
      (cls.decorators.length ≤ index → verdict = (false, reports)) := by
  intro verdict
  refine ⟨fun inRange => ?_, validate_of_missing⟩
  have found := List.getElem?_eq_getElem inRange
  rcases validate_spec config exports options reports found with
    ⟨met, passed⟩ | ⟨rule, broken, nonempty, refused⟩
  · have valid : verdict.1 = true := congrArg Prod.fst passed
    exact ⟨⟨fun _ => met, fun _ => valid⟩, fun invalid => by simp [valid] at invalid⟩
  · have invalid : verdict.1 = false := congrArg Prod.fst refused
    refine ⟨⟨fun valid => by simp [invalid] at valid, fun met => absurd (met rule) broken.unmet⟩, fun _ => ?_⟩
    refine ⟨rule, broken, _, congrArg (fun v => v.2.items) refused, by simpa using nonempty, fun d hd => ?_⟩
    obtain ⟨p, hp, rfl⟩ := List.mem_map.mp hd
    rw [Problem.code_filed, rule_of_mem_breaches hp]

/-- A component without members. -/
def bareComponent : Class where
  head := { span := ⟨0, 56⟩, name := some "MyComponent" }
  decorators := [⟨⟨0, 35⟩, .call ⟨1, 35⟩ (.ident ⟨1, 10⟩ "Component") []
    [.object ⟨11, 34⟩ [.property ⟨13, 32⟩ (.label (.bare "tag")) .plain (.string ⟨18, 32⟩ "my-component")]]⟩]
  generics := []
  superclass := none
  superArguments := []
  interfaces := []
  members := []

/-- Options that break three rules: on the encapsulation, on literals and on the tag. -/
def conflictingOptions : Options where
  shadow := some ⟨true, ⟨36, 40⟩⟩
  scope := some ⟨true, ⟨50, 54⟩⟩
  invalid := [⟨"styles", "a string", ⟨64, 67⟩⟩, ⟨"assetsDir", "a string", ⟨80, 83⟩⟩]

/-- Of three rules that are broken only the first one is reported, which is that on the encapsulation. -/
theorem validate_conflictingOptions :
    let verdict := bareComponent.validate { isTesting := true } [] conflictingOptions 0 ⟨"test.tsx", []⟩
    0 < bareComponent.decorators.length ∧ verdict.1 = false ∧
      verdict.2.items.map Diagnostic.code = [Rule.encapsulation.code] ∧
      ∃ rule, Broken { isTesting := true } [] conflictingOptions bareComponent 0 rule ∧
        ∃ added, verdict.2.items = [] ++ added ∧ added ≠ [] ∧ ∀ d ∈ added, d.code = rule.code :=
  ⟨by decide, by decide, by decide,
    ((validate_verdict { isTesting := true } [] conflictingOptions bareComponent 0 ⟨"test.tsx", []⟩).1
      (by decide)).2 (by decide)⟩

/-- The exports that are reported are those that are neither types nor the class. -/
theorem extraExports_eq :
    cls.extraExports exports = exports.filter fun s => ¬(s.isTypeOnly = true ∨ cls.IsItself s) := by
  refine List.filter_congr fun s _ => ?_
  cases h : cls.isExportedAs s <;> simp [← isExportedAs_iff, h]

/-- What a verdict adds to the reports stands behind the earlier ones, and there is nothing exactly if the class is
valid.  Otherwise all has one code.  There is one report, but of options one for each that is refused, and of exports
one for each that is neither a type nor the class, in their order and where they stand. -/
theorem validate_reports (config : Config) (exports : List ExportedSymbol) (options : Options) (cls : Class)
    (index : Nat) (reports : Diagnostics) (inRange : index < cls.decorators.length) :
    let verdict := cls.validate config exports options index reports
    ∃ added, verdict.2 = { reports with items := reports.items ++ added } ∧ (added = [] ↔ verdict.1 = true) ∧
      (verdict.1 = false →
        ∃ rule : Rule, (∀ d ∈ added, d.code = rule.code) ∧
          match rule with
          | .staticOption =>
            added.map (fun d => (d.span, d.message)) =
              options.invalid.map fun o => (o.span, (Problem.notStatic o).message config.decoratorName)
          | .singleExport =>
            added.map (fun d => (d.span, d.message)) =
              (exports.filter fun s => ¬(s.isTypeOnly = true ∨ cls.IsItself s)).map fun s =>
                (s.modifier.getD s.declaration, (Problem.extraExport s).message config.decoratorName)
          | _ => ∃ d, added = [d]) := by
  intro verdict
  have found := List.getElem?_eq_getElem inRange
  rcases validate_spec config exports options reports found with
    ⟨-, passed⟩ | ⟨rule, broken, nonempty, refused⟩
  · have valid : verdict.1 = true := congrArg Prod.fst passed
    refine ⟨[], ?_, by simp [valid], fun invalid => by simp [valid] at invalid⟩
    have same : verdict.2 = reports := congrArg Prod.snd passed
    simp [same]
  · have invalid : verdict.1 = false := congrArg Prod.fst refused
    refine ⟨_, congrArg Prod.snd refused, by simpa [invalid] using nonempty, fun _ => ⟨rule, fun d hd => ?_, ?_⟩⟩
    · obtain ⟨p, hp, rfl⟩ := List.mem_map.mp hd
      rw [Problem.code_filed, rule_of_mem_breaches hp]
    · cases rule with
      | staticOption => simp [breaches, Options.staticProblems, Problem.span]
      | singleExport =>
        have notTesting : config.isTesting ≠ true := fun testing => broken.unmet (.inl testing)
        simp only [breaches, exportProblems, notTesting, extraExports_eq]
        simp [Problem.span, ExportedSymbol.reportSpan]
      | _ =>
        obtain ⟨p, alone⟩ := breaches_eq_singleton (by decide) (by decide) nonempty
        exact ⟨_, by rw [alone]; rfl⟩

/-- The exports of a module with a function, a constant and a type beside the component. -/
def helperExports : List ExportedSymbol :=
  [⟨"MyComponent", some "MyComponent", .cls, false, ⟨0, 10⟩, none⟩,
    ⟨"helper", some "helper", .function, false, ⟨20, 30⟩, none⟩,
    ⟨"VERSION", some "VERSION", .variable, false, ⟨40, 60⟩, some ⟨40, 46⟩⟩,
    ⟨"Props", some "Props", .imported, true, ⟨70, 80⟩, none⟩]

/-- The reports on a file in which another class has a base class. -/
def earlierReports : Diagnostics :=
  ⟨"test.tsx", [(Problem.baseClass ⟨90, 101⟩).filed "Component" "test.tsx"]⟩

/-- The function and the constant are reported behind what was reported before, the constant at its keyword. -/
theorem validate_helperExports :
    let verdict := bareComponent.validate {} helperExports { tag := some ⟨"my-component", ⟨18, 32⟩⟩ } 0 earlierReports
    0 < bareComponent.decorators.length ∧ verdict.1 = false ∧
      ∃ added, verdict.2 = { earlierReports with items := earlierReports.items ++ added } ∧
        added.map Diagnostic.span = [⟨20, 30⟩, ⟨40, 46⟩] := by
  intro verdict
  obtain ⟨added, appended, -, -⟩ := validate_reports {} helperExports { tag := some ⟨"my-component", ⟨18, 32⟩⟩ }
    bareComponent 0 earlierReports (by decide)
  have spans : verdict.2.items.map Diagnostic.span = [⟨90, 101⟩, ⟨20, 30⟩, ⟨40, 46⟩] := by decide
  refine ⟨by decide, by decide, added, appended, ?_⟩
  rw [appended] at spans
  exact List.tail_eq_of_cons_eq spans

end Class
end ComponentHoist

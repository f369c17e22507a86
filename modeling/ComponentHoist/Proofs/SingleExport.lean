import ComponentHoist.Proofs.Exports
import ComponentHoist.Proofs.Validation
import ComponentHoist.Syntax.Visit

/-!
# ComponentHoist.Proofs.SingleExport — what the check of exports lets through

The module of a component should export nothing but the component, apart from types.  The check goes by names, so it
also lets through what only has the name of the component, such as a function inside which the component is declared.

* `Class.isIntruder`: an export that can not be the class.
* `Class.validate_namesakes`: the intruders that are let through are those with the name of the class, and they do not
  count in the verdict.
-/

namespace ComponentHoist

namespace Class

/-- Whether the exported symbol is a class, a function or an enumeration that stands elsewhere than the class. -/
def isIntruder (cls : Class) (s : ExportedSymbol) : Bool :=
  !s.isTypeOnly && s.kind.isConstruct && s.declaration != cls.head.span

/-- Whether the class has the name that the exported symbol has in the module, or outside if it has none inside. -/
def isNamesake (cls : Class) (s : ExportedSymbol) : Bool :=
  cls.head.name == some (s.localName.getD s.name)

variable {config : Config} {exports : List ExportedSymbol} {options : Options} {cls : Class} {index : Nat}
  {reports : Diagnostics} {s : ExportedSymbol}

/-- The check takes an intruder for the class if it has the name of the class. -/
theorem isExportedAs_eq_isNamesake (h : cls.isIntruder s = true) : cls.isExportedAs s = cls.isNamesake s := by
  simp only [isIntruder, Bool.and_eq_true, bne_iff_ne] at h
  have kind : (s.kind != .external) = true := bne_iff_ne.mpr fun external => by
    simp [external, SymbolKind.isConstruct] at h
  have elsewhere : (s.declaration == cls.head.span) = false := beq_eq_false_iff_ne.mpr h.2
  unfold isExportedAs isNamesake
  cases cls.head.name with
  | none => simp [elsewhere]
  | some name =>
    cases s.localName with
    | none => simp [kind, elsewhere]
    | some inside => simp [elsewhere, BEq.comm]

theorem extraExports_filter (hidden : ExportedSymbol → Bool)
    (h : ∀ s ∈ exports, hidden s = true → cls.isExportedAs s = true) :
    cls.extraExports (exports.filter fun s => !hidden s) = cls.extraExports exports := by
  rw [extraExports, List.filter_filter]
  refine List.filter_congr fun s hs => ?_
  cases seen : hidden s with
  | false => simp
  | true => simp [h s hs seen]

/-- An intruder in the module of a valid component has the name of the component. -/
theorem isNamesake_of_validate (testing : config.isTesting = false)
    (valid : (cls.validate config exports options index reports).1 = true) (hs : s ∈ exports)
    (h : cls.isIntruder s = true) : cls.isNamesake s = true := by
  obtain ⟨_, _, clean⟩ := validate_eq_true_iff.mp valid
  have passed := problemsAt_eq_nil_iff.mp clean
  have exported := (exportProblems_eq_nil_iff.mp passed.2.2.2.2.2.2).resolve_left (by simp [testing])
  rcases exported s hs with type | same
  · simp [isIntruder, type] at h
  · rw [← isExportedAs_eq_isNamesake h]
    exact same

/-- What the check of exports lets through.  A valid component that is not under test has its module to itself exactly
if no intruder has its name.  An intruder that does is a top-level declaration of that name, and the verdict is the
same as without it. -/
theorem validate_namesakes (p : Program) (cls : Class) (config : Config) (options : Options) (index : Nat)
    (reports : Diagnostics) (testing : config.isTesting = false) :
    let verdict := cls.validate config p.exports options index reports
    let hidden (s : ExportedSymbol) : Bool := cls.isIntruder s && cls.isNamesake s
    ((verdict.1 = true → ∀ s ∈ p.exports, cls.isIntruder s = false) ↔
        (verdict.1 = true → ∀ s ∈ p.exports, hidden s = false)) ∧
      (∀ s ∈ p.exports, hidden s = true → s.IsDeclaredIn p.locals ∨ cls.head.name = some defaultExportName) ∧
      verdict = cls.validate config (p.exports.filter fun s => !hidden s) options index reports := by
  intro verdict hidden
  refine ⟨⟨fun clean valid s hs => ?_, fun clean valid s hs => ?_⟩, fun s hs h => ?_, ?_⟩
  · simp [hidden, clean valid s hs]
  · cases intruder : cls.isIntruder s with
    | false => rfl
    | true =>
      have seen := clean valid s hs
      simp [hidden, intruder, isNamesake_of_validate testing valid hs intruder] at seen
  · obtain ⟨intruder, namesake⟩ := Bool.and_eq_true_iff.mp h
    have kind : s.kind.isConstruct = true := by
      simp only [isIntruder, Bool.and_eq_true] at intruder
      exact intruder.1.2
    rcases Program.isDeclaredIn_of_export hs kind with declared | ⟨unnamed, default⟩
    · exact .inl declared
    · refine .inr ?_
      simpa [isNamesake, unnamed, default] using namesake
  · refine validate_congr (extraExports_filter hidden fun s _ h => ?_).symm
    obtain ⟨intruder, namesake⟩ := Bool.and_eq_true_iff.mp h
    rw [isExportedAs_eq_isNamesake intruder]
    exact namesake

end Class

/-! ### A component inside its namesake -/

/-- A component that is declared inside an exported function of the same name. -/
def insideNamesake : Class where
  head := { span := ⟨26, 70⟩, name := some "MyCmp" }
  decorators := [⟨⟨26, 55⟩, .call ⟨27, 55⟩ (.ident ⟨27, 36⟩ "Component") []
    [.object ⟨37, 54⟩ [.property ⟨39, 52⟩ (.label (.bare "tag")) .plain (.string ⟨44, 52⟩ "my-cmp")]]⟩]
  generics := []
  superclass := none
  superArguments := []
  interfaces := []
  members := []

/-- The module that exports the function. -/
def namesakeModule : Program where
  statements := [.exportDecl ⟨0, 72⟩ false (.function
    { head := { span := ⟨7, 72⟩, name := some "MyCmp" }
      generics := []
      params := []
      result := none
      body := .block [.decl (.classDecl insideNamesake)] })]

/-- The options of the component. -/
def insideNamesakeOptions : Options where
  tag := some ⟨"my-cmp", ⟨44, 52⟩⟩
  span := ⟨37, 54⟩

/-- The verdict on a component inside its namesake is that on a module without exports. -/
theorem Class.validate_insideNamesake :
    insideNamesake.validate {} namesakeModule.exports insideNamesakeOptions 0 ⟨"test.tsx", []⟩ =
      insideNamesake.validate {} [] insideNamesakeOptions 0 ⟨"test.tsx", []⟩ :=
  (validate_namesakes namesakeModule insideNamesake {} insideNamesakeOptions 0 ⟨"test.tsx", []⟩ rfl).2.2

/-- It is valid, although its module exports the function. -/
theorem Class.insideNamesake_valid :
    insideNamesake ∈ namesakeModule.classes ∧
      (insideNamesake.decorators.map Decorator.options?) = [some insideNamesakeOptions] ∧
      (insideNamesake.validate {} namesakeModule.exports insideNamesakeOptions 0 ⟨"test.tsx", []⟩).1 = true ∧
      ∃ s ∈ namesakeModule.exports, insideNamesake.isIntruder s = true := by
  have classes : namesakeModule.classes = [insideNamesake] := rfl
  refine ⟨by simp [classes], by decide, by decide, by decide⟩

end ComponentHoist

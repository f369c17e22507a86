import ComponentHoist.Validation

/-!
# ComponentHoist.Proofs.Validation — when a class passes the checks

A class passes if every single check passes, whatever their order.
-/

namespace ComponentHoist

/-- The first list with something in it is empty if all of them are. -/
theorem find?_nonempty_getD_eq_nil_iff {α : Type} (lists : List (List α)) :
    (lists.find? fun l => !l.isEmpty).getD [] = [] ↔ ∀ l ∈ lists, l = [] := by
  induction lists with
  | nil => simp
  | cons l lists ih =>
    cases l with
    | nil => simpa using ih
    | cons a l => simp

namespace Class

variable {config : Config} {exports : List ExportedSymbol} {options : Options} {cls : Class} {index : Nat}
  {decorator : Decorator}

theorem problemsAt_eq_nil_iff :
    cls.problemsAt config exports options index decorator = [] ↔
      cls.baseClassProblems = [] ∧ cls.decoratorProblems index = [] ∧ options.encapsulationProblems decorator = [] ∧
        options.staticProblems = [] ∧ options.tagProblems decorator = [] ∧ cls.constructorProblems = [] ∧
        cls.exportProblems config exports = [] := by
  simp [problemsAt, find?_nonempty_getD_eq_nil_iff]

theorem decoratorProblems_eq_nil_iff : cls.decoratorProblems index = [] ↔ cls.decorators.eraseIdx index = [] := by
  simp [decoratorProblems, otherDecorator?]

theorem exportProblems_eq_nil_iff :
    cls.exportProblems config exports = [] ↔
      config.isTesting = true ∨ ∀ s ∈ exports, s.isTypeOnly = true ∨ cls.isExportedAs s = true := by
  by_cases testing : config.isTesting = true
  · simp [exportProblems, testing]
  · simp [exportProblems, testing, extraExports, Decidable.or_iff_not_imp_left]

/-- A class is valid if its decorator is there and nothing is wrong. -/
theorem validate_eq_true_iff {reports : Diagnostics} :
    (cls.validate config exports options index reports).1 = true ↔
      ∃ decorator, cls.decorators[index]? = some decorator ∧
        cls.problemsAt config exports options index decorator = [] := by
  cases found : cls.decorators[index]? with
  | none => simp [validate, problems, found]
  | some decorator => simp [validate, problems, found]

/-- Of the exports only those beside the class count. -/
theorem validate_congr {reports : Diagnostics} {exports' : List ExportedSymbol}
    (h : cls.extraExports exports = cls.extraExports exports') :
    cls.validate config exports options index reports = cls.validate config exports' options index reports := by
  have same : cls.problemsAt config exports options index = cls.problemsAt config exports' options index := by
    funext decorator
    simp only [problemsAt, exportProblems, h]
  rw [validate, validate, problems, problems, same]

end Class

end ComponentHoist

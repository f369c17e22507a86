import ComponentHoist.Hoisting
import ComponentHoist.Proofs.Verdict

/-!
# ComponentHoist.Proofs.Hoisting — hoisting a decorator does all or nothing

A class under change, the reports and the members collected so far go through three steps, each of which can be the
last one: the options are read, the class is checked, and the members are put together.

* `Draft.hoist_eq`: hoisting as these steps.
* `Draft.hoist_allOrNothing`: what is left of the draft, whatever it held before.
-/

namespace ComponentHoist

variable {config : Config} {exports : List ExportedSymbol} {cls : Class} {index : Nat}

/-- The options of the decorator at `index`, if there is one and it is given any. -/
def Class.optionsAt? (cls : Class) (index : Nat) : Option Options :=
  cls.decorators[index]?.bind Decorator.options?

theorem Class.hoisting_of_no_options (h : cls.optionsAt? index = none) :
    cls.hoisting config exports index = .skipped := by
  cases found : cls.decorators[index]? with
  | none => simp [hoisting, found]
  | some decorator =>
    have bare : decorator.options? = none := by simpa [optionsAt?, found] using h
    simp [hoisting, found, bare]

theorem Class.hoisting_of_options {decorator : Decorator} {options : Options}
    (found : cls.decorators[index]? = some decorator) (given : decorator.options? = some options) :
    cls.hoisting config exports index =
      if (cls.problemsAt config exports options index decorator).isEmpty then
        .hoisted (Declaration.ofOptions cls.head.name options)
      else .refused (cls.problemsAt config exports options index decorator) := by
  simp only [hoisting, found, given]
  cases cls.problemsAt config exports options index decorator <;> rfl

/-- A decorator is hoisted by reading its options, checking the class and putting the members together.  Without options
there is nothing to do, and a class that is not valid stays as it is. -/
theorem Draft.hoist_eq (draft : Draft) :
    draft.hoist config exports index =
      match draft.cls.optionsAt? index with
      | none => (none, draft)
      | some options =>
        let (valid, reports) := draft.cls.validate config exports options index draft.reports
        if valid then
          let declaration := Declaration.ofOptions draft.cls.head.name options
          (some declaration,
            { cls := draft.cls.removeDecorator index
              reports
              members := draft.members ++ declaration.members })
        else (none, { draft with reports }) := by
  cases given : draft.cls.optionsAt? index with
  | none => simp [hoist, Class.hoisting_of_no_options given]
  | some options =>
    obtain ⟨decorator, found, decoded⟩ := Option.bind_eq_some_iff.mp given
    have checked : draft.cls.problems config exports options index =
        some (draft.cls.problemsAt config exports options index decorator) := by simp [Class.problems, found]
    simp only [hoist, Class.hoisting_of_options found decoded, Class.validate, checked]
    cases draft.cls.problemsAt config exports options index decorator <;> simp

/-- If hoisting gives no declaration, then the class and the members are as before, and something is reported behind the
earlier reports unless there are no options to read, and then nothing is.  If it gives a declaration, then nothing is
reported, the members of the declaration are put behind the earlier ones, and the class has lost the decorator. -/
theorem Draft.hoist_allOrNothing (config : Config) (exports : List ExportedSymbol) (index : Nat) (draft : Draft) :
    match draft.hoist config exports index with
    | (none, after) =>
      after.cls = draft.cls ∧ after.members = draft.members ∧
        if (draft.cls.decorators[index]?.bind Decorator.options?).isNone then after.reports = draft.reports
        else
          ∃ added, added ≠ [] ∧ after.reports = { draft.reports with items := draft.reports.items ++ added }
    | (some declaration, after) =>
      after.reports = draft.reports ∧ after.members = draft.members ++ declaration.members ∧
        ∃ front decorator back, draft.cls.decorators = front ++ decorator :: back ∧ front.length = index ∧
          after.cls = { draft.cls with decorators := front ++ back } := by
  rw [Draft.hoist_eq]
  cases given : draft.cls.optionsAt? index with
  | none =>
    have missing : (draft.cls.decorators[index]?.bind Decorator.options?).isNone = true :=
      Option.isNone_iff_eq_none.mpr given
    simp [missing]
  | some options =>
    have present : (draft.cls.decorators[index]?.bind Decorator.options?).isNone = false := by
      rw [← Class.optionsAt?, given]
      rfl
    obtain ⟨decorator, found, -⟩ := Option.bind_eq_some_iff.mp given
    rcases Class.validate_spec config exports options draft.reports found with
      ⟨-, passed⟩ | ⟨rule, -, nonempty, refused⟩
    · obtain ⟨inRange, rfl⟩ := List.getElem?_eq_some_iff.mp found
      have split : draft.cls.decorators =
          draft.cls.decorators.take index ++ draft.cls.decorators[index] :: draft.cls.decorators.drop (index + 1) := by
        rw [List.getElem_cons_drop, List.take_append_drop]
      simp only [passed]
      refine ⟨rfl, rfl, _, _, _, split, ?_, ?_⟩
      · rw [List.length_take]
        omega
      · rw [Class.removeDecorator, List.eraseIdx_eq_take_drop_succ]
    · simp only [refused, present]
      exact ⟨rfl, rfl, _, by simpa using nonempty, rfl⟩

end ComponentHoist

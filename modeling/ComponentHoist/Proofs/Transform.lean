import ComponentHoist.Hoisting
import ComponentHoist.Proofs.Validation

/-!
# ComponentHoist.Proofs.Transform — what becomes of one class

* `Class.outcome`: what comes of the component decorator of a class, as a function of the class.
* `Class.transform_run`: the step on a class, as the decorators that it keeps, the members that it adds and the entry
  in the ledger.
-/

namespace ComponentHoist

variable {config : Config} {exports : List ExportedSymbol} {cls : Class}

/-! ### Stripping -/

theorem Decorator.isStripped_eq {names : List String} {keep : String} (d : Decorator) :
    d.isStripped names keep = d.name?.any fun name => name ∈ names ∧ name ≠ keep := by
  unfold isStripped
  cases d.name? with
  | none => rfl
  | some name => simp [and_comm]

/-- The component decorator is not stripped, also if its name is listed. -/
theorem Config.strips_of_isComponentDecorator {d : Decorator} (h : config.isComponentDecorator d = true) :
    config.strips d = false := by
  have name : d.name? = some config.decoratorName := by simpa [Config.isComponentDecorator] using h
  simp [Config.strips, Decorator.isStripped, name]

namespace Class

theorem componentIndex?_eq_none_iff :
    cls.componentIndex? config = none ↔ ∀ d ∈ cls.decorators, config.isComponentDecorator d = false := by
  simp [componentIndex?]

/-- Stripping takes no component decorator away. -/
theorem componentIndex?_strip :
    (cls.strip config.decoratorsToRemove config.decoratorName).componentIndex? config = none ↔
      cls.componentIndex? config = none := by
  rw [componentIndex?_eq_none_iff, componentIndex?_eq_none_iff]
  constructor
  · intro h d hd
    cases component : config.isComponentDecorator d with
    | false => rfl
    | true =>
      have kept : d ∈ (cls.strip config.decoratorsToRemove config.decoratorName).decorators := by
        have := Config.strips_of_isComponentDecorator component
        exact List.mem_filter.mpr ⟨hd, by simpa [Config.strips] using this⟩
      rw [h d kept] at component
      cases component
  · intro h d hd
    exact h d (List.mem_filter.mp hd).1

/-- A hoisted class has no decorator beside the one that is hoisted. -/
theorem removeDecorator_of_hoisting {index : Nat} {declaration : Declaration}
    (h : cls.hoisting config exports index = .hoisted declaration) :
    (cls.removeDecorator index).decorators = [] := by
  unfold hoisting at h
  split at h
  · cases h
  · split at h
    · cases h
    · split at h
      · next passed => exact decoratorProblems_eq_nil_iff.mp (problemsAt_eq_nil_iff.mp passed).2.1
      · cases h

end Class

/-! ### Hoisting one decorator -/

theorem Hoisting.declaration?_eq_some_iff {hoisting : Hoisting} {declaration : Declaration} :
    hoisting.declaration? = some declaration ↔ hoisting = .hoisted declaration := by
  cases hoisting <;> simp [declaration?]

/-- A decorator that is not hoisted stays, and what is wrong is reported. -/
theorem Draft.hoist_of_not_hoisted (draft : Draft) {index : Nat} {hoisting : Hoisting}
    (h : draft.cls.hoisting config exports index = hoisting) (h' : hoisting.declaration? = none) :
    draft.hoist config exports index =
      (none, { draft with
        reports := draft.reports.pushAll (hoisting.problems.map (Problem.report config.decoratorName)) }) := by
  cases hoisting with
  | skipped => simp [hoist, h, Hoisting.problems]
  | refused problems => simp [hoist, h, Hoisting.problems]
  | hoisted declaration => cases h'

namespace Class

/-! ### The step on a class -/

/-- What comes of the component decorator of a class, if it has one. -/
def outcome (config : Config) (exports : List ExportedSymbol) (cls : Class) : Option Hoisting :=
  let stripped := cls.strip config.decoratorsToRemove config.decoratorName
  (stripped.componentIndex? config).map (stripped.hoisting config exports)

/-- The declaration of a class that is hoisted. -/
def hoisted? (config : Config) (exports : List ExportedSymbol) (cls : Class) : Option Declaration :=
  (cls.outcome config exports).bind Hoisting.declaration?

/-- Whether a class keeps a decorator: a component that is hoisted keeps none, and any other class with a component
decorator those that are not stripped. -/
def keeps (config : Config) (exports : List ExportedSymbol) (cls : Class) (d : Decorator) : Bool :=
  match cls.outcome config exports with
  | none => true
  | some (.hoisted _) => false
  | some _ => !config.strips d

/-- The members that a class gains. -/
def gains (config : Config) (exports : List ExportedSymbol) (cls : Class) : List Member :=
  ((cls.hoisted? config exports).elim [] Declaration.members).map StaticMember.toMember

/-- The class that comes of a class by itself. -/
def settled (config : Config) (exports : List ExportedSymbol) (cls : Class) : Class :=
  { cls with
    decorators := cls.decorators.filter (cls.keeps config exports)
    members := cls.members ++ cls.gains config exports }

end Class

/-- The ledger with what comes of the component decorator of one more class. -/
def Ledger.add (config : Config) (ledger : Ledger) (outcome : Option Hoisting) : Ledger where
  reports := ledger.reports.pushAll ((outcome.elim [] Hoisting.problems).map (Problem.report config.decoratorName))
  components := ledger.components ++ (outcome.bind Hoisting.declaration?).toList

@[simp] theorem Ledger.add_none (ledger : Ledger) : ledger.add config none = ledger := by
  simp [Ledger.add]

namespace Class

theorem settled_of_outcome_none (h : cls.outcome config exports = none) : cls.settled config exports = cls := by
  have kept : cls.keeps config exports = fun _ => true := by
    funext d
    simp [keeps, h]
  cases cls
  simp [settled, gains, hoisted?, kept, h]

/-- A class with a component decorator that is not hoisted is stripped. -/
theorem settled_of_not_hoisted {hoisting : Hoisting} (h : cls.outcome config exports = some hoisting)
    (h' : hoisting.declaration? = none) :
    cls.settled config exports = cls.strip config.decoratorsToRemove config.decoratorName := by
  have kept : cls.keeps config exports = fun d => !config.strips d := by
    funext d
    cases hoisting with
    | hoisted declaration => cases h'
    | skipped => simp [keeps, h]
    | refused problems => simp [keeps, h]
  simp [settled, gains, hoisted?, h, h', kept, strip, Config.strips]

/-- A hoisted class keeps no decorator and gains the members of the declaration. -/
theorem settled_of_hoisted {declaration : Declaration} (h : cls.outcome config exports = some (.hoisted declaration)) :
    cls.settled config exports =
      { cls with decorators := [], members := cls.members ++ declaration.members.map StaticMember.toMember } := by
  have kept : cls.keeps config exports = fun _ => false := by
    funext d
    simp [keeps, h]
  simp [settled, gains, hoisted?, h, Hoisting.declaration?, kept]

theorem transform_of_outcome_none (h : cls.outcome config exports = none) (ledger : Ledger) :
    (cls.transform config exports).run ledger = (cls, ledger) := by
  have first : cls.componentIndex? config = none := componentIndex?_strip.mp (Option.map_eq_none_iff.mp h)
  simp [transform, first]
  rfl

theorem transform_of_outcome {hoisting : Hoisting} (h : cls.outcome config exports = some hoisting) (ledger : Ledger) :
    (cls.transform config exports).run ledger = (cls.settled config exports, ledger.add config (some hoisting)) := by
  obtain ⟨index, second, found⟩ := Option.map_eq_some_iff.mp h
  obtain ⟨_, first⟩ := Option.ne_none_iff_exists'.mp fun none => by
    rw [componentIndex?_strip.mpr none] at second
    cases second
  cases declared : hoisting.declaration? with
  | none =>
    let draft : Draft := ⟨cls.strip config.decoratorsToRemove config.decoratorName, ledger.reports, []⟩
    have reported := draft.hoist_of_not_hoisted found declared
    rw [settled_of_not_hoisted h declared]
    simp [transform, first, second, draft, reported, Ledger.add, declared]
    rfl
  | some declaration =>
    obtain rfl := Hoisting.declaration?_eq_some_iff.mp declared
    have bare := removeDecorator_of_hoisting found
    rw [settled_of_hoisted h]
    simp [transform, first, second, Draft.hoist, found, Ledger.add, Hoisting.problems, Hoisting.declaration?, lower,
      bare]
    rfl

/-- What the step on a class does, as what becomes of the class and what is added to the ledger. -/
theorem transform_run (ledger : Ledger) :
    (cls.transform config exports).run ledger =
      (cls.settled config exports, ledger.add config (cls.outcome config exports)) := by
  cases outcome : cls.outcome config exports with
  | none => rw [transform_of_outcome_none outcome, settled_of_outcome_none outcome, Ledger.add_none]
  | some hoisting => exact transform_of_outcome outcome ledger

end Class

/-! ### The three things that can become of a class -/

section Fate

variable (config : Config) (cls : Class) (before : Ledger) (result : Class × Ledger)

/-- A class without a component decorator stays as it is, and nothing is reported. -/
structure Untouched : Prop where
  decorator : ¬∃ d ∈ cls.decorators, d.name? = some config.decoratorName
  node : result.1 = cls
  ledger : result.2 = before

/-- A class with a component decorator that is not hoisted loses the decorators that are to be removed and nothing
else.  No component decorator is among them. -/
structure OnlyStripped : Prop where
  decorator : ∃ d ∈ cls.decorators, d.name? = some config.decoratorName
  components : result.2.components = before.components
  node : result.1 =
    { cls with
      decorators := cls.decorators.filter fun d =>
        !d.name?.any fun name => name ∈ config.decoratorsToRemove ∧ name ≠ config.decoratorName }
  keeps : (result.1.decorators.filter fun d => d.name? = some config.decoratorName) =
    cls.decorators.filter fun d => d.name? = some config.decoratorName

/-- A hoisted class loses all decorators, and has a static property for each static member of its declaration behind
the members of its own. -/
structure Lowered (declaration : Declaration) : Prop where
  decorator : ∃ d ∈ cls.decorators, d.name? = some config.decoratorName
  ledger : result.2 = { before with components := before.components ++ [declaration] }
  node : result.1 =
    { cls with
      decorators := []
      members := cls.members ++ declaration.members.map fun m =>
        .property { span := .synthesized, isStatic := true } [] (.label (.bare m.name)) none (some m.value.toExpr) }

variable {config cls before result}

theorem OnlyStripped.not_lowered (h : OnlyStripped config cls before result) :
    ¬∃ declaration, Lowered config cls before result declaration := by
  rintro ⟨declaration, lowered⟩
  have grown : result.2.components = before.components ++ [declaration] := by rw [lowered.ledger]
  rw [h.components] at grown
  simp at grown

end Fate

theorem Class.outcome_eq_none_iff :
    cls.outcome config exports = none ↔ ¬∃ d ∈ cls.decorators, d.name? = some config.decoratorName := by
  rw [outcome, Option.map_eq_none_iff, componentIndex?_strip, componentIndex?_eq_none_iff]
  simp [Config.isComponentDecorator]

/-- Stripping a class keeps its component decorators. -/
theorem Class.filter_decorators_strip :
    ((cls.strip config.decoratorsToRemove config.decoratorName).decorators.filter fun d =>
        d.name? = some config.decoratorName) =
      cls.decorators.filter fun d => d.name? = some config.decoratorName := by
  rw [strip, List.filter_filter]
  refine List.filter_congr fun d _ => ?_
  by_cases h : d.name? = some config.decoratorName
  · simp [h, Decorator.isStripped]
  · simp [h]

theorem Class.onlyStripped {hoisting : Hoisting} (h : cls.outcome config exports = some hoisting)
    (h' : hoisting.declaration? = none) (ledger : Ledger) :
    OnlyStripped config cls ledger ((cls.transform config exports).run ledger) := by
  have component : cls.outcome config exports ≠ none := by simp [h]
  rw [transform_run, settled_of_not_hoisted h h', h]
  refine ⟨by simpa [outcome_eq_none_iff] using component, by simp [Ledger.add, h'], ?_, filter_decorators_strip⟩
  simp only [strip, Decorator.isStripped_eq]

theorem Class.lowered {declaration : Declaration} (h : cls.outcome config exports = some (.hoisted declaration))
    (ledger : Ledger) :
    Lowered config cls ledger ((cls.transform config exports).run ledger) declaration := by
  have component : cls.outcome config exports ≠ none := by simp [h]
  rw [transform_run, settled_of_hoisted h, h]
  exact ⟨by simpa [outcome_eq_none_iff] using component,
    by simp [Ledger.add, Hoisting.problems, Hoisting.declaration?], rfl⟩

/-- Exactly one of the three things becomes of a class. -/
theorem Class.transform_fate (config : Config) (exports : List ExportedSymbol) (cls : Class) (ledger : Ledger) :
    let result := (cls.transform config exports).run ledger
    let untouched := Untouched config cls ledger result
    let stripped := OnlyStripped config cls ledger result
    let lowered := ∃ declaration, Lowered config cls ledger result declaration
    (untouched ∧ ¬stripped ∧ ¬lowered) ∨ (¬untouched ∧ stripped ∧ ¬lowered) ∨
      (¬untouched ∧ ¬stripped ∧ lowered) := by
  intro result untouched stripped lowered
  cases outcome : cls.outcome config exports with
  | none =>
    have bare := outcome_eq_none_iff.mp outcome
    have same : result = (cls, ledger) := transform_of_outcome_none outcome ledger
    exact .inl ⟨⟨bare, by rw [same], by rw [same]⟩, fun h => bare h.decorator, fun ⟨_, h⟩ => bare h.decorator⟩
  | some hoisting =>
    have component : ¬untouched := fun h => by
      rw [outcome_eq_none_iff.mpr h.decorator] at outcome
      cases outcome
    cases found : hoisting.declaration? with
    | none =>
      have h : stripped := onlyStripped outcome found ledger
      exact .inr (.inl ⟨component, h, h.not_lowered⟩)
    | some declaration =>
      obtain rfl := Hoisting.declaration?_eq_some_iff.mp found
      have h : lowered := ⟨declaration, Class.lowered outcome ledger⟩
      exact .inr (.inr ⟨component, fun h' => h'.not_lowered h, h⟩)

end ComponentHoist

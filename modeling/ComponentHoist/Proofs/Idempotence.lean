import ComponentHoist.Proofs.Classwise
import ComponentHoist.Proofs.Fusion
import ComponentHoist.Proofs.Surface

/-!
# ComponentHoist.Proofs.Idempotence — a second pass

A second pass over the module that the first one has left changes nothing and hoists nothing, and it reports what the
first one has reported.

* `Class.outcome_congr`: what comes of a class depends on what the checks see of it alone.
* `Class.outcome_rewritten`: a class that was refused is refused again for the same reasons, and one that was hoisted is
  no component any more.
* `Class.rewritten_rewritten`, `Class.reached_rewritten`: a second pass leaves a class as it is, and reaches the classes
  that the first one has reached.
* `Program.transform_idempotent`: the same for a module, with the output.
-/

namespace ComponentHoist

variable {config : Config} {exports : List ExportedSymbol}

/-! ### What comes of a class depends on its surface -/

section Surface

variable {c d : Class}

theorem Decorator.isStripped_congr {names : List String} {keep : String} {a b : Decorator} (h : a.name? = b.name?) :
    a.isStripped names keep = b.isStripped names keep := by
  simp only [isStripped, h]

theorem Class.surface_strip (names : List String) (keep : String) (c : Class) :
    (c.strip names keep).surface =
      { c.surface with
        decorators := c.surface.decorators.filter fun s =>
          !(s.2.1.any fun name => name ∈ names ∧ name ≠ keep) } := by
  simp [surface, strip, Class.constructorParameter?, List.filter_map, Function.comp_def, Decorator.surface,
    Decorator.isStripped_eq]

theorem Class.componentIndex?_eq (c : Class) :
    c.componentIndex? config = c.surface.decorators.findIdx? fun s => s.2.1 == some config.decoratorName := by
  simp only [componentIndex?, surface, List.findIdx?_map]
  rfl

theorem Class.problemsAt_congr {options : Options} {index : Nat} {a b : Decorator} (h : c.surface = d.surface)
    (place : a.span = b.span) :
    c.problemsAt config exports options index a = d.problemsAt config exports options index b := by
  have head : c.head = d.head := congrArg Surface.head h
  have base : c.baseClassProblems = d.baseClassProblems := by
    have spans : c.superclass.map Expr.span = d.superclass.map Expr.span := congrArg Surface.baseClass h
    simpa [baseClassProblems, Function.comp_def] using congrArg (fun s => (s.map Problem.baseClass).toList) spans
  have others : c.decoratorProblems index = d.decoratorProblems index := by
    have seen : c.decorators.map Decorator.surface = d.decorators.map Decorator.surface :=
      congrArg Surface.decorators h
    have first : ((c.decorators.eraseIdx index).map Decorator.surface).head? =
        ((d.decorators.eraseIdx index).map Decorator.surface).head? := by
      rw [← List.eraseIdx_map, seen, List.eraseIdx_map]
    simpa [decoratorProblems, otherDecorator?, Decorator.surface, Function.comp_def] using
      congrArg (fun s => (s.map fun s => Problem.otherDecorator s.1).toList) first
  have constructors : c.constructorProblems = d.constructorProblems :=
    congrArg (fun s => (s.constructorParameter.map Problem.constructorArgs).toList) h
  have others' : c.exportProblems config exports = d.exportProblems config exports := by
    simp only [exportProblems, extraExports, isExportedAs, head]
  simp only [problemsAt, base, others, constructors, others', Options.encapsulationProblems, Options.tagProblems, place]

theorem Class.hoisting_congr {index : Nat} (h : c.surface = d.surface) :
    c.hoisting config exports index = d.hoisting config exports index := by
  have head : c.head = d.head := congrArg Surface.head h
  have seen : c.decorators[index]?.map Decorator.surface = d.decorators[index]?.map Decorator.surface := by
    rw [← List.getElem?_map, ← List.getElem?_map]
    exact congrArg (fun s => s.decorators[index]?) h
  cases hc : c.decorators[index]? with
  | none =>
    rw [hc] at seen
    have hd : d.decorators[index]? = none := Option.map_eq_none_iff.mp seen.symm
    simp [hoisting, hc, hd]
  | some a =>
    rw [hc] at seen
    obtain ⟨b, hd, same⟩ := Option.map_eq_some_iff.mp seen.symm
    have place : a.span = b.span := congrArg Prod.fst same.symm
    have given : a.options? = b.options? := congrArg (fun s => s.2.2) same.symm
    simp only [hoisting, hc, hd, given, head, problemsAt_congr h place]

/-- What comes of a class depends on what the checks see of it alone. -/
theorem Class.outcome_congr (h : c.surface = d.surface) : c.outcome config exports = d.outcome config exports := by
  have stripped : (c.strip config.decoratorsToRemove config.decoratorName).surface =
      (d.strip config.decoratorsToRemove config.decoratorName).surface := by
    rw [surface_strip, surface_strip, h]
  have same : (c.strip config.decoratorsToRemove config.decoratorName).hoisting config exports =
      (d.strip config.decoratorsToRemove config.decoratorName).hoisting config exports :=
    funext fun _ => hoisting_congr stripped
  simp only [outcome, componentIndex?_eq, stripped, same]

end Surface

/-! ### The rewritten class -/

/-- Settles the classes of a node without a ledger. -/
def Plan.rewrite (config : Config) (exports : List ExportedSymbol) (c : Class) : Plan Id :=
  .descend (pure ()) (c.keeps config exports) (c.gains config exports)

namespace Class

/-- What the pass makes of a class and of the classes inside it. -/
def rewritten (config : Config) (exports : List ExportedSymbol) (c : Class) : Class :=
  (c.visit (Plan.rewrite config exports)).run

theorem rewritten_eq (c : Class) :
    c.rewritten config exports =
      ((c.settled config exports).visitParts (Plan.rewrite config exports) fun _ => true).run := by
  rw [rewritten, visit_descend (rfl : Plan.rewrite config exports c = _), visitParts_settled]
  rfl

theorem head_visitParts (plan : Class → Plan Id) (keeps : Decorator → Bool) (c : Class) :
    (c.visitParts plan keeps).run.head = c.head := by
  cases c
  simp [visitParts]

theorem decorators_visitParts (plan : Class → Plan Id) (keeps : Decorator → Bool) (c : Class) :
    (c.visitParts plan keeps).run.decorators =
      (c.decorators.filter keeps).map fun d => (Decorator.visit plan d).run := by
  cases c
  simp [visitParts, Decorator.run_visitList]

theorem head_rewritten (c : Class) : (c.rewritten config exports).head = c.head := by
  rw [rewritten_eq, head_visitParts]
  rfl

theorem surface_rewritten (c : Class) : (c.rewritten config exports).surface = (c.settled config exports).surface := by
  rw [rewritten_eq]
  exact surface_visitParts head_rewritten _

end Class

/-! ### What comes of a rewritten class -/

/-- What comes of a class again after the step on it.  A hoisted class is no component any more. -/
def Hoisting.again? : Hoisting → Option Hoisting
  | hoisted _ => none
  | hoisting => some hoisting

namespace Class

variable {c : Class}

theorem strip_strip (names : List String) (keep : String) (c : Class) :
    (c.strip names keep).strip names keep = c.strip names keep := by
  simp [strip]

theorem strip_eq_self {names : List String} {keep : String} (h : ∀ d ∈ c.decorators, d.isStripped names keep = false) :
    c.strip names keep = c := by
  have same : c.decorators.filter (fun d => !d.isStripped names keep) = c.decorators :=
    List.filter_eq_self.mpr fun d hd => by simp [h d hd]
  rw [strip, same]
  cases c
  rfl

theorem outcome_settled (c : Class) :
    (c.settled config exports).outcome config exports = (c.outcome config exports).bind Hoisting.again? := by
  cases h : c.outcome config exports with
  | none => rw [settled_of_outcome_none h, h, Option.bind_none]
  | some hoisting =>
    cases declared : hoisting.declaration? with
    | none =>
      have again : hoisting.again? = some hoisting := by
        cases hoisting with
        | hoisted declaration => cases declared
        | _ => rfl
      rw [Option.bind_some, again, ← h, settled_of_not_hoisted h declared]
      simp only [outcome, strip_strip]
    | some declaration =>
      obtain rfl := Hoisting.declaration?_eq_some_iff.mp declared
      rw [settled_of_hoisted h]
      exact outcome_eq_none_iff.mpr (by simp)

/-- A class that was refused is refused again for the same reasons, and one that was hoisted is no component any
more. -/
theorem outcome_rewritten (c : Class) :
    (c.rewritten config exports).outcome config exports = (c.outcome config exports).bind Hoisting.again? := by
  rw [outcome_congr (surface_rewritten c), outcome_settled]

theorem strips_of_mem_rewritten {hoisting : Hoisting} (h : c.outcome config exports = some hoisting) {d : Decorator}
    (hd : d ∈ (c.rewritten config exports).decorators) : config.strips d = false := by
  rw [rewritten_eq, decorators_visitParts] at hd
  obtain ⟨e, he, rfl⟩ := List.mem_map.mp hd
  have kept : c.keeps config exports e = true := by
    simp only [settled, List.filter_filter, Bool.true_and, List.mem_filter] at he
    exact he.2
  have same : config.strips (Decorator.visit (Plan.rewrite config exports) e).run = config.strips e :=
    Decorator.isStripped_congr (Decorator.name?_visit e)
  rw [same]
  cases hoisting with
  | hoisted declaration => simp [keeps, h] at kept
  | skipped => simpa [keeps, h] using kept
  | refused problems => simpa [keeps, h] using kept

/-- The step on a class changes nothing of what the pass has made of it. -/
theorem settled_rewritten (c : Class) :
    (c.rewritten config exports).settled config exports = c.rewritten config exports := by
  have second : (c.rewritten config exports).outcome config exports = _ := outcome_rewritten c
  cases h : (c.rewritten config exports).outcome config exports with
  | none => exact settled_of_outcome_none h
  | some hoisting =>
    rw [h] at second
    obtain ⟨first, found, again⟩ := Option.bind_eq_some_iff.mp second.symm
    have declared : hoisting.declaration? = none := by
      cases first with
      | hoisted declaration => cases again
      | skipped => cases again; rfl
      | refused problems => cases again; rfl
    -- Only decorators could go now, and those that can are gone since the first pass.
    rw [settled_of_not_hoisted h declared]
    exact strip_eq_self fun d hd => strips_of_mem_rewritten found hd

/-! ### A second visit of a class -/

theorem inner_settled (c : Class) :
    ((c.settled config exports).inner fun _ => true) = c.inner (c.keeps config exports) := by
  rw [inner, visitParts_settled]
  simp [inner]

/-- The classes directly inside a rewritten class are those that it was not to lose, each of them rewritten. -/
theorem inner_rewritten (c : Class) :
    ((c.rewritten config exports).inner fun _ => true) =
      (c.inner (c.keeps config exports)).map (rewritten config exports) := by
  rw [rewritten_eq, inner_visitParts, inner_settled]
  rfl

theorem inner_keeps_rewritten (c : Class) :
    (c.rewritten config exports).inner ((c.rewritten config exports).keeps config exports) =
      (c.inner (c.keeps config exports)).map (rewritten config exports) := by
  have all : (c.rewritten config exports).decorators.filter ((c.rewritten config exports).keeps config exports) =
      (c.rewritten config exports).decorators.filter fun _ => true := by
    rw [List.filter_true]
    exact congrArg Class.decorators (settled_rewritten c)
  rw [inner_eq, all, ← inner_eq, inner_rewritten]

/-- A second visit leaves a class as it is. -/
theorem rewritten_rewritten (c : Class) :
    (c.rewritten config exports).rewritten config exports = c.rewritten config exports := by
  induction c using nesting_induction with
  | step c ih =>
    let plan := Plan.rewrite config exports
    calc (c.rewritten config exports).rewritten config exports
        = ((c.rewritten config exports).visitParts plan fun _ => true).run := by
          rw [rewritten_eq, settled_rewritten]
      _ = ((c.settled config exports).visitParts (Plan.after plan plan) fun _ => true).run := by
          rw [rewritten_eq c, visitParts_visitParts]
      _ = ((c.settled config exports).visitParts plan fun _ => true).run := by
          -- The two visits of a class inside are one visit by the hypothesis on that class.
          refine congrArg Id.run (visitParts_rel (RunRelation.equality Id) _ _ _ _ fun d hd => ?_)
          have inside : d ∈ (c.settled config exports).inner fun _ => true := hd
          rw [inner_settled] at inside
          exact (visit_visit plan plan d).symm.trans (ih _ d inside)
      _ = c.rewritten config exports := (rewritten_eq c).symm

/-- A second visit reaches the classes that the first one has reached, as it has left them. -/
theorem reached_rewritten (c : Class) :
    (c.rewritten config exports).reached (keeps config exports) =
      (c.reached (keeps config exports)).map (rewritten config exports) := by
  induction c using nesting_induction with
  | step c ih =>
    rw [reached_eq, reached_eq, List.map_cons, inner_keeps_rewritten, List.flatMap_map, List.map_flatMap]
    congr 1
    exact List.flatMap_congr fun d hd => ih _ d hd

end Class

/-! ### The module that the pass leaves -/

/-- The relation between a run with a ledger and one without that gives the same value. -/
def RunRelation.value : RunRelation (StateM Ledger) Id where
  Holds x y := ∀ ledger, (x.run ledger).1 = y.run
  strict := True
  holds_pure h _ := h trivial
  holds_bind {_ _ x y _ _} h h' ledger := h' (x.run ledger).1 y.run (fun _ => h ledger) (x.run ledger).2

/-- The class that a visit with a ledger leaves is the rewritten one. -/
theorem Class.value_visit (c : Class) :
    RunRelation.value.Agree (Plan.settle config exports) (Plan.rewrite config exports) c := by
  induction c using Class.nesting_induction with
  | step c ih =>
    rw [RunRelation.Agree, Class.visit_descend (rfl : Plan.settle config exports c = _),
      Class.visit_descend (rfl : Plan.rewrite config exports c = _)]
    refine RunRelation.holds_bind _ (fun _ => rfl) fun _ _ _ => ?_
    refine RunRelation.holds_bind _ ?_ fun _ _ same => RunRelation.holds_pure _ fun strict => by rw [same strict]
    exact Class.visitParts_rel _ _ _ _ c (ih _)

namespace Program

/-- The module that the pass leaves. -/
def rewritten (config : Config) (p : Program) : Program :=
  (p.visit (Plan.rewrite config p.exports)).run

theorem node_transform (config : Config) (p : Program) (ledger : Ledger) :
    ((p.transform config).run ledger).1 = p.rewritten config := by
  rw [transform_eq_visit]
  exact visit_rel RunRelation.value _ _ p (fun c _ => c.value_visit) ledger

theorem exports_rewritten (config : Config) (p : Program) : (p.rewritten config).exports = p.exports :=
  exports_visit Class.head_rewritten p

/-- A second pass leaves a module as it is. -/
theorem rewritten_rewritten (config : Config) (p : Program) :
    (p.rewritten config).rewritten config = p.rewritten config := by
  let plan := Plan.rewrite config p.exports
  calc (p.rewritten config).rewritten config
      = ((p.visit plan).run.visit plan).run := by rw [rewritten, exports_rewritten, rewritten]
    _ = (p.visit (Plan.after plan plan)).run := by rw [visit_visit]
    _ = (p.visit plan).run := by
        refine congrArg Id.run (visit_rel (RunRelation.equality Id) _ _ p fun c _ => ?_)
        exact (Class.visit_visit plan plan c).symm.trans c.rewritten_rewritten
    _ = p.rewritten config := rfl

/-- A second pass reaches the classes that the first one has reached, as it has left them. -/
theorem reached_rewritten (config : Config) (p : Program) :
    (p.rewritten config).reached (Class.keeps config p.exports) =
      (p.reached (Class.keeps config p.exports)).map (Class.rewritten config p.exports) := by
  rw [reached_eq, reached_eq, rewritten, outer_visit, List.flatMap_map, List.map_flatMap]
  exact List.flatMap_congr fun c _ => c.reached_rewritten

end Program

/-! ### The ledger of a second pass -/

theorem Hoisting.problems_again? (outcome : Option Hoisting) :
    (outcome.bind again?).elim [] problems = outcome.elim [] problems := by
  cases outcome with
  | none => rfl
  | some hoisting => cases hoisting <;> rfl

theorem Hoisting.declaration?_again? (outcome : Option Hoisting) :
    (outcome.bind again?).bind declaration? = none := by
  cases outcome with
  | none => rfl
  | some hoisting => cases hoisting <;> rfl

/-- A rewritten class is reported on as before, and no component comes of it. -/
theorem Ledger.enter_rewritten (ledger : Ledger) (c : Class) :
    ledger.enter config exports (c.rewritten config exports) =
      { ledger.enter config exports c with components := ledger.components } := by
  simp [enter, add, Class.outcome_rewritten, Hoisting.problems_again?, Hoisting.declaration?_again?]

/-- The ledger of a second pass has the reports of the first one and no components. -/
theorem Program.ledger_rewritten (config : Config) (path : String) (p : Program) :
    (((p.rewritten config).transform config).run (Ledger.start path)).2 =
      { ((p.transform config).run (Ledger.start path)).2 with components := [] } := by
  simp only [ledger_transform, exports_rewritten, reached_rewritten, Ledger.foldl_enter, List.flatMap_map,
    Ledger.enter_rewritten]
  simp [Ledger.start]

/-- A second pass over the module that the first one has left changes nothing.  It has the same reports in the same
order, and its output is the same but for the components, of which there are none. -/
theorem Program.transform_idempotent (config : Config) (path source : String) (p : Program) :
    let once := (p.transform config).run (Ledger.start path)
    let twice := (once.1.transform config).run (Ledger.start path)
    twice.1 = once.1 ∧ twice.2.components = [] ∧ twice.2.reports = once.2.reports ∧
      once.1.output config path source = { p.output config path source with components := [] } := by
  intro once twice
  have left : once.1 = p.rewritten config := p.node_transform config _
  have node : twice.1 = once.1 := by
    rw [show twice.1 = once.1.rewritten config from once.1.node_transform config _, left, rewritten_rewritten]
  have ledger : twice.2 = { once.2 with components := [] } := by
    have second := p.ledger_rewritten config path
    rwa [← left] at second
  have result : (once.1.transform config).run (Ledger.start path) = (once.1, { once.2 with components := [] }) :=
    Prod.ext node ledger
  refine ⟨node, by rw [ledger], by rw [ledger], ?_⟩
  simp only [output, result]
  rfl

end ComponentHoist

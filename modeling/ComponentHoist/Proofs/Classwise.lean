import ComponentHoist.Pass
import ComponentHoist.Proofs.Nesting
import ComponentHoist.Proofs.Transform
import Mathlib.Data.List.Induction

/-!
# ComponentHoist.Proofs.Classwise — the pass over a module, class by class

The pass changes a class where it stands and goes on inside what has become of it.  It comes to the same as a visit of
the module as it was written, because the members that a class gains hold no classes and the decorators that it loses
are passed over.

* `Class.sweep_eq_visit`: a sweep that is deep enough is that visit.
* `Class.ledger_visit`: the visit adds to the ledger what comes of each class that is reached, one after the other.
* `Program.output_classwise`: the output of a module, put together from what each class gives alone.
-/

namespace ComponentHoist

variable {config : Config} {exports : List ExportedSymbol} {m : Type → Type} [Monad m] [LawfulMonad m]
  (plan : Class → Plan m)

/-! ### Literals hold no classes -/

mutual

theorem Literal.visit_toExpr : ∀ literal : Literal, Expr.visit plan literal.toExpr = pure literal.toExpr
  | .string _ | .number _ | .boolean _ => by simp [Literal.toExpr, Expr.visit]
  | .list items => by simp [Literal.toExpr, Expr.visit, Literal.visitList_toElements items]
  | .map entries => by simp [Literal.toExpr, Expr.visit, Literal.visitList_toEntries entries]

theorem Literal.visitList_toElements : ∀ items : List Literal,
    Expr.visitList plan (Literal.toElements items) = pure (Literal.toElements items)
  | [] => by simp [Literal.toElements, Expr.visitList]
  | item :: items => by
    simp [Literal.toElements, Expr.visitList, Literal.visit_toExpr item, Literal.visitList_toElements items]

theorem Literal.visitList_toEntries : ∀ entries : List (String × Literal),
    Entry.visitList plan (Literal.toEntries entries) = pure (Literal.toEntries entries)
  | [] => by simp [Literal.toEntries, Entry.visitList]
  | (_, value) :: entries => by
    simp [Literal.toEntries, Entry.visitList, Entry.visit, Key.visit, Literal.visit_toExpr value,
      Literal.visitList_toEntries entries]

end

theorem StaticMember.visit_toMember (s : StaticMember) : Member.visit plan s.toMember = pure s.toMember := by
  simp [toMember, Member.visit, Decorator.visitList, Key.visit, Phrase.visitOption, Expr.visitOption,
    Literal.visit_toExpr]

/-! ### The parts of a class that has been changed -/

theorem Member.visitList_append (xs ys : List Member) :
    Member.visitList plan (xs ++ ys) = do
      let xs ← Member.visitList plan xs
      return xs ++ (← Member.visitList plan ys) := by
  induction xs with
  | nil => simp [Member.visitList]
  | cons x xs ih => simp [Member.visitList, ih]

theorem Member.visitList_toMember (members : List StaticMember) :
    Member.visitList plan (members.map StaticMember.toMember) = pure (members.map StaticMember.toMember) := by
  induction members with
  | nil => simp [Member.visitList]
  | cons s members ih => simp [Member.visitList, StaticMember.visit_toMember, ih]

theorem Decorator.visitList_filter (keeps : Decorator → Bool) (ds : List Decorator) :
    Decorator.visitList plan (fun _ => true) (ds.filter keeps) = Decorator.visitList plan keeps ds := by
  induction ds with
  | nil => simp [Decorator.visitList]
  | cons d ds ih =>
    by_cases h : keeps d = true
    · simp [Decorator.visitList, h, ih]
    · simp [Decorator.visitList, h, ih]

/-- The parts of a settled class are visited like the kept parts of the class as it was written. -/
theorem Class.visitParts_settled (c : Class) :
    (c.settled config exports).visitParts plan (fun _ => true) = do
      let d ← c.visitParts plan (c.keeps config exports)
      return { d with members := d.members ++ c.gains config exports } := by
  have added : Member.visitList plan (c.gains config exports) = pure (c.gains config exports) :=
    Member.visitList_toMember plan _
  cases c
  simp [settled, visitParts, Decorator.visitList_filter, Member.visitList_append, added]

/-! ### A sweep is a visit -/

/-- The ledger with what comes of one more class. -/
def Ledger.enter (config : Config) (exports : List ExportedSymbol) (ledger : Ledger) (c : Class) : Ledger :=
  ledger.add config (c.outcome config exports)

/-- Enters what comes of a class into the ledger and goes on inside it, but not in the decorators that it loses. -/
def Plan.settle (config : Config) (exports : List ExportedSymbol) (c : Class) : Plan (StateM Ledger) :=
  .descend (modify fun ledger => ledger.enter config exports c)
    (c.keeps config exports) (c.gains config exports)

theorem Class.transform_eq (c : Class) :
    c.transform config exports = do
      modify fun ledger => ledger.enter config exports c
      return c.settled config exports :=
  StateT.ext fun ledger => transform_run ledger

/-- The relation of being equal. -/
def RunRelation.equality (m : Type → Type) [Monad m] : RunRelation m m where
  Holds x y := x = y
  strict := True
  holds_pure h := by rw [h trivial]
  holds_bind h h' := by rw [h, funext fun a => h' a a fun _ => rfl]

/-- A sweep that goes as deep as classes lie inside a class settles all that are reached from it. -/
theorem Class.sweep_eq_visit (depth : Nat) (c : Class) (h : c.classes.length ≤ depth) :
    c.sweep (Class.transform config exports) depth = c.visit (Plan.settle config exports) := by
  -- A class counts itself, so the depth is not zero, and one level is used up on the way inside.
  induction depth generalizing c with
  | zero =>
    rw [c.classes_eq] at h
    cases h
  | succ depth ih =>
    let plan (inner : Class) : Plan (StateM Ledger) := .replace (inner.sweep (Class.transform config exports) depth)
    have inside : c.visitParts plan (c.keeps config exports) =
        c.visitParts (Plan.settle config exports) (c.keeps config exports) := by
      refine Class.visitParts_rel (RunRelation.equality _) plan (Plan.settle config exports) _ c fun d hd => ?_
      have shallower := Class.length_classes_inner hd
      exact (Class.visit_replace rfl).trans (ih d (by omega))
    rw [Class.visit_descend (rfl : Plan.settle config exports c = _), ← inside]
    simp only [Class.sweep, Class.transform_eq, bind_assoc, pure_bind]
    rw [Class.visitParts_settled]

theorem Program.transform_eq_visit (config : Config) (p : Program) :
    p.transform config = p.visit (Plan.settle config p.exports) := by
  let plan (c : Class) : Plan (StateM Ledger) :=
    .replace (c.sweep (Class.transform config p.exports) p.classes.length)
  refine Program.visit_rel (RunRelation.equality _) plan (Plan.settle config p.exports) p fun c hc => ?_
  have outer : c.classes.length ≤ p.classes.length := by
    rw [p.classes_eq]
    exact length_classes_le hc
  exact (Class.visit_replace rfl).trans (Class.sweep_eq_visit _ c outer)

/-! ### The ledger of a visit -/

/-- A run whose ledger is that of the noted classes, entered one after the other. -/
def RunRelation.ledger (config : Config) (exports : List ExportedSymbol) :
    RunRelation (StateM Ledger) (Visited Class) where
  Holds x y := ∀ ledger, (x.run ledger).2 = y.notes.foldl (Ledger.enter config exports) ledger
  strict := False
  holds_pure _ _ := rfl
  holds_bind {_ _ x y f g} h h' ledger := by
    have later := h' (x.run ledger).1 y.node False.elim (x.run ledger).2
    rw [Visited.notes_bind, List.foldl_append, ← h ledger, ← later]
    rfl

/-- A visit of a class enters all classes that are reached from it. -/
theorem Class.ledger_visit (c : Class) :
    (RunRelation.ledger config exports).Agree (Plan.settle config exports)
      (Plan.reach (Class.keeps config exports)) c := by
  -- Both visits enter the class and then descend past the same decorators, where they agree on the inner classes.
  induction c using Class.nesting_induction with
  | step c ih =>
    rw [RunRelation.Agree, Class.visit_descend (rfl : Plan.settle config exports c = _),
      Class.visit_descend (rfl : Plan.reach (Class.keeps config exports) c = _)]
    refine RunRelation.holds_bind _ (fun _ => rfl) fun _ _ _ => ?_
    refine RunRelation.holds_bind _ ?_ fun _ _ _ => RunRelation.holds_pure _ False.elim
    exact Class.visitParts_rel _ _ _ _ c (ih _)

theorem Program.ledger_transform (config : Config) (p : Program) (ledger : Ledger) :
    ((p.transform config).run ledger).2 =
      (p.reached (Class.keeps config p.exports)).foldl (Ledger.enter config p.exports) ledger := by
  rw [Program.transform_eq_visit]
  exact Program.visit_rel (RunRelation.ledger config p.exports) _ _ p (fun c _ => c.ledger_visit) ledger

theorem Ledger.enter_eq (ledger : Ledger) (c : Class) :
    ledger.enter config exports c =
      { reports :=
          { ledger.reports with
            items := ledger.reports.items ++
              ((Ledger.start ledger.reports.file).enter config exports c).reports.items }
        components := ledger.components ++ ((Ledger.start ledger.reports.file).enter config exports c).components } := by
  unfold enter add
  congr 1
  · rw [Diagnostics.mk.injEq]
    simp [Diagnostics.items_pushAll, Ledger.start]

/-- A ledger that is kept from the beginning holds what each class enters into an empty one. -/
theorem Ledger.foldl_enter (path : String) (classes : List Class) :
    classes.foldl (Ledger.enter config exports) (Ledger.start path) =
      { reports := ⟨path, classes.flatMap fun c => ((Ledger.start path).enter config exports c).reports.items⟩
        components := classes.flatMap fun c => ((Ledger.start path).enter config exports c).components } := by
  induction classes using List.reverseRecOn with
  | nil => rfl
  | append_singleton classes c ih =>
    rw [List.foldl_append, ih, List.foldl_cons, List.foldl_nil, Ledger.enter_eq]
    simp

/-! ### The output -/

/-- The output of a module is put together from what the classes give that are reached, each by itself as it was
written.  All classes are reached but those in the decorators that a reached class loses. -/
theorem Program.output_classwise (config : Config) (path source : String) (p : Program) :
    let alone (c : Class) : Class × Ledger := (c.transform config p.exports).run (Ledger.start path)
    let keeps := Class.keeps config p.exports
    let visited := p.reached keeps
    (p.output config path source).components = visited.flatMap (fun c => (alone c).2.components) ∧
      (p.output config path source).diagnostics =
        visited.flatMap (fun c => ((alone c).2.reports.resolve source).items) ∧
      (∀ c, (alone c).1.decorators = c.decorators.filter (keeps c)) ∧
      visited.Sublist p.classes ∧ p.classes.Perm (visited ++ visited.flatMap (Class.passedOver keeps)) := by
  intro alone keeps visited
  have settled (c : Class) : alone c = (c.settled config p.exports, (Ledger.start path).enter config p.exports c) :=
    Class.transform_run _
  have ledger : ((p.transform config).run (Ledger.start path)).2 = _ :=
    (Program.ledger_transform config p _).trans (Ledger.foldl_enter path _)
  refine ⟨?_, ?_, fun c => by rw [settled]; rfl, p.reached_sublist keeps, p.classes_perm keeps⟩
  · have components : (p.output config path source).components =
        ((p.transform config).run (Ledger.start path)).2.components := rfl
    rw [components, ledger]
    simp only [settled, visited, keeps]
  · have diagnostics : (p.output config path source).diagnostics =
        (((p.transform config).run (Ledger.start path)).2.reports.resolve source).items := rfl
    rw [diagnostics, ledger]
    simp only [settled, Diagnostics.resolve, List.map_flatMap, visited, keeps]

end ComponentHoist

import ComponentHoist.Proofs.Visit
import Mathlib.Data.List.Flatten
import Mathlib.Data.List.Perm.Basic

/-!
# ComponentHoist.Proofs.Nesting — classes inside classes

* `Class.inner`: the outer classes of the parts of a class, which are the classes directly inside it.
* `Class.reached`: the classes that are met from a class on, where the decorators that are not kept are passed over.
  All classes are reached if all decorators are kept.
* `Class.nesting_induction`: what holds of a class as soon as it holds of the classes directly inside it holds of all.
* `Program.classes_perm`: a class that is not reached lies inside a decorator of a reached class that was passed over.
-/

namespace ComponentHoist

/-! ### Outer and inner classes -/

/-- The classes of a decorator that lie in no other class of it. -/
def Decorator.outer (d : Decorator) : List Class :=
  (d.visit Plan.collect).notes

/-- The classes directly inside a class, as far as they do not lie in a decorator that is not kept. -/
def Class.inner (keeps : Decorator → Bool) (c : Class) : List Class :=
  (c.visitParts Plan.collect keeps).notes

/-- The classes of a module that lie in no other class. -/
def Program.outer (p : Program) : List Class :=
  (p.visit Plan.collect).notes

theorem notes_visitList_collect (keeps : Decorator → Bool) (ds : List Decorator) :
    (Decorator.visitList Plan.collect keeps ds).notes = (ds.filter keeps).flatMap Decorator.outer := by
  induction ds with
  | nil => simp [Decorator.visitList]
  | cons d ds ih =>
    by_cases hd : keeps d = true
    · simp [Decorator.visitList, hd, ih, Decorator.outer]
    · simp [Decorator.visitList, hd, ih]

/-- The inner classes are those of the decorators and those of the other parts. -/
theorem Class.inner_eq (keeps : Decorator → Bool) (c : Class) :
    c.inner keeps = (c.decorators.filter keeps).flatMap Decorator.outer ++ c.inner fun _ => false := by
  cases c
  simp [Class.inner, Class.visitParts, notes_visitList_collect]

theorem Class.inner_sublist (keeps : Decorator → Bool) (c : Class) :
    (c.inner keeps).Sublist (c.inner fun _ => true) := by
  rw [Class.inner_eq keeps, Class.inner_eq fun _ => true]
  refine List.Sublist.append_right ?_ _
  simpa using (List.filter_sublist (l := c.decorators) (p := keeps)).flatMap Decorator.outer

/-- All inner classes are those that are kept and those of the decorators that are not. -/
theorem Class.inner_perm (keeps : Decorator → Bool) (c : Class) :
    (c.inner fun _ => true).Perm
      (c.inner keeps ++ (c.decorators.filter fun d => !keeps d).flatMap Decorator.outer) := by
  rw [Class.inner_eq keeps, Class.inner_eq fun _ => true, List.append_assoc]
  have split := (List.filter_append_perm keeps c.decorators).flatMap_right Decorator.outer
  rw [List.flatMap_append] at split
  simpa using (split.symm.append_right _).trans (by
    rw [List.append_assoc]
    exact List.Perm.append_left _ List.perm_append_comm)

/-! ### The notes of a visit -/

/-- The notes of a visit come from the outer classes. -/
def RunRelation.notes {ρ : Type} (g : Class → List ρ) : RunRelation (Visited ρ) (Visited Class) where
  Holds v w := v.notes = w.notes.flatMap g
  strict := False
  holds_pure _ := by simp
  holds_bind {_ _ x y f g} h h' := by
    have := h' x.node y.node False.elim
    simp [h, this]

section Notes

variable {ρ : Type} (plan : Class → Plan (Visited ρ))

theorem agree_notes (c : Class) :
    (RunRelation.notes fun d => (d.visit plan).notes).Agree plan Plan.collect c := by
  have noted : c.visit Plan.collect = ⟨c, [c]⟩ := Class.visit_replace rfl
  simp [RunRelation.Agree, RunRelation.notes, noted]

theorem Decorator.notes_visit (d : Decorator) :
    (d.visit plan).notes = d.outer.flatMap fun c => (c.visit plan).notes :=
  Decorator.visit_rel (RunRelation.notes _) plan Plan.collect d fun c _ => agree_notes plan c

theorem Class.notes_visitParts (keeps : Decorator → Bool) (c : Class) :
    (c.visitParts plan keeps).notes = (c.inner keeps).flatMap fun d => (d.visit plan).notes :=
  Class.visitParts_rel (RunRelation.notes _) plan Plan.collect keeps c fun d _ => agree_notes plan d

theorem Program.notes_visit (p : Program) :
    (p.visit plan).notes = p.outer.flatMap fun c => (c.visit plan).notes :=
  Program.visit_rel (RunRelation.notes _) plan Plan.collect p fun c _ => agree_notes plan c

end Notes

/-! ### Classes that are reached -/

instance {ρ : Type} : LawfulMonad (Visited ρ) :=
  LawfulMonad.mk' _ (fun _ => by simp [Functor.map]) (fun _ _ => by simp [bind, pure])
    (fun _ _ _ => by simp [bind])

/-- What a visit does to a class into which it descends. -/
theorem Class.visit_descend {m : Type → Type} [Monad m] [LawfulMonad m] {plan : Class → Plan m} {c : Class}
    {enter : m Unit} {keeps : Decorator → Bool} {added : List Member} (h : plan c = .descend enter keeps added) :
    c.visit plan = do
      enter
      let d ← c.visitParts plan keeps
      return { d with members := d.members ++ added } := by
  cases c
  simp [Class.visit, Class.visitParts, h]

/-- Notes a class and goes on inside it, but not in the decorators that are not kept. -/
def Plan.reach (keeps : Class → Decorator → Bool) (c : Class) : Plan (Visited Class) :=
  .descend (Visited.note c) (keeps c) []

section Reached

variable (keeps : Class → Decorator → Bool)

/-- The classes that are reached from a class on, each before those inside it. -/
def Class.reached (c : Class) : List Class :=
  (c.visit (Plan.reach keeps)).notes

/-- The classes that are reached in a decorator. -/
def Decorator.reached (d : Decorator) : List Class :=
  (d.visit (Plan.reach keeps)).notes

/-- The classes of a module that are reached, each before those inside it. -/
def Program.reached (p : Program) : List Class :=
  (p.visit (Plan.reach keeps)).notes

theorem Class.reached_eq (c : Class) :
    c.reached keeps = c :: (c.inner (keeps c)).flatMap (Class.reached keeps) := by
  have inner : (c.visitParts (Plan.reach keeps) (keeps c)).notes =
      (c.inner (keeps c)).flatMap (Class.reached keeps) := c.notes_visitParts _ _
  rw [Class.reached, Class.visit_descend (rfl : Plan.reach keeps c = _)]
  simp [inner]

theorem Decorator.reached_eq (d : Decorator) : d.reached keeps = d.outer.flatMap (Class.reached keeps) :=
  d.notes_visit _

theorem Program.reached_eq (p : Program) : p.reached keeps = p.outer.flatMap (Class.reached keeps) :=
  p.notes_visit _

end Reached

/-- A class and all classes inside it. -/
def Class.classes (c : Class) : List Class :=
  c.reached fun _ _ => true

/-- All classes in a decorator. -/
def Decorator.classes (d : Decorator) : List Class :=
  d.reached fun _ _ => true

theorem Class.classes_eq (c : Class) : c.classes = c :: (c.inner fun _ => true).flatMap Class.classes :=
  c.reached_eq _

theorem Decorator.classes_eq (d : Decorator) : d.classes = d.outer.flatMap Class.classes :=
  d.reached_eq _

theorem Program.classes_eq (p : Program) : p.classes = p.outer.flatMap Class.classes :=
  p.reached_eq fun _ _ => true

/-! ### Induction on the nesting of classes -/

theorem length_classes_le {l : List Class} {c : Class} (h : c ∈ l) :
    c.classes.length ≤ (l.flatMap Class.classes).length := by
  have := ((List.singleton_sublist.mpr h).flatMap Class.classes).length_le
  simpa using this

theorem Class.length_classes_inner {keeps : Decorator → Bool} {c d : Class} (h : d ∈ c.inner keeps) :
    d.classes.length < c.classes.length := by
  have := length_classes_le ((c.inner_sublist keeps).subset h)
  rw [c.classes_eq, List.length_cons]
  omega

/-- What holds of a class as soon as it holds of the classes directly inside it holds of all classes. -/
theorem Class.nesting_induction {P : Class → Prop} (step : ∀ c, (∀ keeps, ∀ d ∈ Class.inner keeps c, P d) → P c)
    (c : Class) : P c := by
  induction h : c.classes.length using Nat.strongRecOn generalizing c with
  | ind n ih =>
    subst h
    exact step c fun keeps d hd => ih _ (Class.length_classes_inner hd) d rfl

/-! ### What is passed over -/

section PassedOver

variable (keeps : Class → Decorator → Bool)

/-- All classes in the decorators of a class that are not kept. -/
def Class.passedOver (c : Class) : List Class :=
  (c.decorators.filter fun d => !keeps c d).flatMap Decorator.classes

theorem Class.reached_sublist (c : Class) : (c.reached keeps).Sublist c.classes := by
  induction c using Class.nesting_induction with
  | step c ih =>
    rw [Class.reached_eq, Class.classes_eq]
    refine List.Sublist.cons_cons c ?_
    calc ((c.inner (keeps c)).flatMap (Class.reached keeps)).Sublist ((c.inner (keeps c)).flatMap Class.classes) :=
          List.Sublist.flatMap_right _ (ih (keeps c))
      List.Sublist _ ((c.inner fun _ => true).flatMap Class.classes) :=
          (c.inner_sublist (keeps c)).flatMap _

/-- Every class inside a class is either reached or in a decorator of a reached class that is passed over. -/
theorem Class.classes_perm (c : Class) :
    c.classes.Perm (c.reached keeps ++ (c.reached keeps).flatMap (Class.passedOver keeps)) := by
  induction c using Class.nesting_induction with
  | step c ih =>
    have lost : ((c.decorators.filter fun d => !keeps c d).flatMap Decorator.outer).flatMap Class.classes =
        c.passedOver keeps := by
      rw [List.flatMap_assoc, Class.passedOver, funext Decorator.classes_eq]
    rw [Class.classes_eq, Class.reached_eq, List.flatMap_cons, List.cons_append]
    refine List.Perm.cons c ?_
    calc ((c.inner fun _ => true).flatMap Class.classes).Perm
          ((c.inner (keeps c)).flatMap Class.classes ++ c.passedOver keeps) := by
          simpa [lost] using (c.inner_perm (keeps c)).flatMap_right Class.classes
      List.Perm _ ((c.inner (keeps c)).flatMap (fun d => d.reached keeps ++ (d.reached keeps).flatMap
          (Class.passedOver keeps)) ++ c.passedOver keeps) :=
          (List.Perm.flatMap_left _ (ih (keeps c))).append_right _
      List.Perm _ ((c.inner (keeps c)).flatMap (Class.reached keeps) ++ (c.passedOver keeps ++
          ((c.inner (keeps c)).flatMap (Class.reached keeps)).flatMap (Class.passedOver keeps))) := by
          rw [List.flatMap_assoc]
          refine ((List.flatMap_append_perm _ _ _).symm.append_right _).trans ?_
          rw [List.append_assoc]
          exact List.Perm.append_left _ List.perm_append_comm

theorem Program.reached_sublist (p : Program) : (p.reached keeps).Sublist p.classes := by
  rw [Program.reached_eq, Program.classes_eq]
  exact List.Sublist.flatMap_right _ fun c _ => c.reached_sublist keeps

/-- Every class of a module is either reached or in a decorator of a reached class that is passed over. -/
theorem Program.classes_perm (p : Program) :
    p.classes.Perm (p.reached keeps ++ (p.reached keeps).flatMap (Class.passedOver keeps)) := by
  rw [Program.reached_eq, Program.classes_eq, List.flatMap_assoc]
  exact (List.Perm.flatMap_left _ fun c _ => c.classes_perm keeps).trans (List.flatMap_append_perm _ _ _).symm

end PassedOver

end ComponentHoist

import ComponentHoist.Proofs.TypeOnly
import Mathlib.Data.List.Basic

/-!
# ComponentHoist.Proofs.BoundNames — the names that a pattern binds

Each name that a pattern binds should be collected, once for each place where it is bound and in the order of the text,
and an exported declaration should give one symbol for each.  The names that are bound under a default value are left
out.

* `Pattern.boundNames_eq_filter`: what is collected, and what is not.
* `Pattern.boundNames_eq_names_iff`: nothing is left out of a pattern exactly if it binds no name under a default value.
* `Decl.variables_exports`: the symbols of an exported declaration of variables.
* `Program.exports_boundNames`: what comes of a pattern in the table of its module.
-/

namespace ComponentHoist

/-! ### Patterns -/

namespace Pattern

/-- The names that a pattern binds, with or without a default value, each as often as it is bound and in the order of
the text. -/
def names (p : Pattern) : List String :=
  p.allNames.map Prod.fst

/-- Whether no name is bound under a default value. -/
def BindsPlainly (p : Pattern) : Prop :=
  ∀ bound ∈ p.allNames, bound.2 = true

theorem boundNames_eq_filter (p : Pattern) : p.boundNames = (p.allNames.filter Prod.snd).map Prod.fst := by
  rw [boundNames_eq, ← List.filterMap_eq_map, List.filterMap_filter]
  rfl

/-- Chosen items give what all items give only if all are chosen. -/
theorem map_filter_eq_map_iff {α β : Type} {keep : α → Bool} {f : α → β} {items : List α} :
    (items.filter keep).map f = items.map f ↔ ∀ a ∈ items, keep a = true := by
  constructor
  · intro same
    have length : (items.filter keep).length = items.length := by simpa using congrArg List.length same
    exact List.length_filter_eq_length_iff.mp length
  · intro all
    rw [List.filter_eq_self.mpr all]

/-- No other names are collected, none too often and none in another order. -/
theorem boundNames_sublist (p : Pattern) : p.boundNames.Sublist p.names := by
  rw [boundNames_eq_filter]
  exact List.filter_sublist.map Prod.fst

theorem boundNames_eq_names_iff (p : Pattern) : p.boundNames = p.names ↔ p.BindsPlainly := by
  rw [boundNames_eq_filter]
  exact map_filter_eq_map_iff

end Pattern

/-! ### Declarations of variables -/

/-- The symbol of a variable that is exported where it is declared, with the span of the declarator. -/
def ExportedSymbol.ofVariable (statement : Span) (isTypeOnly : Bool) (declarator : Span) (name : String) :
    ExportedSymbol where
  name := name
  localName := some name
  kind := .variable
  isMarkedTypeOnly := isTypeOnly
  declaration := declarator
  modifier := some statement.exportKeyword

variable {locals : Locals} {statement inner : Span} {isTypeOnly isDeclared : Bool} {keyword : String}

theorem Decl.variables_exports (declarators : List Declarator) :
    (Stmt.exportDecl statement isTypeOnly (.variables inner isDeclared keyword declarators)).exports locals =
      declarators.flatMap fun d => d.target.boundNames.map (.ofVariable statement isTypeOnly d.span) := by
  simp only [Stmt.exports, bindings, List.map_flatMap]
  refine List.flatMap_congr fun d _ => ?_
  rw [Declarator.bindings, List.map_map]
  rfl

/-- Each name of each declarator has a symbol exactly if no name is bound under a default value. -/
theorem Decl.variables_exports_eq_iff (declarators : List Declarator) :
    (Stmt.exportDecl statement isTypeOnly (.variables inner isDeclared keyword declarators)).exports locals =
        declarators.flatMap (fun d => d.target.names.map (.ofVariable statement isTypeOnly d.span)) ↔
      ∀ d ∈ declarators, d.target.BindsPlainly := by
  -- All bound names in one list, each with its declarator, so that what is left out shows in the length.
  let bound := declarators.flatMap fun d => d.target.allNames.map fun b => (d.span, b)
  let symbol (b : Span × String × Bool) := ExportedSymbol.ofVariable statement isTypeOnly b.1 b.2.1
  have collected : (Stmt.exportDecl statement isTypeOnly (.variables inner isDeclared keyword declarators)).exports
      locals = (bound.filter fun b => b.2.2).map symbol := by
    rw [variables_exports]
    simp only [bound, List.filter_flatMap, List.map_flatMap, List.filter_map, List.map_map,
      Pattern.boundNames_eq_filter]
    rfl
  have all : declarators.flatMap (fun d => d.target.names.map (.ofVariable statement isTypeOnly d.span)) =
      bound.map symbol := by
    simp only [bound, List.map_flatMap, List.map_map, Pattern.names]
    rfl
  rw [collected, all, Pattern.map_filter_eq_map_iff]
  simp only [bound, List.mem_flatMap, List.mem_map, Pattern.BindsPlainly]
  constructor
  · intro h d hd b hb
    exact h _ ⟨d, hd, b, hb, rfl⟩
  · rintro h _ ⟨d, hd, b, hb, rfl⟩
    exact h d hd b hb

/-! ### In a module -/

/-- What is collected of a pattern are the names that it binds, each as often as it is bound and in the order of the
text, without those that are bound under a default value; so nothing is missing exactly if there are none of these.  A
module that exports a variable with this pattern among others has one symbol for each collected name in its table, a
variable with the span of the declarator.  So all bound names of the declaration have their symbols exactly if no name
of it is bound under a default value. -/
theorem Program.exports_boundNames (pattern : Pattern) (p : Program) (front back : List Stmt) (statement inner : Span)
    (isTypeOnly isDeclared : Bool) (keyword : String) (before after : List Declarator) (place : Span)
    (isDefinite : Bool) (init : Option Expr) :
    let declarators := before ++ ⟨place, pattern, isDefinite, init⟩ :: after
    let declaration := Stmt.exportDecl statement isTypeOnly (.variables inner isDeclared keyword declarators)
    let whole : Program := { p with statements := front ++ declaration :: back }
    let symbols := declaration.exports whole.locals
    (pattern.boundNames.Sublist pattern.names ∧
        pattern.boundNames = (pattern.allNames.filter Prod.snd).map Prod.fst ∧
        (pattern.boundNames = pattern.names ↔ pattern.BindsPlainly)) ∧
      whole.exports = front.flatMap (Stmt.exports whole.locals) ++ symbols ++ back.flatMap (Stmt.exports whole.locals) ∧
      symbols = (declarators.flatMap fun d => d.target.boundNames.map (.ofVariable statement isTypeOnly d.span)) ∧
      (symbols = (declarators.flatMap fun d => d.target.names.map (.ofVariable statement isTypeOnly d.span)) ↔
        ∀ d ∈ declarators, d.target.BindsPlainly) := by
  intro declarators declaration whole symbols
  have collected := And.intro pattern.boundNames_eq_filter pattern.boundNames_eq_names_iff
  exact ⟨⟨pattern.boundNames_sublist, collected⟩, p.exports_insert front back declaration,
    Decl.variables_exports declarators, Decl.variables_exports_eq_iff declarators⟩

/-! ### A name with a default value -/

/-- A pattern that gives its only name a default value. -/
def defaultedPattern : Pattern :=
  .object ⟨13, 22⟩ [.property ⟨15, 20⟩ (.label (.bare "a")) true
    (.withDefault ⟨15, 20⟩ (.name ⟨15, 16⟩ "a" ⟨false, none⟩) (.number ⟨19, 20⟩ ⟨0x3FF0000000000000⟩))] ⟨false, none⟩

/-- The module that exports the name. -/
def defaultedModule : Program where
  statements := [.exportDecl ⟨0, 27⟩ false (.variables ⟨7, 27⟩ false "const"
    [⟨⟨13, 26⟩, defaultedPattern, false, some (.ident ⟨25, 26⟩ "e")⟩])]

/-- The name is bound, and it is not exported. -/
theorem Program.defaultedName_lost :
    defaultedPattern.names = ["a"] ∧ defaultedPattern.boundNames = [] ∧ defaultedModule.exports = [] := by
  decide

end ComponentHoist

import ComponentHoist.Proofs.Exports
import Mathlib.Data.List.Basic

/-!
# ComponentHoist.Proofs.TypeOnly — which names are exported as types

An exported name should count as a type if nothing but types are declared under it.  The export is resolved by the last
declaration alone, and some declarations are not recorded for that.

* `Program.declared`: all names that are declared at the top level of a module, recorded or not.
* `Program.resolve?_isType`: an exported name counts as a type if its last recorded declaration is one.
* `Program.specifier_isTypeOnly`: what comes of an export list, and when it is as it should be.
-/

namespace ComponentHoist

/-! ### Declarations -/

/-- A name that is declared at the top level of a module. -/
structure Declared where
  name : String
  /-- Whether nothing but a type is declared, by an interface, by a type alias or by an import of a type. -/
  isType : Bool
  /-- Whether exports can be resolved by the declaration. -/
  isRecorded : Bool
deriving DecidableEq, Repr

mutual

/-- The names that a pattern binds, with or without a default value, each with whether there is none. -/
def Pattern.allNames : Pattern → List (String × Bool)
  | .name _ bound _ => [(bound, true)]
  | .object _ parts _ => Pattern.allNamesList parts
  | .array _ parts _ => Pattern.allNamesList parts
  | .property _ _ _ value => value.allNames
  | .rest _ target _ => target.allNames
  | .hole => []
  | .withDefault _ target _ => target.allNames.map fun bound => (bound.1, false)
  | .parameter _ _ _ target => target.allNames.map fun bound => (bound.1, false)

/-- The names that several patterns bind. -/
def Pattern.allNamesList : List Pattern → List (String × Bool)
  | [] => []
  | p :: ps => p.allNames ++ Pattern.allNamesList ps

end

/-- The names that a declaration declares.  The signatures of an overloaded function and aliases of imports are not
recorded. -/
def Decl.declared : Decl → List Declared
  | .variables _ _ _ declarators =>
    declarators.flatMap fun d => d.target.allNames.map fun bound => ⟨bound.1, false, bound.2⟩
  | .function func =>
    let hasBody := match func.body with
      | .absent => false
      | _ => true
    func.head.name.toList.map fun name => ⟨name, false, hasBody || func.head.isDeclared⟩
  | .classDecl cls => cls.head.name.toList.map fun name => ⟨name, false, true⟩
  | .interface head .. => [⟨head.name, true, true⟩]
  | .typeAlias head .. => [⟨head.name, true, true⟩]
  | .enumeration head _ => [⟨head.name, false, true⟩]
  | .namespaceDecl _ _ _ (.path name _) _ => [⟨name, false, true⟩]
  | .namespaceDecl .. => []
  | .importAlias _ isTypeOnly name _ => [⟨name, isTypeOnly, false⟩]

/-- The name that a declaration behind `export default` declares.  That of an interface is not recorded. -/
def Decl.defaultDeclared : Decl → List Declared
  | .classDecl cls => cls.head.name.toList.map fun name => ⟨name, false, true⟩
  | .function func => func.head.name.toList.map fun name => ⟨name, false, true⟩
  | .interface head .. => [⟨head.name, true, false⟩]
  | _ => []

/-- The name that an import specifier declares. -/
def ImportSpecifier.declared (isTypeOnly : Bool) : ImportSpecifier → Declared
  | .defaultExport _ bound => ⟨bound, isTypeOnly, true⟩
  | .allExports _ bound => ⟨bound, isTypeOnly, true⟩
  | .named _ isType _ bound => ⟨bound, isType || isTypeOnly, true⟩

/-- The names that a statement declares. -/
def Stmt.declared : Stmt → List Declared
  | .decl d => d.declared
  | .exportDecl _ _ d => d.declared
  | .exportDefaultDecl _ d => d.defaultDeclared
  | .importNames data => (data.specifiers.getD []).map (ImportSpecifier.declared data.isTypeOnly)
  | _ => []

/-- All names that are declared at the top level of a module. -/
def Program.declared (p : Program) : List Declared :=
  p.statements.flatMap Stmt.declared

/-- The top-level declarations of a name. -/
def Program.declarations (p : Program) (name : String) : List Declared :=
  p.declared.filter fun d => d.name = name

/-! ### What is recorded -/

/-- Whether a top-level name stands for a type and nothing else. -/
def Local.isType (l : Local) : Bool :=
  l.isTypeOnly || l.kind.isTypeOnly

/-- A name with whether it is a type, as far as declarations are recorded. -/
def Declared.row? (d : Declared) : Option (String × Bool) :=
  if d.isRecorded then some (d.name, d.isType) else none

/-- A top-level name with whether it stands for a type. -/
def Locals.row (b : String × Local) : String × Bool :=
  (b.1, b.2.isType)

mutual

theorem Pattern.boundNames_eq : ∀ p : Pattern,
    p.boundNames = p.allNames.filterMap fun bound => if bound.2 then some bound.1 else none
  | .name _ bound _ => by simp [Pattern.boundNames, Pattern.allNames]
  | .object _ parts _ => by simp [Pattern.boundNames, Pattern.allNames, Pattern.boundNamesList_eq parts]
  | .array _ parts _ => by simp [Pattern.boundNames, Pattern.allNames, Pattern.boundNamesList_eq parts]
  | .property _ _ _ value => by simp [Pattern.boundNames, Pattern.allNames, Pattern.boundNames_eq value]
  | .rest _ target _ => by simp [Pattern.boundNames, Pattern.allNames, Pattern.boundNames_eq target]
  | .hole => by simp [Pattern.boundNames, Pattern.allNames]
  | .withDefault _ target _ => by simp [Pattern.boundNames, Pattern.allNames]
  | .parameter _ _ _ target => by simp [Pattern.boundNames, Pattern.allNames]

theorem Pattern.boundNamesList_eq : ∀ ps : List Pattern,
    Pattern.boundNamesList ps =
      (Pattern.allNamesList ps).filterMap fun bound => if bound.2 then some bound.1 else none
  | [] => by simp [Pattern.boundNamesList, Pattern.allNamesList]
  | p :: ps => by
    simp [Pattern.boundNamesList, Pattern.allNamesList, Pattern.boundNames_eq p, Pattern.boundNamesList_eq ps]

end

theorem Declarator.bindings_rows (d : Declarator) :
    (d.bindings.map Binding.toLocal).map Locals.row =
      (d.target.allNames.map fun bound => (⟨bound.1, false, bound.2⟩ : Declared)).filterMap Declared.row? := by
  rw [bindings, Pattern.boundNames_eq, List.filterMap_map, List.map_filterMap, List.map_filterMap, List.map_filterMap]
  refine List.filterMap_congr fun bound _ => ?_
  cases h : bound.2 <;>
    simp [h, Declared.row?, Binding.toLocal, Locals.row, Local.isType, SymbolKind.isTypeOnly]

theorem Decl.bindings_rows : ∀ d : Decl,
    (d.bindings.map Binding.toLocal).map Locals.row = d.declared.filterMap Declared.row?
  | .variables _ _ _ declarators => by
    simp only [bindings, declared, List.map_flatMap, List.filterMap_flatMap, Declarator.bindings_rows]
  | .function ⟨head, _, _, _, body⟩ => by
    -- Only a signature that is not ambient is declared without being recorded.
    cases name : head.name <;> cases isDeclared : head.isDeclared <;> cases body <;>
      simp [bindings, declared, Func.bindings, Func.bindings.named, name, isDeclared, Declared.row?, Binding.toLocal,
        Locals.row, Local.isType, SymbolKind.isTypeOnly]
  | .classDecl cls => by
    cases name : cls.head.name <;>
      simp [bindings, declared, name, Declared.row?, Binding.toLocal, Locals.row, Local.isType,
        SymbolKind.isTypeOnly]
  | .interface .. | .typeAlias .. | .enumeration .. | .importAlias .. => rfl
  | .namespaceDecl _ _ _ (.path ..) _ | .namespaceDecl _ _ _ (.quoted _) _ | .namespaceDecl _ _ _ .global _ => rfl

theorem Decl.defaultLocals_rows (d : Decl) :
    d.defaultLocals.map Locals.row = d.defaultDeclared.filterMap Declared.row? := by
  cases d with
  | classDecl cls =>
    cases name : cls.head.name <;>
      simp [defaultLocals, defaultDeclared, name, Locals.row, Declared.row?, Local.isType, SymbolKind.isTypeOnly]
  | function func =>
    cases name : func.head.name <;>
      simp [defaultLocals, defaultDeclared, name, Locals.row, Declared.row?, Local.isType, SymbolKind.isTypeOnly]
  | _ => rfl

theorem ImportSpecifier.toLocal_row (isTypeOnly : Bool) (specifier : ImportSpecifier) :
    some (Locals.row (specifier.toLocal isTypeOnly)) = (specifier.declared isTypeOnly).row? := by
  cases specifier <;> simp [toLocal, declared, Locals.row, Declared.row?, Local.isType, SymbolKind.isTypeOnly]

theorem Stmt.locals_rows (statement : Stmt) :
    statement.locals.map Locals.row = statement.declared.filterMap Declared.row? := by
  cases statement with
  | decl d => exact d.bindings_rows
  | exportDecl span isTypeOnly d => exact d.bindings_rows
  | exportDefaultDecl span d => exact d.defaultLocals_rows
  | importNames data =>
    simp only [locals, declared, List.filterMap_map, List.map_map]
    rw [← List.filterMap_eq_map]
    exact List.filterMap_congr fun specifier _ => specifier.toLocal_row _
  | _ => rfl

/-- The top-level names of a module are those of the recorded declarations. -/
theorem Program.locals_rows (p : Program) : p.locals.map Locals.row = p.declared.filterMap Declared.row? := by
  simp only [locals, declared, List.map_flatMap, List.filterMap_flatMap, Stmt.locals_rows]

/-! ### The verdict -/

/-- The recorded declarations of a name. -/
def Program.recorded (p : Program) (name : String) : List Declared :=
  (p.declarations name).filter Declared.isRecorded

/-- A name stands for a type if its last recorded declaration is one. -/
theorem Program.resolve?_isType (p : Program) (name : String) :
    (p.locals.resolve? name).map Local.isType = (p.recorded name).getLast?.map Declared.isType := by
  let pick (e : String × Bool) : Option Bool := if e.1 = name then some e.2 else none
  have resolved : (p.locals.filterMap fun b => if b.1 = name then some b.2 else none).map Local.isType =
      (p.locals.map Locals.row).filterMap pick := by
    rw [List.map_filterMap, List.filterMap_map]
    refine List.filterMap_congr fun b _ => ?_
    by_cases h : b.1 = name <;> simp [pick, h, Locals.row]
  have recorded : (p.recorded name).map Declared.isType = (p.declared.filterMap Declared.row?).filterMap pick := by
    rw [Program.recorded, declarations, List.filter_filter, List.filterMap_filterMap, ← List.filterMap_eq_map,
      List.filterMap_filter]
    refine List.filterMap_congr fun d _ => ?_
    by_cases h : d.name = name <;> cases r : d.isRecorded <;> simp [pick, h, r, Declared.row?]
  rw [Locals.resolve?_eq_getLast?, ← List.getLast?_map, ← List.getLast?_map, resolved, recorded, locals_rows]

theorem ExportSpecifier.toExport_isTypeOnly {locals : Locals} {list : ExportList} {specifier : ExportSpecifier}
    (source : list.source = none) (plain : list.isTypeOnly = false) (plain' : specifier.isTypeOnly = false) :
    (specifier.toExport locals list).isTypeOnly =
      ((locals.resolve? specifier.name.text).map Local.isType).getD false := by
  unfold toExport
  cases found : locals.resolve? specifier.name.text with
  | none => simp [source, plain, plain', found, ExportedSymbol.isTypeOnly, SymbolKind.isTypeOnly]
  | some l => simp [source, plain, plain', found, ExportedSymbol.isTypeOnly, Local.isType]

/-- Whether all are good can be told by the last one that is seen exactly if one is seen unless some are bad, and all
are good if that one is. -/
theorem getLast?_decides {α : Type} {good : α → Bool} {all seen : List α} (sub : ∀ a ∈ seen, a ∈ all) :
    (((seen.getLast?.map good).getD false = true) ↔ ∀ a ∈ all, good a = true) ↔
      (seen = [] → ∃ a ∈ all, good a = false) ∧
        ∀ last ∈ seen.getLast?, good last = true → ∀ a ∈ all, good a = true := by
  cases found : seen.getLast? with
  | none =>
    obtain rfl := List.getLast?_eq_none_iff.mp found
    simp
  | some last =>
    have mem : last ∈ seen := List.mem_of_getLast? found
    have nonempty : seen ≠ [] := List.ne_nil_of_mem mem
    have own : (∀ a ∈ all, good a = true) → good last = true := fun h => h last (sub last mem)
    constructor
    · intro h
      exact ⟨fun empty => absurd empty nonempty, fun _ same good => by cases same; exact h.mp good⟩
    · rintro ⟨-, h⟩
      exact ⟨h last rfl, own⟩

/-- What comes of a name in an export list, if nothing marks it as a type.  It counts as a type if its last recorded
declaration is one.  That is as it should be, namely exactly if all of its declarations are types, unless the last
recorded declaration is a type and another is not, or all are types and none of them is recorded. -/
theorem Program.specifier_isTypeOnly (p : Program) (list : ExportList) (specifier : ExportSpecifier)
    (exported : .exportList list ∈ p.statements) (listed : specifier ∈ list.specifiers) (source : list.source = none)
    (plain : list.isTypeOnly = false) (plain' : specifier.isTypeOnly = false) :
    let symbol := specifier.toExport p.locals list
    let all := p.declarations specifier.name.text
    let recorded := p.recorded specifier.name.text
    symbol ∈ p.exports ∧
      symbol.isTypeOnly = (recorded.getLast?.map Declared.isType).getD false ∧
      ((symbol.isTypeOnly = true ↔ ∀ d ∈ all, d.isType = true) ↔
        (recorded = [] → ∃ d ∈ all, d.isType = false) ∧
          ∀ last ∈ recorded.getLast?, last.isType = true → ∀ d ∈ all, d.isType = true) := by
  intro symbol all recorded
  have verdict : symbol.isTypeOnly = (recorded.getLast?.map Declared.isType).getD false := by
    rw [ExportSpecifier.toExport_isTypeOnly source plain plain', p.resolve?_isType]
  refine ⟨List.mem_flatMap.mpr ⟨_, exported, List.mem_map_of_mem listed⟩, verdict, ?_⟩
  rw [verdict]
  exact getLast?_decides fun d hd => (List.mem_filter.mp hd).1

/-! ### A value that is declared as a type later -/

/-- The export of the name. -/
def mergedName : ExportSpecifier :=
  ⟨⟨39, 40⟩, false, .bare "X", .bare "X"⟩

/-- An export list with the name alone. -/
def mergedList : ExportList :=
  ⟨⟨30, 43⟩, false, [mergedName], none⟩

/-- A module that declares a name as a constant and then as a type. -/
def mergedModule : Program where
  statements := [
    .decl (.variables ⟨0, 12⟩ false "const"
      [⟨⟨6, 11⟩, .name ⟨6, 7⟩ "X" ⟨false, none⟩, false, some (.number ⟨10, 11⟩ ⟨0x3FF0000000000000⟩)⟩]),
    .decl (.typeAlias { span := ⟨13, 29⟩, name := "X" } [] ⟨[.text "number"]⟩),
    .exportList mergedList]

/-- The last declaration decides. -/
theorem Program.specifier_mergedName :
    (mergedName.toExport mergedModule.locals mergedList).isTypeOnly =
      ((mergedModule.recorded "X").getLast?.map Declared.isType).getD false :=
  (specifier_isTypeOnly mergedModule mergedList mergedName (by simp [mergedModule]) (by simp [mergedList])
    rfl rfl rfl).2.1

/-- The name counts as a type, although one of its declarations is a value. -/
theorem Program.mergedName_isTypeOnly :
    mergedModule.exports = [mergedName.toExport mergedModule.locals mergedList] ∧
      mergedModule.declarations "X" = [⟨"X", false, true⟩, ⟨"X", true, true⟩] ∧
      (mergedName.toExport mergedModule.locals mergedList).isTypeOnly = true :=
  ⟨by decide, by decide, by decide⟩

end ComponentHoist

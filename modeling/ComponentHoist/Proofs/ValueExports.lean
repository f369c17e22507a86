import ComponentHoist.Proofs.TypeOnly
import Mathlib.Data.List.Pairwise

/-!
# ComponentHoist.Proofs.ValueExports — which exports exist at run time

A name that a module exports with a value should be in the table of its exports, and not as a type.  It is, in all forms
in which a name can be exported but one: an alias of an import that is exported where it is declared.

* `Stmt.ExportsValue`: the names that a statement exports with a value, by the form of the statement.
* `Program.DeclaresOnce`: no name is declared by two statements, where the signatures of a function do not count.
* `Program.isType_of_isValue`: in such a module a name that has a value was not last recorded as a type.
* `Program.exports_value_iff`: a name that is exported with a value is in the table unless only an alias exports it.
-/

namespace ComponentHoist

/-! ### Values -/

/-- Whether the function is written out. -/
def Func.hasBody (f : Func) : Bool :=
  match f.body with
  | .absent => false
  | _ => true

namespace Decl

/-- The names to which a declaration gives a value.  Types have none, and neither have ambient declarations and the
signatures of a function. -/
def values : Decl → List String
  | .variables _ isDeclared _ declarators =>
    if isDeclared then [] else declarators.flatMap fun d => d.target.allNames.map Prod.fst
  | .function func => if func.hasBody then func.head.name.toList else []
  | .classDecl cls => if cls.head.isDeclared then [] else cls.head.name.toList
  | .enumeration head _ => if head.isDeclared then [] else [head.name]
  | .namespaceDecl _ isDeclared _ (.path name _) _ => if isDeclared then [] else [name]
  | .importAlias _ isTypeOnly name _ => if isTypeOnly then [] else [name]
  | .namespaceDecl .. | .interface .. | .typeAlias .. => []

/-- The names to which a declaration behind `export default` gives a value. -/
def defaultValues : Decl → List String
  | .classDecl cls => (Decl.classDecl cls).values
  | .function func => (Decl.function func).values
  | _ => []

/-- Whether the declaration is a signature of a function that is written out elsewhere. -/
def isSignature : Decl → Bool
  | .function func => !func.hasBody && !func.head.isDeclared
  | _ => false

/-- Whether the declaration is an alias of an import. -/
def isAlias : Decl → Bool
  | .importAlias .. => true
  | _ => false

/-- Whether no variable is bound under a default value. -/
def BindsPlainly : Decl → Prop
  | .variables _ _ _ declarators => ∀ d ∈ declarators, ∀ bound ∈ d.target.allNames, bound.2 = true
  | _ => True

end Decl

namespace Stmt

/-- The names to which a statement gives a value.  An import does so unless it imports the name as a type. -/
def values : Stmt → List String
  | .decl d => d.values
  | .exportDecl _ _ d => d.values
  | .exportDefaultDecl _ d => d.defaultValues
  | .importNames data =>
    let bound := (data.specifiers.getD []).map (ImportSpecifier.declared data.isTypeOnly)
    (bound.filter fun d => bound.all fun e => e.name ≠ d.name || !e.isType).map Declared.name
  | _ => []

/-- Whether the statement is a signature of a function. -/
def isSignature : Stmt → Bool
  | .decl d | .exportDecl _ _ d | .exportDefaultDecl _ d => d.isSignature
  | _ => false

/-- Whether the statement exports an alias of an import where it declares it. -/
def isAliasExport : Stmt → Bool
  | .exportDecl _ _ d => d.isAlias
  | _ => false

/-- Whether two statements declare no name in common. -/
def Apart (s t : Stmt) : Prop :=
  ∀ a ∈ s.declared, ∀ b ∈ t.declared, a.name ≠ b.name

instance : Std.Symm Apart where
  symm _ _ apart a ha b hb := (apart b hb a ha).symm

/-- Whether the statement binds no variable under a default value. -/
def BindsPlainly : Stmt → Prop
  | .decl d | .exportDecl _ _ d => d.BindsPlainly
  | _ => True

end Stmt

namespace Program

/-- Whether a name has a value at the top level of a module: a statement gives it one, or it is none of the names of the
module. -/
def IsValue (p : Program) (name : String) : Prop :=
  (∃ s ∈ p.statements, name ∈ s.values) ∨ p.declarations name = []

/-- Whether no variable of a module is bound under a default value. -/
def BindsPlainly (p : Program) : Prop :=
  ∀ s ∈ p.statements, s.BindsPlainly

/-- Whether no name is declared by two statements, where signatures do not count. -/
def DeclaresOnce (p : Program) : Prop :=
  (p.statements.filter fun s => !s.isSignature).Pairwise Stmt.Apart

end Program

/-- The names that a statement of a module exports with a value. -/
inductive Stmt.ExportsValue (p : Program) : Stmt → String → Prop
  /-- A declaration that is exported where it stands. -/
  | inline {span : Span} {d : Decl} {name : String} (value : name ∈ d.values) :
    ExportsValue p (.exportDecl span false d) name
  /-- A name in an export list, of the module itself or of another one. -/
  | listed {list : ExportList} {specifier : ExportSpecifier} (mem : specifier ∈ list.specifiers)
    (unmarked : list.isTypeOnly = false) (unmarked' : specifier.isTypeOnly = false)
    (value : list.source = none → p.IsValue specifier.name.text) :
    ExportsValue p (.exportList list) specifier.exported.text
  /-- An expression, which has a value unless it is the name of something that has none. -/
  | defaultExpr {span : Span} {value : Expr} (named : ∀ place name, value = .ident place name → p.IsValue name) :
    ExportsValue p (.exportDefault span value) "default"
  | defaultClass {span : Span} {cls : Class} : ExportsValue p (.exportDefaultDecl span (.classDecl cls)) "default"
  | defaultFunction {span : Span} {func : Func} : ExportsValue p (.exportDefaultDecl span (.function func)) "default"
  /-- Another module as an object. -/
  | namespaceOf {data : ExportAll} {name : Label} (unmarked : data.isTypeOnly = false)
    (named : data.exported = some name) : ExportsValue p (.exportAll data) name.text
  /-- All names of another module, for which the table has an asterisk. -/
  | allOf {data : ExportAll} (unmarked : data.isTypeOnly = false) (bare : data.exported = none) :
    ExportsValue p (.exportAll data) "*"
  | assignment {span : Span} {value : Expr} : ExportsValue p (.exportAssignment span value) "export="

variable {p : Program} {s : Stmt} {d : Decl} {name : String}

/-! ### What is declared with a value is not recorded as a type -/

/-- A declaration that gives a value to a name declares no types.  That of the name is recorded, unless the name is
bound under a default value or is an alias. -/
theorem Decl.declared_of_value : ∀ {d : Decl}, name ∈ d.values →
    d.isSignature = false ∧ (∀ e ∈ d.declared, e.isType = false) ∧
      ∃ e ∈ d.declared, e.name = name ∧ (d.BindsPlainly → d.isAlias = false → e.isRecorded = true)
  | .variables _ isDeclared _ declarators, value => by
    have bound : name ∈ declarators.flatMap fun d => d.target.allNames.map Prod.fst := by
      cases isDeclared with
      | true => cases value
      | false => exact value
    obtain ⟨declarator, mem, listed⟩ := List.mem_flatMap.mp bound
    obtain ⟨pair, found, rfl⟩ := List.mem_map.mp listed
    refine ⟨rfl, fun e he => ?_, _, List.mem_flatMap.mpr ⟨declarator, mem, List.mem_map_of_mem found⟩, rfl,
      fun plain _ => plain declarator mem pair found⟩
    obtain ⟨_, _, there⟩ := List.mem_flatMap.mp he
    obtain ⟨_, _, rfl⟩ := List.mem_map.mp there
    rfl
  | .function func, value => by
    have written : func.hasBody = true := by
      cases h : func.hasBody <;> simp_all [values]
    have named : func.head.name = some name := by simpa [values, written] using value
    cases body : func.body <;> simp_all [isSignature, declared, Func.hasBody]
  | .classDecl cls, value => by
    have named : cls.head.name = some name := by
      cases ambient : cls.head.isDeclared <;> simp_all [values]
    simp [isSignature, declared, named]
  | .enumeration head _, value => by
    have named : head.name = name := by
      cases ambient : head.isDeclared <;> simp_all [values]
    simp [isSignature, declared, named]
  | .namespaceDecl _ isDeclared _ (.path first _) _, value => by
    have named : first = name := by
      cases isDeclared <;> simp_all [values]
    simp [isSignature, declared, named]
  | .importAlias _ isTypeOnly bound _, value => by
    have named : bound = name ∧ isTypeOnly = false := by
      cases isTypeOnly <;> simp_all [values]
    simp [isSignature, declared, named, isAlias]

theorem Decl.defaultDeclared_of_value (value : name ∈ d.defaultValues) :
    d.isSignature = false ∧ (∀ e ∈ d.defaultDeclared, e.isType = false) ∧ ∃ e ∈ d.defaultDeclared, e.name = name := by
  cases d with
  | classDecl cls =>
    have given : name ∈ (Decl.classDecl cls).values := value
    obtain ⟨written, types, e, mem, named, -⟩ := declared_of_value given
    exact ⟨written, types, e, mem, named⟩
  | function func =>
    have given : name ∈ (Decl.function func).values := value
    obtain ⟨written, -⟩ := declared_of_value given
    have named : func.head.name = some name := by
      cases h : func.hasBody <;> simp_all [values]
    simp [written, defaultDeclared, named]
  | _ => cases value

/-- A statement that gives a value to a name declares it, and not as a type. -/
theorem Stmt.declared_of_value (value : name ∈ s.values) :
    s.isSignature = false ∧ (∀ e ∈ s.declared, e.name = name → e.isType = false) ∧
      ∃ e ∈ s.declared, e.name = name := by
  cases s with
  | decl d =>
    obtain ⟨written, types, e, mem, named, -⟩ := Decl.declared_of_value value
    exact ⟨written, fun e he _ => types e he, e, mem, named⟩
  | exportDecl span isTypeOnly d =>
    obtain ⟨written, types, e, mem, named, -⟩ := Decl.declared_of_value value
    exact ⟨written, fun e he _ => types e he, e, mem, named⟩
  | exportDefaultDecl span d =>
    obtain ⟨written, types, declared⟩ := Decl.defaultDeclared_of_value value
    exact ⟨written, fun e he _ => types e he, declared⟩
  | importNames data =>
    obtain ⟨d, listed, rfl⟩ := List.mem_map.mp value
    obtain ⟨mem, plain⟩ := List.mem_filter.mp listed
    refine ⟨rfl, fun e he same => ?_, d, mem, rfl⟩
    simpa [same] using List.all_eq_true.mp plain e he
  | _ => cases value

/-- A type is not declared by a signature. -/
theorem Stmt.isSignature_of_isType {e : Declared} (declared : e ∈ s.declared) (type : e.isType = true) :
    s.isSignature = false := by
  have signature {d : Decl} (h : e ∈ d.declared ∨ e ∈ d.defaultDeclared) : d.isSignature = false := by
    cases d with
    | function func =>
      rcases h with h | h
      · obtain ⟨_, _, rfl⟩ := List.mem_map.mp h
        cases type
      · obtain ⟨_, _, rfl⟩ := List.mem_map.mp h
        cases type
    | _ => rfl
  cases s with
  | decl d => exact signature (.inl declared)
  | exportDecl span isTypeOnly d => exact signature (.inl declared)
  | exportDefaultDecl span d => exact signature (.inr declared)
  | _ => rfl

/-- In a module that declares each name once, a name that has a value is not recorded as a type. -/
theorem Program.isType_of_isValue (once : p.DeclaresOnce) (value : p.IsValue name) {e : Declared}
    (recorded : e ∈ p.recorded name) : e.isType = false := by
  have declared : e ∈ p.declarations name := (List.mem_filter.mp recorded).1
  rcases value with ⟨s, hs, given⟩ | foreign
  · obtain ⟨written, types, own, mem, named⟩ := Stmt.declared_of_value given
    obtain ⟨listed, same⟩ := List.mem_filter.mp declared
    obtain ⟨t, ht, there⟩ := List.mem_flatMap.mp listed
    have name_e : e.name = name := by simpa using same
    by_contra type
    rw [Bool.not_eq_false] at type
    have first : s ∈ p.statements.filter fun s => !s.isSignature := List.mem_filter.mpr ⟨hs, by simp [written]⟩
    have second : t ∈ p.statements.filter fun s => !s.isSignature :=
      List.mem_filter.mpr ⟨ht, by simp [Stmt.isSignature_of_isType there type]⟩
    -- The value and the type are declared by one statement, and there is none that declares both.
    by_cases place : s = t
    · subst place
      rw [types e there name_e] at type
      cases type
    · have apart : s.Apart t := List.Pairwise.forall once first second place
      exact apart own mem e there (named.trans name_e.symm)
  · rw [foreign] at declared
    cases declared

theorem Program.resolve?_isType_of_isValue (once : p.DeclaresOnce) (value : p.IsValue name) :
    ((p.locals.resolve? name).map Local.isType).getD false = false := by
  rw [resolve?_isType]
  cases found : (p.recorded name).getLast? with
  | none => rfl
  | some last => exact isType_of_isValue once value (List.mem_of_getLast? found)

/-! ### What is exported with a value is in the table -/

theorem Decl.exists_binding_of_value (plain : d.BindsPlainly) (noAlias : d.isAlias = false) (value : name ∈ d.values) :
    ∃ b ∈ d.bindings, b.name = name ∧ b.kind.isTypeOnly = false := by
  obtain ⟨-, types, e, mem, named, recorded⟩ := declared_of_value value
  have row : (name, false) ∈ (d.bindings.map Binding.toLocal).map Locals.row := by
    rw [bindings_rows]
    refine List.mem_filterMap.mpr ⟨e, mem, ?_⟩
    rw [Declared.row?, if_pos (recorded plain noAlias), named, types e mem]
  obtain ⟨l, hl, same⟩ := List.mem_map.mp row
  obtain ⟨b, hb, rfl⟩ := List.mem_map.mp hl
  obtain ⟨named, type⟩ := Prod.mk.injEq .. ▸ same
  exact ⟨b, hb, named, by simpa [Local.isType, Binding.toLocal] using type⟩

theorem ExportSpecifier.name_toExport (locals : Locals) (list : ExportList) (specifier : ExportSpecifier) :
    (specifier.toExport locals list).name = specifier.exported.text := by
  cases source : list.source with
  | some _ => simp [toExport, source]
  | none => cases found : locals.resolve? specifier.name.text <;> simp [toExport, source, found]

/-- What is exported from another module is a type only if it is marked as one. -/
theorem ExportSpecifier.toExport_isTypeOnly_of_source {locals : Locals} {list : ExportList}
    {specifier : ExportSpecifier} {source : ModuleSource} (other : list.source = some source) :
    (specifier.toExport locals list).isTypeOnly = (list.isTypeOnly || specifier.isTypeOnly) := by
  simp [toExport, other, ExportedSymbol.isTypeOnly, SymbolKind.isTypeOnly]

theorem Expr.name_toDefaultExport (locals : Locals) (span : Span) (value : Expr) :
    (value.toDefaultExport locals span).name = "default" := by
  cases value with
  | ident place name =>
    cases found : locals.resolve? name <;> simp [toDefaultExport, found, defaultExportName]
  | _ => rfl

theorem Expr.toDefaultExport_isTypeOnly (once : p.DeclaresOnce) (span : Span) {value : Expr}
    (named : ∀ place name, value = .ident place name → p.IsValue name) :
    (value.toDefaultExport p.locals span).isTypeOnly = false := by
  cases value with
  | ident place name =>
    have type := Program.resolve?_isType_of_isValue once (named place name rfl)
    cases found : p.locals.resolve? name with
    | none => simp [toDefaultExport, found, ExportedSymbol.isTypeOnly, SymbolKind.isTypeOnly]
    | some l =>
      rw [found] at type
      have kind : l.kind.isTypeOnly = false := (Bool.or_eq_false_iff.mp type).2
      simp [toDefaultExport, found, ExportedSymbol.isTypeOnly, kind]
  | _ => rfl

/-- What a statement exports with a value is among its symbols, and not as a type, if the statement exports no alias. -/
theorem Stmt.exists_export_of_value (plain : s.BindsPlainly) (once : p.DeclaresOnce)
    (noAlias : s.isAliasExport = false) (value : s.ExportsValue p name) :
    ∃ symbol ∈ s.exports p.locals, symbol.name = name ∧ symbol.isTypeOnly = false := by
  cases value with
  | inline value =>
    obtain ⟨b, hb, named, kind⟩ := Decl.exists_binding_of_value plain noAlias value
    exact ⟨_, List.mem_map_of_mem hb, named, by simp [Binding.toExport, ExportedSymbol.isTypeOnly, kind]⟩
  | @listed list specifier mem unmarked unmarked' value =>
    refine ⟨_, List.mem_map_of_mem mem, specifier.name_toExport _ list, ?_⟩
    cases source : list.source with
    | some other =>
      rw [ExportSpecifier.toExport_isTypeOnly_of_source source, unmarked, unmarked']
      rfl
    | none =>
      rw [ExportSpecifier.toExport_isTypeOnly source unmarked unmarked']
      exact Program.resolve?_isType_of_isValue once (value source)
  | @defaultExpr span value named =>
    have type := Expr.toDefaultExport_isTypeOnly once span named
    exact ⟨_, List.mem_singleton_self _, value.name_toDefaultExport _ span, type⟩
  | defaultClass => exact ⟨_, List.mem_singleton_self _, rfl, rfl⟩
  | defaultFunction => exact ⟨_, List.mem_singleton_self _, rfl, rfl⟩
  | namespaceOf unmarked named =>
    refine ⟨_, List.mem_singleton_self _, by simp [named], ?_⟩
    simp [ExportedSymbol.isTypeOnly, unmarked, SymbolKind.isTypeOnly]
  | allOf unmarked bare =>
    refine ⟨_, List.mem_singleton_self _, by simp [bare], ?_⟩
    simp [ExportedSymbol.isTypeOnly, unmarked, SymbolKind.isTypeOnly]
  | assignment => exact ⟨_, List.mem_singleton_self _, rfl, rfl⟩

/-- An alias that is exported where it is declared leaves no trace in the table. -/
theorem Stmt.exports_of_isAliasExport (locals : Locals) (exported : s.isAliasExport = true) :
    s.exports locals = [] := by
  cases s with
  | exportDecl span isTypeOnly d =>
    cases d with
    | importAlias => rfl
    | _ => cases exported
  | _ => cases exported

namespace Program

/-- In a module that declares each name once and binds no variable under a default value, a name that a statement
exports with a value is in the table of exports, and not as a type.  The one exception is a statement that exports an
alias where it declares it.  Then the name is there only if another statement happens to export it as well. -/
theorem exports_value_iff (p : Program) (plain : p.BindsPlainly) (once : p.DeclaresOnce) {s : Stmt} {name : String}
    (hs : s ∈ p.statements) (value : s.ExportsValue p name) :
    (∃ symbol ∈ p.exports, symbol.name = name ∧ symbol.isTypeOnly = false) ↔
      s.isAliasExport = false ∨
        ∃ other ∈ p.statements, other.isAliasExport = false ∧
          ∃ symbol ∈ other.exports p.locals, symbol.name = name ∧ symbol.isTypeOnly = false := by
  constructor
  · rintro ⟨symbol, mem, found⟩
    obtain ⟨other, hother, here⟩ := List.mem_flatMap.mp mem
    have noAlias : other.isAliasExport = false := by
      by_contra exported
      rw [Bool.not_eq_false] at exported
      rw [Stmt.exports_of_isAliasExport p.locals exported] at here
      cases here
    exact .inr ⟨other, hother, noAlias, symbol, here, found⟩
  · rintro (noAlias | ⟨other, hother, -, symbol, here, found⟩)
    · obtain ⟨symbol, here, found⟩ := Stmt.exists_export_of_value (plain s hs) once noAlias value
      exact ⟨symbol, List.mem_flatMap.mpr ⟨s, hs, here⟩, found⟩
    · exact ⟨symbol, List.mem_flatMap.mpr ⟨other, hother, here⟩, found⟩

end Program

/-! ### An alias of a part of a namespace -/

/-- An alias that is exported where it is declared. -/
def aliasStatement : Stmt :=
  .exportDecl ⟨36, 58⟩ false (.importAlias ⟨43, 58⟩ false "A" (.entity "B.C"))

/-- The export of the name of a namespace. -/
def namespaceSpecifier : ExportSpecifier :=
  ⟨⟨68, 69⟩, false, .bare "B", .bare "B"⟩

/-- An export list with that name alone. -/
def namespaceList : ExportList :=
  ⟨⟨59, 72⟩, false, [namespaceSpecifier], none⟩

/-- A module that declares a namespace and an alias of a constant in it, and exports both. -/
def aliasModule : Program where
  statements := [
    .decl (.namespaceDecl ⟨0, 35⟩ false "namespace" (.path "B" [])
      (some [.exportDecl ⟨14, 33⟩ false (.variables ⟨21, 33⟩ false "const"
        [⟨⟨27, 32⟩, .name ⟨27, 28⟩ "C" ⟨false, none⟩, false, some (.number ⟨31, 32⟩ ⟨0x3FF0000000000000⟩)⟩])])),
    aliasStatement,
    .exportList namespaceList]

namespace Program

theorem aliasModule_bindsPlainly : aliasModule.BindsPlainly := by
  intro s hs
  simp only [aliasModule, List.mem_cons, List.not_mem_nil, or_false] at hs
  rcases hs with rfl | rfl | rfl <;> exact trivial

theorem aliasModule_declaresOnce : aliasModule.DeclaresOnce := by
  have all : aliasModule.statements.filter (fun s => !s.isSignature) = aliasModule.statements := rfl
  rw [DeclaresOnce, all]
  simp [aliasModule, aliasStatement, Stmt.Apart, Stmt.declared, Decl.declared]

/-- The namespace is in the table. -/
theorem exports_namespaceList :
    aliasModule.BindsPlainly ∧ aliasModule.DeclaresOnce ∧ .exportList namespaceList ∈ aliasModule.statements ∧
      (Stmt.exportList namespaceList).ExportsValue aliasModule "B" ∧
      ∃ symbol ∈ aliasModule.exports, symbol.name = "B" ∧ symbol.isTypeOnly = false := by
  have listed : .exportList namespaceList ∈ aliasModule.statements := by simp [aliasModule]
  have isValue : aliasModule.IsValue "B" :=
    .inl ⟨_, List.mem_cons_self, by simp [Stmt.values, Decl.values]⟩
  have named : namespaceSpecifier ∈ namespaceList.specifiers := List.mem_cons_self
  have value : (Stmt.exportList namespaceList).ExportsValue aliasModule "B" := .listed named rfl rfl fun _ => isValue
  exact ⟨aliasModule_bindsPlainly, aliasModule_declaresOnce, listed, value,
    (exports_value_iff aliasModule aliasModule_bindsPlainly aliasModule_declaresOnce listed value).mpr (.inl rfl)⟩

/-- The alias is not. -/
theorem alias_notExported :
    aliasModule.BindsPlainly ∧ aliasModule.DeclaresOnce ∧ aliasStatement ∈ aliasModule.statements ∧
      aliasStatement.ExportsValue aliasModule "A" ∧ ∀ symbol ∈ aliasModule.exports, symbol.name ≠ "A" := by
  have value : aliasStatement.ExportsValue aliasModule "A" := .inline List.mem_cons_self
  exact ⟨aliasModule_bindsPlainly, aliasModule_declaresOnce, by simp [aliasModule], value, by decide⟩

end Program
end ComponentHoist

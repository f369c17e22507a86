import ComponentHoist.Proofs.ExportForms
import ComponentHoist.Proofs.Verdict

/-!
# ComponentHoist.Proofs.Overloads — functions that are exported together with their signatures

A function can be written out behind any number of signatures, and all of them together are one function.  So they
should be exported as one symbol, which stands for the part that is written out.  They are, except behind
`export default`, where every signature gives a symbol of its own.

* `Overloaded`: a function with its signatures, and `Overloaded.statements` for the ways to declare it.
* `Overloaded.exports_exported`, `Overloaded.exports_asDefault`: what the statements export.
* `Overloaded.resolve?_statements`: what its name stands for in a module.
* `Overloaded.IsExportedOnce`: what should come of an export of the function.
* `Program.exports_overloaded`: when it does, for each way to export the function.
-/

namespace ComponentHoist

/-! ### Functions with their signatures -/

/-- A function that is written out behind any number of signatures, each part with the span of its statement.  It may
have no name if it is the default of its module. -/
structure Overloaded where
  name : Option String
  signatures : List (Span × Func)
  /-- The part that is written out. -/
  implementation : Span × Func
  unwritten : ∀ part ∈ signatures, (Decl.function part.2).isSignature = true
  written : implementation.2.hasBody = true
  named : ∀ part ∈ signatures ++ [implementation], part.2.head.name = name

/-- The ways to declare a function. -/
inductive DeclarationForm where
  /-- Without an export. -/
  | bare
  /-- Exported under its own name. -/
  | exported
  /-- Exported as the default of the module. -/
  | asDefault
deriving DecidableEq, Repr

namespace Overloaded

variable (o : Overloaded) {locals : Locals} {name : String}

/-- The signatures and the part that is written out, in the order of the text. -/
def parts : List (Span × Func) :=
  o.signatures ++ [o.implementation]

/-- The place where the function is written out. -/
def span : Span :=
  o.implementation.2.head.span

/-- The statements that declare the function. -/
def statements : DeclarationForm → List Stmt
  | .bare => o.parts.map fun part => .decl (.function part.2)
  | .exported => o.parts.map fun part => (Decl.function part.2).exported part.1
  | .asDefault => o.parts.map fun part => .exportDefaultDecl part.1 (.function part.2)

theorem name_implementation : o.implementation.2.head.name = o.name :=
  o.named _ (List.mem_append_right _ (List.mem_singleton_self _))

/-- What the parts contribute is what the last part contributes, if a signature contributes nothing. -/
theorem flatMap_parts {α : Type} {f : Span × Func → List α} (silent : ∀ part ∈ o.signatures, f part = []) :
    o.parts.flatMap f = f o.implementation := by
  rw [parts, List.flatMap_append, List.flatMap_eq_nil_iff.mpr silent, List.nil_append, List.flatMap_singleton]

/-! ### What the statements export -/

theorem bindings_of_mem_signatures {part : Span × Func} (signature : part ∈ o.signatures) :
    (Decl.function part.2).bindings = [] := by
  have bare := o.unwritten part signature
  cases body : part.2.body <;> simp_all [Decl.isSignature, Decl.bindings, Func.bindings, Func.hasBody]

theorem bindings_implementation :
    (Decl.function o.implementation.2).bindings = o.name.toList.map fun name => ⟨name, .function, o.span⟩ := by
  have written := o.written
  rw [← o.name_implementation]
  cases body : o.implementation.2.body <;>
    simp_all [Decl.bindings, Func.bindings, Func.bindings.named, Func.hasBody, span]

/-- A function that is only declared is not exported. -/
theorem exports_bare : (o.statements .bare).flatMap (Stmt.exports locals) = [] := by
  rw [statements, List.flatMap_map]
  exact List.flatMap_eq_nil_iff.mpr fun _ _ => rfl

/-- Under its own name the function is exported once, as the part that is written out. -/
theorem exports_exported (named : o.name = some name) :
    ((o.statements .exported).flatMap (Stmt.exports locals)).map ExportedSymbol.declaration = [o.span] := by
  have silent : ∀ part ∈ o.signatures, ((Decl.function part.2).exported part.1).exports locals = [] := by
    intro part signature
    rw [Decl.exported, Stmt.exports, o.bindings_of_mem_signatures signature, List.map_nil]
  rw [statements, List.flatMap_map, o.flatMap_parts silent, Decl.exported, Stmt.exports, o.bindings_implementation,
    named]
  rfl

/-- The symbol of a part behind `export default`. -/
def defaultSymbol (part : Span × Func) : ExportedSymbol :=
  ⟨defaultExportName, o.name, .function, false, part.2.head.span, some part.1.exportKeyword⟩

/-- As the default of the module each part is exported. -/
theorem exports_asDefault :
    (o.statements .asDefault).flatMap (Stmt.exports locals) = o.parts.map o.defaultSymbol := by
  rw [statements, List.flatMap_map, List.map_eq_flatMap]
  refine List.flatMap_congr fun part present => ?_
  rw [Stmt.exports, Decl.toDefaultExport, o.named part present, defaultSymbol]

/-! ### What the name stands for -/

/-- However the function is declared, its name is declared by the last of the statements. -/
theorem statements_eq_append (named : o.name = some name) (form : DeclarationForm) :
    ∃ earlier last, o.statements form = earlier ++ [last] ∧ last.locals = [(name, ⟨.function, false, o.span⟩)] := by
  have own : o.implementation.2.head.name = some name := o.name_implementation.trans named
  have bound : (Decl.function o.implementation.2).bindings = [⟨name, .function, o.span⟩] := by
    rw [o.bindings_implementation, named]
    rfl
  cases form with
  | bare =>
    refine ⟨_, .decl (.function o.implementation.2), List.map_append, ?_⟩
    rw [Stmt.locals, bound]
    rfl
  | exported =>
    refine ⟨_, (Decl.function o.implementation.2).exported o.implementation.1, List.map_append, ?_⟩
    rw [Decl.exported, Stmt.locals, bound]
    rfl
  | asDefault =>
    refine ⟨_, .exportDefaultDecl o.implementation.1 (.function o.implementation.2), List.map_append, ?_⟩
    rw [Stmt.locals, Decl.defaultLocals, own]
    rfl

/-- In a module the name stands for the part that is written out, unless it is declared again behind the function. -/
theorem resolve?_statements (named : o.name = some name) (form : DeclarationForm) (front back : List Stmt) :
    Locals.resolve? ((front ++ o.statements form ++ back).flatMap Stmt.locals) name =
      (Locals.resolve? (back.flatMap Stmt.locals) name).or (some ⟨.function, false, o.span⟩) := by
  obtain ⟨earlier, last, split, declared⟩ := o.statements_eq_append named form
  have own : Locals.resolve? last.locals name = some ⟨.function, false, o.span⟩ := by
    simp [declared, Locals.resolve?]
  rw [split, ← List.append_assoc, List.flatMap_append, List.flatMap_append, List.flatMap_singleton,
    Locals.resolve?_append, Locals.resolve?_append, own]
  rfl

/-! ### One export -/

/-- Whether the symbols are those of one export of the function: there is a single one, it stands for the part that is
written out, and the check of exports reports at most one. -/
structure IsExportedOnce (symbols : List ExportedSymbol) : Prop where
  single : ∃ s, symbols = [s] ∧ s.declaration = o.span
  reported : ∀ (config : Config) (cls : Class), (cls.exportProblems config symbols).length ≤ 1

/-- A single symbol is reported at most once. -/
theorem isExportedOnce_iff {symbols : List ExportedSymbol} :
    o.IsExportedOnce symbols ↔ symbols.map ExportedSymbol.declaration = [o.span] := by
  rw [List.map_eq_singleton_iff]
  refine ⟨IsExportedOnce.single, fun single => ⟨single, fun config cls => ?_⟩⟩
  obtain ⟨s, rfl, -⟩ := single
  unfold Class.exportProblems
  split
  · exact Nat.zero_le 1
  · rw [List.length_map]
    exact List.length_filter_le _ [s]

/-- As the default of the module the function is exported once only if it has no signatures. -/
theorem isExportedOnce_asDefault :
    o.IsExportedOnce ((o.statements .asDefault).flatMap (Stmt.exports locals)) ↔ o.signatures = [] := by
  rw [isExportedOnce_iff, exports_asDefault, List.map_map, parts, List.map_append, List.map_singleton]
  constructor
  · intro single
    have one := congrArg List.length single
    rw [List.length_append, List.length_map, List.length_singleton, List.length_singleton] at one
    exact List.eq_nil_of_length_eq_zero (by omega)
  · intro none
    rw [none]
    rfl

/-- Each part behind `export default` is reported on its own, for a class that has nothing to do with the function. -/
theorem reports_asDefault {config : Config} {cls : Class} (strict : config.isTesting = false)
    (foreign : ∀ part ∈ o.parts, ¬cls.IsItself (o.defaultSymbol part)) :
    cls.exportProblems config ((o.statements .asDefault).flatMap (Stmt.exports locals)) =
      o.parts.map fun part => .extraExport (o.defaultSymbol part) := by
  have all : cls.extraExports (o.parts.map o.defaultSymbol) = o.parts.map o.defaultSymbol := by
    rw [Class.extraExports_eq, List.filter_eq_self]
    intro s listed
    obtain ⟨part, present, rfl⟩ := List.mem_map.mp listed
    exact decide_eq_true fun own => own.elim nofun (foreign part present)
  rw [Class.exportProblems, if_neg (by simp [strict]), exports_asDefault, all, List.map_map]
  rfl

/-- A symbol that stands for what the name stands for is one export of the function, unless the name is declared again
behind the function and stands for something else. -/
theorem isExportedOnce_singleton (named : o.name = some name) (form : DeclarationForm) (front back : List Stmt)
    {s : ExportedSymbol} {place : Span}
    (stands : s.declaration = ((Locals.resolve? ((front ++ o.statements form ++ back).flatMap Stmt.locals) name).map
      Local.declaration).getD place) :
    o.IsExportedOnce [s] ↔
      ∀ l, Locals.resolve? (back.flatMap Stmt.locals) name = some l → l.declaration = o.span := by
  rw [isExportedOnce_iff, List.map_singleton, List.singleton_inj, stands, o.resolve?_statements named]
  cases again : Locals.resolve? (back.flatMap Stmt.locals) name <;> simp

end Overloaded

/-! ### Functions with signatures in a module -/

/-- What is reported of a table is what is reported of its parts. -/
theorem Class.exportProblems_append (cls : Class) (config : Config) (front back : List ExportedSymbol) :
    cls.exportProblems config (front ++ back) =
      cls.exportProblems config front ++ cls.exportProblems config back := by
  unfold exportProblems extraExports
  split
  · rfl
  · rw [List.filter_append, List.map_append]

/-- A function with any number of signatures stands in a module, declared in any of the three ways.  Under its own name
it is exported once.  As the default of the module it is exported once only if it has no signatures, since each
signature is exported, and reported, as the function is.  Its name in an export list, or behind `export default`, gives
a single symbol, which is one export of the function unless the name is declared again behind the function and then
stands for something else. -/
theorem Program.exports_overloaded (o : Overloaded) (p : Program) (front back : List Stmt) (form : DeclarationForm) :
    let whole : Program := { p with statements := front ++ o.statements form ++ back }
    let table := Stmt.exports whole.locals
    let own := (o.statements form).flatMap table
    let standsAgain (name : String) :=
      ∃ l, Locals.resolve? (back.flatMap Stmt.locals) name = some l ∧ l.declaration ≠ o.span
    whole.exports = front.flatMap table ++ own ++ back.flatMap table ∧
      (∀ (config : Config) (cls : Class), cls.exportProblems config whole.exports =
        cls.exportProblems config (front.flatMap table) ++ cls.exportProblems config own ++
          cls.exportProblems config (back.flatMap table)) ∧
      (match form with
        | .bare => own = []
        | .exported => o.name.isSome = true → o.IsExportedOnce own
        | .asDefault =>
          (o.IsExportedOnce own ↔ o.signatures = []) ∧ own = o.parts.map o.defaultSymbol ∧
            ∀ (config : Config) (cls : Class), config.isTesting = false →
              (∀ part ∈ o.parts, ¬cls.IsItself (o.defaultSymbol part)) →
              cls.exportProblems config own = o.parts.map fun part => .extraExport (o.defaultSymbol part)) ∧
      (∀ (list : ExportList) (before after : List ExportSpecifier) (specifier : ExportSpecifier),
        list.source = none → list.specifiers = before ++ specifier :: after → o.name = some specifier.name.text →
        let symbol := specifier.toExport whole.locals list
        table (.exportList list) = before.map (ExportSpecifier.toExport whole.locals list) ++ [symbol] ++
            after.map (ExportSpecifier.toExport whole.locals list) ∧
          (o.IsExportedOnce [symbol] ↔ ¬standsAgain specifier.name.text)) ∧
      ∀ (span place : Span) (name : String), o.name = some name →
        (o.IsExportedOnce (table (.exportDefault span (.ident place name))) ↔ ¬standsAgain name) := by
  intro whole table own standsAgain
  have stands_iff (name : String) : ¬standsAgain name ↔
      ∀ l, Locals.resolve? (back.flatMap Stmt.locals) name = some l → l.declaration = o.span := by
    simp only [standsAgain, not_exists, not_and, Decidable.not_not]
  have parts : whole.exports = front.flatMap table ++ own ++ back.flatMap table := by
    simp only [exports, whole, List.flatMap_append]
    rfl
  refine ⟨parts, fun config cls => ?_, ?_, ?_, ?_⟩
  · rw [parts, Class.exportProblems_append, Class.exportProblems_append]
  · cases form with
    | bare => exact o.exports_bare
    | exported =>
      intro hasName
      obtain ⟨name, named⟩ := Option.isSome_iff_exists.mp hasName
      exact o.isExportedOnce_iff.mpr (o.exports_exported named)
    | asDefault =>
      exact ⟨o.isExportedOnce_asDefault, o.exports_asDefault, fun _ _ strict foreign =>
        o.reports_asDefault strict foreign⟩
  · intro list before after specifier source specifiers named symbol
    constructor
    · simp only [table, Stmt.exports, specifiers, List.map_append, List.map_cons, symbol, List.append_assoc,
        List.singleton_append]
    · rw [stands_iff]
      have stands : (specifier.toExport whole.locals list).declaration =
          ((whole.locals.resolve? specifier.name.text).map Local.declaration).getD specifier.span := by
        rw [ExportSpecifier.toExport_eq source]
      exact o.isExportedOnce_singleton named form front back stands
  · intro span place name named
    rw [stands_iff]
    have stands : ((Expr.ident place name).toDefaultExport whole.locals span).declaration =
        ((whole.locals.resolve? name).map Local.declaration).getD place := by
      rw [Expr.toDefaultExport_ident]
    exact o.isExportedOnce_singleton named form front back stands

/-! ### A default export with a signature -/

/-- The function of `export default function f(a: string): void; export default function f(a: any) {}`. -/
def overloadedDefault : Overloaded where
  name := some "f"
  signatures := [(⟨0, 43⟩, ⟨{ span := ⟨15, 43⟩, name := some "f" }, [],
    [.name ⟨26, 35⟩ "a" ⟨false, some ⟨[.text "string"]⟩⟩], some ⟨[.text "void"]⟩, .absent⟩)]
  implementation := (⟨44, 80⟩, ⟨{ span := ⟨59, 80⟩, name := some "f" }, [],
    [.name ⟨70, 76⟩ "a" ⟨false, some ⟨[.text "any"]⟩⟩], none, .block []⟩)
  unwritten := by decide
  written := rfl
  named := by decide

/-- The module that consists of that function. -/
def overloadedModule : Program where
  statements := overloadedDefault.statements .asDefault

/-- The list `export { f as g };` behind the function. -/
def renamedFunction : ExportList :=
  ⟨⟨81, 99⟩, false, [⟨⟨90, 96⟩, false, .bare "f", .bare "g"⟩], none⟩

/-- In the list the function is exported once. -/
theorem Program.exports_overloaded_renamed :
    let whole : Program := { statements := overloadedModule.statements ++ [.exportList renamedFunction] }
    (Stmt.exportList renamedFunction).exports whole.locals =
        [⟨"g", some "f", .function, false, ⟨59, 80⟩, none⟩] ∧
      overloadedDefault.IsExportedOnce ((Stmt.exportList renamedFunction).exports whole.locals) := by
  intro whole
  obtain ⟨-, -, -, listed, -⟩ :=
    exports_overloaded overloadedDefault overloadedModule [] [.exportList renamedFunction] .asDefault
  obtain ⟨-, once⟩ := listed renamedFunction [] [] ⟨⟨90, 96⟩, false, .bare "f", .bare "g"⟩ rfl rfl rfl
  refine ⟨by decide, once.mpr ?_⟩
  rintro ⟨l, found, -⟩
  cases found

/-- The default is exported twice and reported twice, once for the signature. -/
theorem Program.overloadedModule_twice :
    overloadedModule.exports =
        [⟨"default", some "f", .function, false, ⟨15, 43⟩, some ⟨0, 6⟩⟩,
          ⟨"default", some "f", .function, false, ⟨59, 80⟩, some ⟨44, 50⟩⟩] ∧
      ¬overloadedDefault.IsExportedOnce overloadedModule.exports ∧
      (Class.bareComponent.exportProblems {} overloadedModule.exports).map Problem.span = [⟨0, 6⟩, ⟨44, 50⟩] := by
  refine ⟨by decide, ?_, by decide⟩
  rw [Overloaded.isExportedOnce_iff]
  decide

end ComponentHoist

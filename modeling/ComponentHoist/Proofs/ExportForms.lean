import ComponentHoist.Proofs.ValueExports
import ComponentHoist.Validation

/-!
# ComponentHoist.Proofs.ExportForms — the forms in which a name is exported

A name can be exported as the default of its module by a statement of its own or in an export list, and under its own
name where it is declared or in an export list.  What is exported should not depend on the form.

* `ExportSpecifier.toExport_eq`, `Expr.toDefaultExport_ident`: what is exported is what the name resolves to.
* `Program.exports_default_or_listed`: the two forms of a default export agree unless the name is imported as a type.
* `Decl.MovedBy`: a declaration that stands somewhere else.
* `Program.resolve?_of_declaredBy`: what a name resolves to that is declared by one statement alone.
* `Program.exports_inline_or_listed`: the two forms under the own name agree if the declaration is recorded and either
  is a type or is not ambient.
-/

namespace ComponentHoist

variable {locals : Locals} {name x : String}

/-! ### What a name stands for -/

/-- A name in an export list is exported as what it resolves to, and as a variable if it resolves to nothing. -/
theorem ExportSpecifier.toExport_eq {list : ExportList} {specifier : ExportSpecifier} (source : list.source = none) :
    specifier.toExport locals list =
      let found := locals.resolve? specifier.name.text
      ⟨specifier.exported.text, some specifier.name.text, (found.map Local.kind).getD .variable,
        list.isTypeOnly || specifier.isTypeOnly || (found.map Local.isTypeOnly).getD false,
        (found.map Local.declaration).getD specifier.span, none⟩ := by
  cases found : locals.resolve? specifier.name.text <;> simp [toExport, source, found]

/-- A name behind `export default` is exported as what it resolves to, but never as a type on account of an import. -/
theorem Expr.toDefaultExport_ident (span place : Span) :
    (Expr.ident place name).toDefaultExport locals span =
      let found := locals.resolve? name
      ⟨defaultExportName, some name, (found.map Local.kind).getD .variable, false,
        (found.map Local.declaration).getD place, some span.exportKeyword⟩ := by
  cases found : locals.resolve? name <;> simp [toDefaultExport, found]

/-- An export list with one name of the module. -/
def Stmt.exportName (span place : Span) (name exported : String) : Stmt :=
  .exportList ⟨span, false, [⟨place, false, .bare name, .bare exported⟩], none⟩

/-- The symbol of a name that is exported in a list. -/
def Locals.listedSymbol (locals : Locals) (place : Span) (name exported : String) : ExportedSymbol :=
  let found := locals.resolve? name
  ⟨exported, some name, (found.map Local.kind).getD .variable, (found.map Local.isTypeOnly).getD false,
    (found.map Local.declaration).getD place, none⟩

theorem Stmt.exports_exportName (span place : Span) (exported : String) :
    (exportName span place name exported).exports locals = [locals.listedSymbol place name exported] := by
  rw [exportName, exports, List.map_singleton, ExportSpecifier.toExport_eq rfl]
  rfl

/-! ### The default of a module -/

/-- Whether a name was last declared by an import of a type. -/
def Locals.IsImportedType (locals : Locals) (name : String) : Prop :=
  ∃ l, locals.resolve? name = some l ∧ l.kind = .imported ∧ l.isTypeOnly = true

/-- Only imports mark a name as a type. -/
theorem Stmt.kind_of_isTypeOnly {s : Stmt} {b : String × Local} (declared : b ∈ s.locals)
    (type : b.2.isTypeOnly = true) : b.2.kind = .imported := by
  cases s with
  | decl d =>
    obtain ⟨binding, -, rfl⟩ := List.mem_map.mp declared
    cases type
  | exportDecl span isTypeOnly d =>
    obtain ⟨binding, -, rfl⟩ := List.mem_map.mp declared
    cases type
  | exportDefaultDecl span d =>
    cases d with
    | classDecl cls =>
      obtain ⟨_, -, rfl⟩ := List.mem_map.mp declared
      cases type
    | function func =>
      obtain ⟨_, -, rfl⟩ := List.mem_map.mp declared
      cases type
    | _ => cases declared
  | importNames data =>
    obtain ⟨specifier, -, rfl⟩ := List.mem_map.mp declared
    cases specifier <;> rfl
  | _ => cases declared

theorem Program.isImportedType_iff (p : Program) :
    p.locals.IsImportedType name ↔ ((p.locals.resolve? name).map Local.isTypeOnly).getD false = true := by
  cases found : p.locals.resolve? name with
  | none => simp [Locals.IsImportedType, found]
  | some l =>
    have imported (type : l.isTypeOnly = true) : l.kind = .imported := by
      obtain ⟨s, -, declared⟩ := List.mem_flatMap.mp (Locals.mem_of_resolve? found)
      exact Stmt.kind_of_isTypeOnly declared type
    simpa [Locals.IsImportedType, found] using imported

/-- The symbols of the two forms differ in nothing but what an import says about types, and in the spans. -/
theorem Locals.defaultSymbols (locals : Locals) (name : String) (span place place' : Span) :
    let s := (Expr.ident place name).toDefaultExport locals span
    let t := locals.listedSymbol place' name "default"
    s.name = t.name ∧ s.localName = t.localName ∧ s.kind = t.kind ∧ s.isTypeOnly = s.kind.isTypeOnly ∧
      t.isTypeOnly = (((locals.resolve? name).map Local.isTypeOnly).getD false || s.kind.isTypeOnly) := by
  rw [Expr.toDefaultExport_ident]
  exact ⟨rfl, rfl, rfl, rfl, rfl⟩

/-- A name that is exported as the default by a statement of its own and a name that is exported as the default in a
list: the table is the same but for the symbol, and the symbols have the same names, inside and outside, and the same
kind.  They are the same as to whether they are types, unless the name was last declared by an import of a type; then
only the list gives a type. -/
theorem Program.exports_default_or_listed (p : Program) (front back : List Stmt) (name : String)
    (span place list place' : Span) :
    let others : Program := { p with statements := front ++ back }
    let statement := Stmt.exportDefault span (.ident place name)
    let listing := Stmt.exportName list place' name "default"
    let byStatement : Program := { p with statements := front ++ statement :: back }
    let byList : Program := { p with statements := front ++ listing :: back }
    ∃ s t, statement.exports byStatement.locals = [s] ∧ listing.exports byList.locals = [t] ∧
      (∃ before after, byStatement.exports = before ++ s :: after ∧ byList.exports = before ++ t :: after) ∧
      s.name = "default" ∧ t.name = "default" ∧ s.localName = some name ∧ t.localName = some name ∧ s.kind = t.kind ∧
      (s.isTypeOnly = t.isTypeOnly ↔ ¬others.locals.IsImportedType name) ∧
      (others.locals.IsImportedType name → s.isTypeOnly = false ∧ t.isTypeOnly = true) := by
  intro others statement listing byStatement byList
  have sameNames : byStatement.locals = others.locals := p.locals_insert rfl
  have sameNames' : byList.locals = others.locals := p.locals_insert rfl
  let s := (Expr.ident place name).toDefaultExport others.locals span
  let t := others.locals.listedSymbol place' name "default"
  obtain ⟨exported, inside, kinds, verdict, verdict'⟩ := others.locals.defaultSymbols name span place place'
  have imported (h : others.locals.IsImportedType name) : s.isTypeOnly = false ∧ t.isTypeOnly = true := by
    have marked := others.isImportedType_iff.mp h
    obtain ⟨l, found, kind, -⟩ := h
    have kind_t : t.kind = .imported := by simp [t, Locals.listedSymbol, found, kind]
    have value : s.kind.isTypeOnly = false := by rw [kinds, kind_t]; rfl
    rw [verdict', verdict, marked, value]
    exact ⟨rfl, rfl⟩
  have symbol : statement.exports byStatement.locals = [s] := by rw [sameNames]; rfl
  have symbol' : listing.exports byList.locals = [t] := by rw [sameNames']; exact Stmt.exports_exportName list place' _
  refine ⟨s, t, symbol, symbol', ⟨front.flatMap (Stmt.exports others.locals), back.flatMap (Stmt.exports others.locals),
    ?_, ?_⟩, exported, rfl, inside, rfl, kinds, ?_, imported⟩
  · rw [p.exports_insert, symbol, sameNames, List.append_assoc, List.singleton_append]
  · rw [p.exports_insert, symbol', sameNames', List.append_assoc, List.singleton_append]
  · constructor
    · intro same h
      obtain ⟨value, type⟩ := imported h
      rw [value, type] at same
      cases same
    · intro h
      rw [others.isImportedType_iff, Bool.not_eq_true] at h
      rw [verdict', verdict, h, Bool.false_or]

/-- The statement `import type { X } from "./x";`. -/
def importedTypeStatement : Stmt :=
  .importNames { span := ⟨0, 29⟩, isTypeOnly := true, specifiers := some [.named ⟨14, 15⟩ false (.bare "X") "X"],
                 source := { name := "./x" } }

/-- A type of another module is the default as a value by a statement of its own, and as a type in a list. -/
theorem Program.importedType_differs :
    let byStatement : Program := { statements := [importedTypeStatement, .exportDefault ⟨30, 47⟩ (.ident ⟨45, 46⟩ "X")] }
    let byList : Program := { statements := [importedTypeStatement, .exportName ⟨30, 54⟩ ⟨39, 51⟩ "X" "default"] }
    byStatement.exports = [⟨"default", some "X", .imported, false, ⟨14, 15⟩, some ⟨30, 36⟩⟩] ∧
      byList.exports = [⟨"default", some "X", .imported, true, ⟨14, 15⟩, none⟩] ∧
      byStatement.exports.map ExportedSymbol.isTypeOnly = [false] ∧
      byList.exports.map ExportedSymbol.isTypeOnly = [true] := by
  decide

/-! ### Declarations -/

namespace Decl

/-- What kind of thing the names of a declaration stand for.  An alias stands for something that is imported. -/
def kind : Decl → SymbolKind
  | .variables .. => .variable
  | .function _ => .function
  | .classDecl _ => .cls
  | .interface .. => .interface
  | .typeAlias .. => .typeAlias
  | .enumeration .. => .enumeration
  | .namespaceDecl .. => .namespace
  | .importAlias .. => .imported

/-- Whether nothing but a type is declared. -/
def isType (d : Decl) : Bool :=
  d.kind.isTypeOnly

/-- Whether the declaration describes something that is written out elsewhere. -/
def isAmbient : Decl → Bool
  | .variables _ isDeclared _ _ => isDeclared
  | .function func => func.head.isDeclared
  | .classDecl cls => cls.head.isDeclared
  | .interface head .. | .typeAlias head .. | .enumeration head _ => head.isDeclared
  | .namespaceDecl _ isDeclared .. => isDeclared
  | .importAlias .. => false

/-- The declaration exported where it stands.  The parser marks the export of a type and that of an ambient declaration
as exports of types. -/
def exported (span : Span) (d : Decl) : Stmt :=
  .exportDecl span (d.isType || d.isAmbient) d

/-- The declarations of a name by which an export of it can be resolved. -/
def recorded (d : Decl) (name : String) : List Declared :=
  d.declared.filter fun e => e.name = name && e.isRecorded

end Decl

/-- A declarator at another place, whatever its value is. -/
structure Declarator.MovedBy (move : Span → Span) (d d' : Declarator) : Prop where
  span : d'.span = move d.span
  names : d'.target.allNames = d.target.allNames

/-- A declaration at another place, whatever stands inside it. -/
inductive Decl.MovedBy (move : Span → Span) : Decl → Decl → Prop
  | vars {span span' : Span} {isDeclared : Bool} {keyword : String} {declarators declarators' : List Declarator}
    (moved : List.Forall₂ (Declarator.MovedBy move) declarators declarators') :
    MovedBy move (.variables span isDeclared keyword declarators) (.variables span' isDeclared keyword declarators')
  | function {func func' : Func} (head : func'.head = { func.head with span := move func.head.span })
    (body : func'.hasBody = func.hasBody) : MovedBy move (.function func) (.function func')
  | classDecl {cls cls' : Class} (head : cls'.head = { cls.head with span := move cls.head.span }) :
    MovedBy move (.classDecl cls) (.classDecl cls')
  | interface {head : NamedHead} {generics bases generics' bases' : List Phrase} {body body' : Phrase} :
    MovedBy move (.interface head generics bases body)
      (.interface { head with span := move head.span } generics' bases' body')
  | typeAlias {head : NamedHead} {generics generics' : List Phrase} {type type' : Phrase} :
    MovedBy move (.typeAlias head generics type) (.typeAlias { head with span := move head.span } generics' type')
  | enumeration {head : NamedHead} {members members' : List Member} :
    MovedBy move (.enumeration head members) (.enumeration { head with span := move head.span } members')
  | namespaceDecl {span : Span} {isDeclared : Bool} {keyword : String} {name : NamespaceName}
    {body body' : Option (List Stmt)} :
    MovedBy move (.namespaceDecl span isDeclared keyword name body)
      (.namespaceDecl (move span) isDeclared keyword name body')
  | importAlias {span span' : Span} {isTypeOnly : Bool} {name : String} {target : AliasTarget} :
    MovedBy move (.importAlias span isTypeOnly name target) (.importAlias span' isTypeOnly name target)

/-- A binding at another place. -/
def Binding.moveBy (move : Span → Span) (b : Binding) : Binding :=
  { b with span := move b.span }

variable {move : Span → Span}

theorem Declarator.MovedBy.bindings {d d' : Declarator} (moved : d.MovedBy move d') :
    d'.bindings = d.bindings.map (Binding.moveBy move) := by
  simp only [Declarator.bindings, Pattern.boundNames_eq, moved.names, moved.span, List.map_map]
  rfl

variable {d d' : Decl}

namespace Decl

theorem kind_of_mem_bindings {b : Binding} : ∀ {d : Decl}, b ∈ d.bindings → b.kind = d.kind
  | .variables _ _ _ declarators, hb => by
    obtain ⟨declarator, -, hb⟩ := List.mem_flatMap.mp hb
    obtain ⟨_, -, rfl⟩ := List.mem_map.mp hb
    rfl
  | .function func, hb => by
    have named : b ∈ Func.bindings.named func := by
      simp only [bindings, Func.bindings] at hb
      split at hb
      · split at hb
        · exact hb
        · cases hb
      · exact hb
    obtain ⟨_, -, rfl⟩ := List.mem_map.mp named
    rfl
  | .classDecl cls, hb => by
    obtain ⟨_, -, rfl⟩ := List.mem_map.mp hb
    rfl
  | .interface .., hb | .typeAlias .., hb | .enumeration .., hb | .namespaceDecl _ _ _ (.path _ _) _, hb => by
    obtain rfl := List.mem_singleton.mp hb
    rfl

/-- The names of a declaration move with it. -/
theorem MovedBy.bindings (moved : d.MovedBy move d') : d'.bindings = d.bindings.map (Binding.moveBy move) := by
  cases moved with
  | vars moved =>
    simp only [Decl.bindings, List.map_flatMap]
    induction moved with
    | nil => rfl
    | cons first _ ih =>
      rw [List.flatMap_cons, List.flatMap_cons, ih, first.bindings]
  | @function func func' head body =>
    have named : Func.bindings.named func' = (Func.bindings.named func).map (Binding.moveBy move) := by
      simp only [Func.bindings.named, head, List.map_map]
      rfl
    -- Only a signature that is not ambient binds nothing, and it is still one at the other place.
    have declared : func'.head.isDeclared = func.head.isDeclared := by rw [head]
    cases h : func.body <;> cases h' : func'.body <;> cases ambient : func.head.isDeclared <;>
      simp_all [Decl.bindings, Func.bindings, Func.hasBody]
  | classDecl head =>
    simp only [Decl.bindings, head, List.map_map]
    rfl
  | namespaceDecl =>
    rename_i name _ _
    cases name <;> rfl
  | _ => rfl

end Decl

/-! ### A name that is declared once -/

theorem Stmt.exists_declared_of_local {s : Stmt} {b : String × Local} (hb : b ∈ s.locals) :
    ∃ e ∈ s.declared, e.name = b.1 := by
  have row : Locals.row b ∈ s.declared.filterMap Declared.row? := by
    rw [← s.locals_rows]
    exact List.mem_map_of_mem hb
  obtain ⟨e, he, same⟩ := List.mem_filterMap.mp row
  refine ⟨e, he, ?_⟩
  unfold Declared.row? at same
  split at same
  · exact congrArg Prod.fst (Option.some.inj same)
  · cases same

/-- A name that one statement alone declares stands for what that statement declares it as, at last. -/
theorem Program.resolve?_of_declaredBy {p : Program} {front back : List Stmt}
    (statements : p.statements = front ++ .decl d :: back)
    (only : ∀ s ∈ front ++ back, ∀ e ∈ s.declared, e.name ≠ x) :
    p.locals.resolve? x = (d.bindings.filter fun b => b.name = x).getLast?.map fun b => ⟨b.kind, false, b.span⟩ := by
  let pick (b : String × Local) : Option Local := if b.1 = x then some b.2 else none
  -- No other statement has an entry for the name.
  have nothing (rest : List Stmt) (sub : ∀ s ∈ rest, s ∈ front ++ back) :
      (rest.flatMap Stmt.locals).filterMap pick = [] := by
    rw [List.filterMap_eq_nil_iff]
    intro b hb
    obtain ⟨s, hs, declared⟩ := List.mem_flatMap.mp hb
    obtain ⟨e, he, same⟩ := Stmt.exists_declared_of_local declared
    exact if_neg fun h => only s (sub s hs) e he (same.trans h)
  have own : (d.bindings.map Binding.toLocal).filterMap pick =
      (d.bindings.filter fun b => b.name = x).map fun b => ⟨b.kind, false, b.span⟩ := by
    rw [List.filterMap_map, ← List.filterMap_eq_map, List.filterMap_filter]
    refine List.filterMap_congr fun b _ => ?_
    by_cases h : b.name = x <;> simp [pick, Binding.toLocal, h]
  rw [Locals.resolve?_eq_getLast?, locals, statements, List.flatMap_append, List.flatMap_cons, List.filterMap_append,
    List.filterMap_append, nothing front fun s hs => List.mem_append_left _ hs,
    nothing back fun s hs => List.mem_append_right _ hs, List.nil_append, List.append_nil, Stmt.locals, own,
    List.getLast?_map]

/-- There are as many bindings of a name as there are recorded declarations of it. -/
theorem Decl.length_bindings (d : Decl) (x : String) :
    (d.bindings.filter fun b => b.name = x).length = (d.recorded x).length := by
  have rows : (d.bindings.map Binding.toLocal).map Locals.row = d.declared.filterMap Declared.row? := d.bindings_rows
  have named : ((d.bindings.map Binding.toLocal).map Locals.row).countP (fun row => row.1 = x) =
      d.bindings.countP fun b => b.name = x := by
    rw [List.countP_map, List.countP_map]
    rfl
  have declared : (d.declared.filterMap Declared.row?).countP (fun row => row.1 = x) =
      d.declared.countP fun e => e.name = x && e.isRecorded := by
    rw [List.countP_filterMap]
    refine List.countP_congr fun e _ => ?_
    cases h : e.isRecorded <;> simp [Declared.row?, h]
  rw [recorded, ← List.countP_eq_length_filter, ← List.countP_eq_length_filter, ← named, rows, declared]

/-! ### The two forms under the own name -/

/-- Whether two symbols are the same up to the place of what they stand for. -/
structure ExportedSymbol.Agrees (move : Span → Span) (s t : ExportedSymbol) : Prop where
  name : t.name = s.name
  localName : t.localName = s.localName
  kind : t.kind = s.kind
  declaration : t.declaration = move s.declaration
  isTypeOnly : t.isTypeOnly = s.isTypeOnly

/-- The check of the exports looks at nothing else, so it passes both or neither. -/
theorem ExportedSymbol.Agrees.exportProblems {s t : ExportedSymbol} (agrees : s.Agrees move t)
    (injective : Function.Injective move) (config : Config) {cls cls' : Class} (name : cls'.head.name = cls.head.name)
    (span : cls'.head.span = move cls.head.span) :
    cls'.exportProblems config [t] = [] ↔ cls.exportProblems config [s] = [] := by
  have place : (t.declaration == cls'.head.span) = (s.declaration == cls.head.span) := by
    rw [agrees.declaration, span, Bool.eq_iff_iff, beq_iff_eq, beq_iff_eq]
    exact injective.eq_iff
  have same : cls'.isExportedAs t = cls.isExportedAs s := by
    rw [Class.isExportedAs, Class.isExportedAs, place, name, agrees.localName, agrees.kind, agrees.name]
  cases h : config.isTesting with
  | true => simp [Class.exportProblems, h]
  | false => simp [Class.exportProblems, Class.extraExports, h, same, agrees.isTypeOnly]

/-- The symbols of a name that is exported where it is declared. -/
def Decl.inlineSymbols (d : Decl) (span : Span) (name : String) : List ExportedSymbol :=
  (d.bindings.filter fun b => b.name = name).map (Binding.toExport span (d.isType || d.isAmbient))

theorem Decl.exported_exports (d : Decl) (span : Span) :
    ((d.exported span).exports locals).filter (fun s => s.name = x) = d.inlineSymbols span x := by
  rw [exported, Stmt.exports, List.filter_map]
  rfl

theorem Decl.length_inlineSymbols (d : Decl) (span : Span) :
    (d.inlineSymbols span x).length = (d.recorded x).length := by
  rw [inlineSymbols, List.length_map, d.length_bindings]

/-- A name that is exported where it is declared is a type if nothing else is declared or the declaration is ambient. -/
theorem Decl.eq_of_mem_inlineSymbols {span : Span} {s : ExportedSymbol} (hs : s ∈ d.inlineSymbols span x) :
    s.name = x ∧ s.localName = some x ∧ s.kind = d.kind ∧ s.isTypeOnly = (d.isType || d.isAmbient) := by
  obtain ⟨b, hb, rfl⟩ := List.mem_map.mp hs
  obtain ⟨declared, named⟩ := List.mem_filter.mp hb
  have kind : b.kind = d.kind := kind_of_mem_bindings declared
  have name : b.name = x := of_decide_eq_true named
  refine ⟨name, congrArg some name, kind, ?_⟩
  rw [ExportedSymbol.isTypeOnly, Binding.toExport, kind]
  show (d.isType || d.isAmbient || d.isType) = _
  cases d.isType <;> simp

/-- A name that is exported in a list is a type if nothing else is declared by the only statement that declares it. -/
theorem Program.listedSymbol_of_declaredBy {p : Program} {front back : List Stmt} (span place : Span)
    (moved : d.MovedBy move d') (statements : p.statements = front ++ .decl d' :: back)
    (only : ∀ s ∈ front ++ back, ∀ e ∈ s.declared, e.name ≠ x) {s : ExportedSymbol}
    (last : s ∈ (d.inlineSymbols span x).getLast?) :
    p.locals.listedSymbol place x x = ⟨x, some x, d.kind, false, move s.declaration, none⟩ := by
  rw [Decl.inlineSymbols, List.getLast?_map] at last
  obtain ⟨b, hb, rfl⟩ := Option.map_eq_some_iff.mp last
  have kind : b.kind = d.kind := Decl.kind_of_mem_bindings (List.mem_filter.mp (List.mem_of_getLast? hb)).1
  have elsewhere : (d'.bindings.filter fun b => b.name = x) =
      (d.bindings.filter fun b => b.name = x).map (Binding.moveBy move) := by
    rw [moved.bindings, List.filter_map]
    rfl
  have found : p.locals.resolve? x = some ⟨d.kind, false, move b.span⟩ := by
    rw [resolve?_of_declaredBy statements only, elsewhere, List.getLast?_map, hb, ← kind]
    rfl
  rw [Locals.listedSymbol, found]
  rfl

/-- The symbols of the two forms are the same up to the place if it is that of the declaration, and if the declaration
is a type or not ambient. -/
theorem Decl.agrees_iff {span place : Span} {s : ExportedSymbol} (hs : s ∈ d.inlineSymbols span x) :
    s.Agrees move ⟨x, some x, d.kind, false, place, none⟩ ↔
      place = move s.declaration ∧ (d.isType = true ∨ d.isAmbient = false) := by
  obtain ⟨name, localName, kind, verdict⟩ := eq_of_mem_inlineSymbols hs
  have listed : ExportedSymbol.isTypeOnly ⟨x, some x, d.kind, false, place, none⟩ = d.isType := rfl
  constructor
  · intro agrees
    have same : d.isType = (d.isType || d.isAmbient) := by rw [← verdict, ← listed, agrees.isTypeOnly]
    refine ⟨agrees.declaration, ?_⟩
    cases type : d.isType with
    | true => exact .inl rfl
    | false => exact .inr (by rw [type, Bool.false_or] at same; exact same.symm)
  · rintro ⟨there, verdicts⟩
    refine ⟨name.symm, localName.symm, kind.symm, there, ?_⟩
    rw [listed, verdict]
    rcases verdicts with type | written
    · rw [type, Bool.true_or]
    · rw [written, Bool.or_false]

/-- A name that is exported where it is declared and a name that is exported in a list, in modules where the declaration
stands at different places and, in the second, alone declares the name.  The first module has a symbol for each recorded
declaration of the name.  All of them have the names and the kind of the symbol of the list, and the last has its place.
They are types if nothing else is declared or the declaration is ambient; the symbol of the list is one only if nothing
else is declared.  So the two agree exactly if the declaration of the name is recorded and it is a type or not ambient,
and then the check of the exports passes both or neither. -/
theorem Program.exports_inline_or_listed {p q : Program} {front back : List Stmt} {span list place : Span}
    (moved : d.MovedBy move d') (inline : d.exported span ∈ p.statements)
    (separate : q.statements = front ++ .decl d' :: back)
    (listed : Stmt.exportName list place x x ∈ front ++ back)
    (only : ∀ s ∈ front ++ back, ∀ e ∈ s.declared, e.name ≠ x) :
    let here := ((d.exported span).exports p.locals).filter fun s => s.name = x
    let there := q.locals.listedSymbol place x x
    (here ⊆ p.exports ∧ (Stmt.exportName list place x x).exports q.locals = [there] ∧ there ∈ q.exports) ∧
      here.length = (d.recorded x).length ∧
      (∀ s ∈ here, s.name = x ∧ s.localName = some x ∧ s.kind = d.kind ∧ s.isTypeOnly = (d.isType || d.isAmbient)) ∧
      (∀ s ∈ here.getLast?, there = ⟨x, some x, d.kind, false, move s.declaration, none⟩ ∧
        there.isTypeOnly = d.isType) ∧
      ((∃ s ∈ here, s.Agrees move there) ↔ d.recorded x ≠ [] ∧ (d.isType = true ∨ d.isAmbient = false)) ∧
      ∀ s ∈ here, s.Agrees move there → Function.Injective move → ∀ (config : Config) (cls cls' : Class),
        cls'.head.name = cls.head.name → cls'.head.span = move cls.head.span →
          (cls'.exportProblems config [there] = [] ↔ cls.exportProblems config [s] = []) := by
  intro here there
  have here_eq : here = d.inlineSymbols span x := d.exported_exports span
  have length : here.length = (d.recorded x).length := by rw [here_eq, d.length_inlineSymbols]
  have symbols : (Stmt.exportName list place x x).exports q.locals = [there] := Stmt.exports_exportName list place x
  have common : ∀ s ∈ here, s.name = x ∧ s.localName = some x ∧ s.kind = d.kind ∧
      s.isTypeOnly = (d.isType || d.isAmbient) := fun s hs => Decl.eq_of_mem_inlineSymbols (here_eq ▸ hs)
  have last : ∀ s ∈ here.getLast?, there = ⟨x, some x, d.kind, false, move s.declaration, none⟩ ∧
      there.isTypeOnly = d.isType := by
    intro s hs
    have same : there = ⟨x, some x, d.kind, false, move s.declaration, none⟩ :=
      listedSymbol_of_declaredBy span place moved separate only (here_eq ▸ hs)
    exact ⟨same, by rw [same]; rfl⟩
  have agree : (∃ s ∈ here, s.Agrees move there) ↔ d.recorded x ≠ [] ∧ (d.isType = true ∨ d.isAmbient = false) := by
    rw [← List.length_pos_iff, ← length, List.length_pos_iff]
    constructor
    · rintro ⟨s, hs, agrees⟩
      have nonempty : here ≠ [] := List.ne_nil_of_mem hs
      rw [(last _ (List.getLast?_eq_some_getLast nonempty)).1] at agrees
      exact ⟨nonempty, ((Decl.agrees_iff (here_eq ▸ hs)).mp agrees).2⟩
    · rintro ⟨nonempty, verdicts⟩
      obtain ⟨s, hlast⟩ : ∃ s, s ∈ here.getLast? := ⟨_, List.getLast?_eq_some_getLast nonempty⟩
      have hs : s ∈ here := List.mem_of_getLast? hlast
      refine ⟨s, hs, ?_⟩
      rw [(last s hlast).1]
      exact (Decl.agrees_iff (here_eq ▸ hs)).mpr ⟨rfl, verdicts⟩
  refine ⟨⟨fun s hs => ?_, symbols, ?_⟩, length, common, last, agree, ?_⟩
  · exact List.mem_flatMap.mpr ⟨_, inline, (List.mem_filter.mp hs).1⟩
  · have stands : Stmt.exportName list place x x ∈ q.statements := by
      rw [separate, List.mem_append, List.mem_cons]
      exact (List.mem_append.mp listed).imp_right .inr
    refine List.mem_flatMap.mpr ⟨_, stands, ?_⟩
    rw [symbols]
    exact List.mem_singleton_self _
  · intro s _ agrees injective config cls cls' name span
    exact agrees.exportProblems injective config name span

/-! ### An exported constant -/

/-- The declaration `const x = 1;`. -/
def constantAt (start : Nat) : Decl :=
  .variables ⟨start, start + 12⟩ false "const" [⟨⟨start + 6, start + 11⟩,
    .name ⟨start + 6, start + 7⟩ "x" ⟨false, none⟩, false,
    some (.number ⟨start + 10, start + 11⟩ ⟨0x3FF0000000000000⟩)⟩]

/-- The module that exports the constant where it is declared. -/
def constantInline : Program where
  statements := [(constantAt 7).exported ⟨0, 19⟩]

/-- The module that exports the constant in a list. -/
def constantListed : Program where
  statements := [.decl (constantAt 0), .exportName ⟨13, 26⟩ ⟨22, 23⟩ "x" "x"]

/-- The same place without the keyword in front. -/
def withoutKeyword (s : Span) : Span :=
  ⟨s.start - 7, s.stop - 7⟩

/-- The constant is exported alike. -/
theorem Program.exports_inline_or_listed_constant :
    (constantAt 7).MovedBy withoutKeyword (constantAt 0) ∧
      ∃ s ∈ ((constantAt 7).exported ⟨0, 19⟩).exports constantInline.locals |>.filter fun s => s.name = "x",
        s.Agrees withoutKeyword (constantListed.locals.listedSymbol ⟨22, 23⟩ "x" "x") := by
  have moved : (constantAt 7).MovedBy withoutKeyword (constantAt 0) :=
    .vars (.cons ⟨rfl, by decide⟩ .nil)
  let others : List Stmt := [.exportName ⟨13, 26⟩ ⟨22, 23⟩ "x" "x"]
  have inline : (constantAt 7).exported ⟨0, 19⟩ ∈ constantInline.statements := List.mem_singleton_self _
  have separate : constantListed.statements = [] ++ .decl (constantAt 0) :: others := rfl
  have listed : Stmt.exportName ⟨13, 26⟩ ⟨22, 23⟩ "x" "x" ∈ [] ++ others := List.mem_singleton_self _
  have only : ∀ s ∈ [] ++ others, ∀ e ∈ s.declared, e.name ≠ "x" := by decide
  have forms := exports_inline_or_listed moved inline separate listed only
  exact ⟨moved, forms.2.2.2.2.1.mpr ⟨by decide, .inr rfl⟩⟩

/-! ### An ambient constant -/

/-- The declaration `declare const x: number;`. -/
def ambientAt (start : Nat) : Decl :=
  .variables ⟨start, start + 24⟩ true "const" [⟨⟨start + 14, start + 23⟩,
    .name ⟨start + 14, start + 23⟩ "x" ⟨false, some ⟨[.text "number"]⟩⟩, false, none⟩]

/-- It is exported as a type where it is declared, and as a value in a list. -/
theorem Program.ambientConstant_differs :
    let inline : Program := { statements := [(ambientAt 7).exported ⟨0, 31⟩] }
    let listed : Program := { statements := [.decl (ambientAt 0), .exportName ⟨25, 38⟩ ⟨34, 35⟩ "x" "x"] }
    inline.exports = [⟨"x", some "x", .variable, true, ⟨21, 30⟩, some ⟨0, 6⟩⟩] ∧
      listed.exports = [⟨"x", some "x", .variable, false, ⟨14, 23⟩, none⟩] ∧
      inline.exports.map ExportedSymbol.isTypeOnly = [true] ∧
      listed.exports.map ExportedSymbol.isTypeOnly = [false] := by
  decide

end ComponentHoist

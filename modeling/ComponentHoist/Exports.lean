import ComponentHoist.Syntax.Tree

/-!
# ComponentHoist.Exports — what a module exports

* `Pattern.boundNames`, `Decl.bindings`: the names that a declaration binds.
* `Stmt.locals`, `Locals.resolve?`: the top-level names of a module.  Of two declarations of a name the later counts.
* `Stmt.exports`, `Program.exports`: the exported symbols in the order of the statements, with the kind and the place of
  what each stands for.
-/

namespace ComponentHoist

/-- What kind of thing a symbol stands for. -/
inductive SymbolKind where
  | cls
  | function
  | variable
  | enumeration
  | namespace
  | interface
  | typeAlias
  | imported
  /-- A symbol of another module. -/
  | external
deriving DecidableEq, Repr

/-- Whether things of the kind exist for the type checker only. -/
def SymbolKind.isTypeOnly : SymbolKind → Bool
  | interface | typeAlias => true
  | _ => false

/-- An exported symbol. -/
structure ExportedSymbol where
  /-- The name under which it is exported. -/
  name : String
  /-- The name that it has inside the module, if it has one. -/
  localName : Option String
  kind : SymbolKind
  /-- Whether it was exported or imported as a type. -/
  isMarkedTypeOnly : Bool
  /-- The span of what the symbol stands for. -/
  declaration : Span
  /-- The span of the export keyword in front of a declaration. -/
  modifier : Option Span
deriving DecidableEq, Repr

namespace ExportedSymbol

/-- Whether the symbol exists for the type checker only. -/
def isTypeOnly (s : ExportedSymbol) : Bool :=
  s.isMarkedTypeOnly || s.kind.isTypeOnly

/-- The span to report the symbol at: the export keyword, or else what the symbol stands for. -/
def reportSpan (s : ExportedSymbol) : Span :=
  s.modifier.getD s.declaration

end ExportedSymbol

/-! ### Declared names -/

mutual

/-- The names that a pattern binds, in their order.  A part with a default value binds none. -/
def Pattern.boundNames : Pattern → List String
  | .name _ bound _ => [bound]
  | .object _ parts _ => Pattern.boundNamesList parts
  | .array _ parts _ => Pattern.boundNamesList parts
  | .property _ _ _ value => value.boundNames
  | .rest _ target _ => target.boundNames
  | .hole | .withDefault .. | .parameter .. => []

/-- The names that several patterns bind. -/
def Pattern.boundNamesList : List Pattern → List String
  | [] => []
  | p :: ps => p.boundNames ++ Pattern.boundNamesList ps

end

/-- A declared name. -/
structure Binding where
  name : String
  kind : SymbolKind
  span : Span
deriving DecidableEq, Repr

/-- The names that a variable declaration binds, each with the span of the whole declarator. -/
def Declarator.bindings (d : Declarator) : List Binding :=
  d.target.boundNames.map fun name => ⟨name, .variable, d.span⟩

/-- The name of a function.  A signature without a body shares that of the body it belongs to, unless it is an ambient
declaration. -/
def Func.bindings (f : Func) : List Binding :=
  match f.body with
  | .absent => if f.head.isDeclared then named else []
  | _ => named
where
  /-- The name of the function, if it has one. -/
  named : List Binding := f.head.name.toList.map fun name => ⟨name, .function, f.head.span⟩

/-- The names that a declaration binds. -/
def Decl.bindings : Decl → List Binding
  | .variables _ _ _ declarators => declarators.flatMap Declarator.bindings
  | .function func => func.bindings
  | .classDecl cls => cls.head.name.toList.map fun name => ⟨name, .cls, cls.head.span⟩
  | .interface head .. => [⟨head.name, .interface, head.span⟩]
  | .typeAlias head .. => [⟨head.name, .typeAlias, head.span⟩]
  | .enumeration head _ => [⟨head.name, .enumeration, head.span⟩]
  | .namespaceDecl span _ _ (.path name _) _ => [⟨name, .namespace, span⟩]
  | .namespaceDecl .. => []
  | .importAlias .. => []

/-! ### Top-level names -/

/-- What a top-level name stands for. -/
structure Local where
  kind : SymbolKind
  isTypeOnly : Bool
  declaration : Span
deriving DecidableEq, Repr

/-- The top-level names of a module in the order of their declarations. -/
abbrev Locals := List (String × Local)

/-- What the last declaration of a name stands for. -/
def Locals.resolve? (locals : Locals) (name : String) : Option Local :=
  locals.reverse.lookup name

/-- A declared name as a top-level name. -/
def Binding.toLocal (b : Binding) : String × Local :=
  (b.name, ⟨b.kind, false, b.span⟩)

/-- The name that an import specifier binds. -/
def ImportSpecifier.toLocal (isTypeOnly : Bool) : ImportSpecifier → String × Local
  | .defaultExport span bound => (bound, ⟨.imported, isTypeOnly, span⟩)
  | .allExports span bound => (bound, ⟨.imported, isTypeOnly, span⟩)
  | .named span isType _ bound => (bound, ⟨.imported, isType || isTypeOnly, span⟩)

/-- The name that a declaration behind `export default` binds.  Only classes and functions bind one. -/
def Decl.defaultLocals : Decl → Locals
  | .classDecl cls => cls.head.name.toList.map fun name => (name, ⟨.cls, false, cls.head.span⟩)
  | .function func => func.head.name.toList.map fun name => (name, ⟨.function, false, func.head.span⟩)
  | _ => []

/-- The top-level names that a statement binds. -/
def Stmt.locals : Stmt → Locals
  | .decl d => d.bindings.map Binding.toLocal
  | .exportDecl _ _ d => d.bindings.map Binding.toLocal
  | .exportDefaultDecl _ d => d.defaultLocals
  | .importNames data => (data.specifiers.getD []).map (ImportSpecifier.toLocal data.isTypeOnly)
  | _ => []

/-! ### Exported symbols -/

/-- The span of the keyword at the beginning of an export statement. -/
def Span.exportKeyword (statement : Span) : Span :=
  ⟨statement.start, statement.start + "export".utf8ByteSize⟩

/-- The symbol of a declared name that is exported where it is declared. -/
def Binding.toExport (statement : Span) (isTypeOnly : Bool) (b : Binding) : ExportedSymbol where
  name := b.name
  localName := some b.name
  kind := b.kind
  isMarkedTypeOnly := isTypeOnly
  declaration := b.span
  modifier := some statement.exportKeyword

/-- The symbol of a specifier in an export list. -/
def ExportSpecifier.toExport (locals : Locals) (list : ExportList) (s : ExportSpecifier) : ExportedSymbol :=
  let isTypeOnly := list.isTypeOnly || s.isTypeOnly
  let name := s.name.text
  match list.source with
  | some _ => ⟨s.exported.text, none, .external, isTypeOnly, s.span, none⟩
  | none =>
    match locals.resolve? name with
    | some l => ⟨s.exported.text, some name, l.kind, isTypeOnly || l.isTypeOnly, l.declaration, none⟩
    | none => ⟨s.exported.text, some name, .variable, isTypeOnly, s.span, none⟩

/-- The name under which a default export is exported. -/
def defaultExportName : String :=
  "default"

/-- The symbol of an expression behind `export default`.  A name stands for what it was declared as. -/
def Expr.toDefaultExport (locals : Locals) (statement : Span) (e : Expr) : ExportedSymbol :=
  let symbol (localName : Option String) (kind : SymbolKind) (declaration : Span) : ExportedSymbol :=
    ⟨defaultExportName, localName, kind, false, declaration, some statement.exportKeyword⟩
  match e with
  | .ident span name =>
    match locals.resolve? name with
    | some l => symbol (some name) l.kind l.declaration
    | none => symbol (some name) .variable span
  | e => symbol none .variable e.span

/-- The symbol of a declaration behind `export default`: a class, a function or an interface. -/
def Decl.toDefaultExport (statement : Span) (d : Decl) : ExportedSymbol :=
  let symbol (localName : Option String) (kind : SymbolKind) (declaration : Span) : ExportedSymbol :=
    ⟨defaultExportName, localName, kind, false, declaration, some statement.exportKeyword⟩
  match d with
  | .classDecl cls => symbol cls.head.name .cls cls.head.span
  | .function func => symbol func.head.name .function func.head.span
  | .interface head .. => symbol (some head.name) .interface head.span
  | _ => symbol none .variable statement

/-- The symbols that a statement exports. -/
def Stmt.exports (locals : Locals) : Stmt → List ExportedSymbol
  | .exportDecl span isTypeOnly d => d.bindings.map (Binding.toExport span isTypeOnly)
  | .exportList list => list.specifiers.map (ExportSpecifier.toExport locals list)
  | .exportDefault span value => [value.toDefaultExport locals span]
  | .exportDefaultDecl span d => [d.toDefaultExport span]
  | .exportAll data =>
    [⟨(data.exported.map Label.text).getD "*", none, .external, data.isTypeOnly, data.span, none⟩]
  | .exportAssignment span _ => [⟨"export=", none, .variable, false, span, none⟩]
  | _ => []

/-- The top-level names of a module. -/
def Program.locals (p : Program) : Locals :=
  p.statements.flatMap Stmt.locals

/-- The symbols that a module exports. -/
def Program.exports (p : Program) : List ExportedSymbol :=
  p.statements.flatMap (Stmt.exports p.locals)

end ComponentHoist

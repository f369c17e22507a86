import ComponentHoist.Decimal.Double
import ComponentHoist.Span
import ComponentHoist.Syntax.Label
import ComponentHoist.Syntax.Strength

/-!
# ComponentHoist.Syntax.Tree — the syntax of modules

Modules of classes, functions and declarations with type annotations, decorators and markup elements.  Every node whose
place in the source can matter carries its span.

What the library looks at has a constructor of its own.  All other forms are kept as the sequence of their parts, words
and inner nodes, in the order in which they are written: expressions and statements as a `form`, types as a `Phrase`.
-/

namespace ComponentHoist

/-- A piece of text in a template: as written, and what it stands for if its escapes are valid. -/
structure TemplateChunk where
  raw : String
  cooked : Option String
deriving DecidableEq, Repr

/-- How a property of an object literal is written. -/
inductive PropertyForm where
  | plain
  | shorthand
  | method
  | getter
  | setter
deriving DecidableEq, Repr

/-- What kind of method a class member is. -/
inductive MethodKind where
  | constructor
  | method
  | getter
  | setter
deriving DecidableEq, Inhabited, Repr

/-- The word in front of the key of a method, if there is one, with the space behind it. -/
def MethodKind.text : MethodKind → String
  | getter => "get "
  | setter => "set "
  | _ => ""

/-- The words in front of the parameters of a function. -/
structure FuncHead where
  span : Span
  name : Option String
  isAsync : Bool := false
  isGenerator : Bool := false
  isDeclared : Bool := false
deriving DecidableEq, Inhabited, Repr

/-- The words in front of the members of a class. -/
structure ClassHead where
  span : Span
  name : Option String
  isAbstract : Bool := false
  isDeclared : Bool := false
deriving DecidableEq, Inhabited, Repr

/-- The modifiers of a class member. -/
structure MemberHead where
  span : Span
  access : Option String := none
  isDeclared : Bool := false
  isAbstract : Bool := false
  isStatic : Bool := false
  /-- Whether it takes the place of a member of the base class. -/
  isOverride : Bool := false
  isReadonly : Bool := false
  /-- Whether it is a pair of accessors that is written as one property. -/
  isAccessor : Bool := false
  isOptional : Bool := false
deriving DecidableEq, Repr

/-- The words in front of an interface, a type alias or an enumeration. -/
structure NamedHead where
  span : Span
  name : String
  isDeclared : Bool := false
  isConst : Bool := false
deriving DecidableEq, Inhabited, Repr

/-- The name of a namespace or an ambient module. -/
inductive NamespaceName where
  /-- Names with dots between them. -/
  | path (first : String) (rest : List String)
  | quoted (text : String)
  /-- The global scope. -/
  | global
deriving DecidableEq, Inhabited, Repr

/-- What the name of an import alias stands for. -/
inductive AliasTarget where
  /-- A part of a namespace, as source text. -/
  | entity (text : String)
  /-- A module. -/
  | required (source : String)
deriving DecidableEq, Repr

/-- What an import asks of a module beside its name. -/
structure ImportAttribute where
  key : Label
  value : String
deriving DecidableEq, Repr

/-- A module by its name, with what is asked of it, if anything is. -/
structure ModuleSource where
  name : String
  /-- The word in front of what is asked. -/
  keyword : String := "with"
  attributes : Option (List ImportAttribute) := none
deriving DecidableEq, Repr

/-- A name in an import, with the name that it is bound to. -/
inductive ImportSpecifier where
  | defaultExport (span : Span) (bound : String)
  | allExports (span : Span) (bound : String)
  | named (span : Span) (isTypeOnly : Bool) (imported : Label) (bound : String)

/-- An import statement.  Without a list of names it only runs the module. -/
structure Import where
  span : Span
  isTypeOnly : Bool
  /-- A word that says how much of the module is loaded. -/
  phase : Option String := none
  specifiers : Option (List ImportSpecifier)
  source : ModuleSource

/-- A name in an export list, with the name under which it is exported. -/
structure ExportSpecifier where
  span : Span
  isTypeOnly : Bool
  name : Label
  exported : Label

/-- An export list, of local names or of those of another module. -/
structure ExportList where
  span : Span
  isTypeOnly : Bool
  specifiers : List ExportSpecifier
  source : Option ModuleSource

/-- An export of all names of another module, one by one or as one object. -/
structure ExportAll where
  span : Span
  isTypeOnly : Bool
  exported : Option Label
  source : ModuleSource

mutual

/-- An expression, or an element of an array or an argument list. -/
inductive Expr where
  | ident (span : Span) (name : String)
  | string (span : Span) (value : String)
  | boolean (span : Span) (value : Bool)
  | number (span : Span) (value : Double)
  | template (span : Span) (chunks : List TemplateChunk) (inserts : List Expr)
  | array (span : Span) (elements : List Expr)
  | object (span : Span) (entries : List Entry)
  /-- An array element that is left out. -/
  | hole
  | spread (span : Span) (inner : Expr)
  /-- A member by its name, a private one with its mark. -/
  | member (span : Span) (object : Expr) (name : String)
  | call (span : Span) (callee : Expr) (typeArguments : List Phrase) (arguments : List Expr)
  | wrapped (span : Span) (wrapper : Wrapper) (inner : Expr)
  | function (func : Func)
  | arrow (func : Func)
  | classExpr (cls : Class)
  | form (span : Span) (strength : Nat) (parts : List Part)

/-- What an expression is wrapped in without a change to its value.  A type stands behind the expression. -/
inductive Wrapper where
  | parentheses
  | asType (type : Phrase)
  | satisfies (type : Phrase)

/-- The key of a property. -/
inductive Key where
  | label (label : Label)
  | privateName (name : String)
  /-- A number, with the text that stands for it in the source. -/
  | number (value : Double) (source : String)
  /-- A number as it is written. -/
  | numeral (text : String)
  | computed (expr : Expr)

/-- A member of an object literal. -/
inductive Entry where
  | property (span : Span) (key : Key) (form : PropertyForm) (value : Expr)
  | spread (span : Span) (inner : Expr)

/-- What follows a bound name: a question mark and a type. -/
structure Typing where
  isOptional : Bool
  type : Option Phrase

/-- A binding pattern or a part of one, or a parameter. -/
inductive Pattern where
  | name (span : Span) (name : String) (typing : Typing)
  | object (span : Span) (parts : List Pattern) (typing : Typing)
  | array (span : Span) (parts : List Pattern) (typing : Typing)
  /-- A property of an object pattern. -/
  | property (span : Span) (key : Key) (isShorthand : Bool) (value : Pattern)
  /-- An element of an array pattern that is left out. -/
  | hole
  | rest (span : Span) (target : Pattern) (typing : Typing)
  | withDefault (span : Span) (target : Pattern) (value : Expr)
  /-- A parameter with decorators or modifiers. -/
  | parameter (span : Span) (decorators : List Decorator) (modifiers : List String) (target : Pattern)

/-- A decorator, with its expression. -/
structure Decorator where
  span : Span
  expr : Expr

/-- The body of a function: none, a block, or the value of an arrow function. -/
inductive Body where
  | absent
  | block (statements : List Stmt)
  | value (expr : Expr)

/-- A function in any of its forms. -/
structure Func where
  head : FuncHead
  generics : List Phrase
  params : List Pattern
  result : Option Phrase
  body : Body

/-- A class, declared or as an expression. -/
structure Class where
  head : ClassHead
  decorators : List Decorator
  generics : List Phrase
  superclass : Option Expr
  /-- The type arguments of the base class. -/
  superArguments : List Phrase
  interfaces : List Phrase
  members : List Member

/-- A member of a class or an enumeration. -/
inductive Member where
  | method (head : MemberHead) (decorators : List Decorator) (kind : MethodKind) (key : Key) (func : Func)
  | property (head : MemberHead) (decorators : List Decorator) (key : Key) (type : Option Phrase) (value : Option Expr)
  | staticBlock (span : Span) (statements : List Stmt)
  /-- A type for all members whose names are not written down. -/
  | signature (span : Span) (phrase : Phrase)

/-- A variable with its initial value. -/
structure Declarator where
  span : Span
  target : Pattern
  isDefinite : Bool
  init : Option Expr

/-- A declaration. -/
inductive Decl where
  | variables (span : Span) (isDeclared : Bool) (keyword : String) (declarators : List Declarator)
  | function (func : Func)
  | classDecl (cls : Class)
  | interface (head : NamedHead) (generics bases : List Phrase) (body : Phrase)
  | typeAlias (head : NamedHead) (generics : List Phrase) (type : Phrase)
  | enumeration (head : NamedHead) (members : List Member)
  | namespaceDecl (span : Span) (isDeclared : Bool) (keyword : String) (name : NamespaceName)
      (body : Option (List Stmt))
  | importAlias (span : Span) (isTypeOnly : Bool) (name : String) (target : AliasTarget)

/-- A statement. -/
inductive Stmt where
  | empty (span : Span)
  | expr (span : Span) (value : Expr)
  | directive (span : Span) (text : String)
  | block (span : Span) (statements : List Stmt)
  | cond (span : Span) (test : Expr) (yes : Stmt) (no : Option Stmt)
  | ret (span : Span) (value : Option Expr)
  | decl (decl : Decl)
  | importNames (data : Import)
  | exportDecl (span : Span) (isTypeOnly : Bool) (decl : Decl)
  | exportList (data : ExportList)
  | exportAll (data : ExportAll)
  | exportDefault (span : Span) (value : Expr)
  | exportDefaultDecl (span : Span) (decl : Decl)
  | exportAssignment (span : Span) (value : Expr)
  | form (span : Span) (parts : List Part)

/-- A part of a form. -/
inductive Part where
  | text (text : String)
  /-- An expression, with what is asked of it. -/
  | expr (room : Room) (expr : Expr)
  | key (key : Key)
  | pattern (pattern : Pattern)
  /-- A list of type parameters, which may be empty. -/
  | generics (parameters : List Phrase)
  /-- A statement on the line. -/
  | stmt (stmt : Stmt)
  /-- A statement that depends on what stands in front of it. -/
  | body (stmt : Stmt)
  /-- Statements between braces. -/
  | block (statements : List Stmt)
  /-- The beginning of a new line. -/
  | line
  /-- The indentation of a line, where none begins. -/
  | indent
  /-- Parts whose lines are indented more deeply. -/
  | deeper (parts : List Part)
  /-- Parts that stand in the source and are not written. -/
  | unwritten (parts : List Part)

/-- A type, a type parameter, or another piece of syntax on which nothing depends. -/
structure Phrase where
  parts : List Part

end

instance : Inhabited Phrase := ⟨⟨[]⟩⟩

instance : Inhabited Expr := ⟨.hole⟩

instance : Inhabited Key := ⟨.computed default⟩

instance : Inhabited Entry := ⟨.spread default default⟩

instance : Inhabited Typing := ⟨⟨false, none⟩⟩

instance : Inhabited Pattern := ⟨.hole⟩

instance : Inhabited Decorator := ⟨⟨default, default⟩⟩

instance : Inhabited Func := ⟨⟨default, [], [], none, .absent⟩⟩

instance : Inhabited Class := ⟨⟨default, [], [], none, [], [], []⟩⟩

instance : Inhabited Member := ⟨.staticBlock default []⟩

instance : Inhabited Stmt := ⟨.empty default⟩

/-- A module: its statements in their order. -/
structure Program where
  /-- Whether it can hold markup elements. -/
  isMarkup : Bool := false
  /-- The line in front of the first statement that names an interpreter, without its mark. -/
  interpreter : Option String := none
  statements : List Stmt

namespace Expr

/-- The span of an expression.  An element that is left out has none. -/
def span : Expr → Span
  | ident span _ | string span _ | boolean span _ | number span _ | template span .. | array span _ | object span _
  | spread span _ | member span .. | call span .. | wrapped span .. | form span .. => span
  | function func | arrow func => func.head.span
  | classExpr cls => cls.head.span
  | hole => ⟨0, 0⟩

/-- The expression inside all its wrappers. -/
def unwrap : Expr → Expr
  | wrapped _ _ inner => inner.unwrap
  | e => e

end Expr

namespace Key

/-- The name that the key gives to a property, if it can be read off: a bare or quoted name, or a string in
brackets. -/
def name? : Key → Option String
  | label l => some l.text
  | computed (.string _ value) => some value
  | _ => none

end Key

namespace Pattern

/-- The span of a pattern. -/
def span : Pattern → Span
  | name span .. | object span .. | array span .. | property span .. | rest span .. | withDefault span ..
  | parameter span .. => span
  | hole => ⟨0, 0⟩

/-- Whether the pattern is the pseudo-parameter that gives the type of `this`. -/
def isThis : Pattern → Bool
  | name _ bound _ => bound == "this"
  | _ => false

end Pattern

end ComponentHoist

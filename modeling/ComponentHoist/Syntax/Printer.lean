import ComponentHoist.Syntax.Layout
import ComponentHoist.Syntax.Operand
import ComponentHoist.Syntax.Quoted

/-!
# ComponentHoist.Syntax.Printer — the text of a module

One function for each kind of node, each with the place at which the node begins.  Arrays of three elements, objects
of two members and lists of two type parameters are broken over lines, shorter ones are not.

* `Expr.print`: an expression, with what is asked of it.
* `Part.printAll`: the parts of a form.
* `Stmt.print`: a statement; `Stmt.printLines`: statements as whole lines.
* `Program.print`: a module.
-/

namespace ComponentHoist

open Layout

/-! ### Names -/

/-- The text of a name. -/
def Label.print : Label → String
  | .bare text => text
  | .quoted text => Quoted.literal text

/-- The text of the name of a namespace. -/
def NamespaceName.print : NamespaceName → String
  | .path first rest => ".".intercalate (first :: rest)
  | .quoted text => Quoted.literal text
  | .global => "global"

/-- The text of what an import alias stands for. -/
def AliasTarget.print : AliasTarget → String
  | .entity text => text
  | .required source => "require(" ++ Quoted.literal source ++ ")"

/-- The words in front of the key of a class member.  Only a pair of accessors shows that it takes the place of another
member, and it is said to be abstract first of all. -/
def MemberHead.print (head : MemberHead) : String :=
  let access := (head.access.map (· ++ " ")).getD ""
  if head.isAccessor then
    word head.isAbstract "abstract" ++ access ++ word head.isStatic "static" ++ word head.isOverride "override" ++
      "accessor "
  else
    word head.isDeclared "declare" ++ access ++ word head.isAbstract "abstract" ++ word head.isStatic "static" ++
      word head.isReadonly "readonly"

/-! ### Imports and exports -/

/-- A name, and the one that it is given if that is another. -/
def printRenamed (name renamed : Label) : String :=
  if name.text = renamed.text then name.print else name.print ++ " as " ++ renamed.print

/-- The text of an attribute of an import. -/
def ImportAttribute.print (a : ImportAttribute) : String :=
  a.key.print ++ ": " ++ Quoted.literal a.value

/-- The text behind the name of a module. -/
def ModuleSource.printAttributes (source : ModuleSource) : String :=
  match source.attributes with
  | some attributes => " " ++ source.keyword ++ " " ++ bracedList (attributes.map ImportAttribute.print)
  | none => ""

/-- The text of a module name with its attributes. -/
def ModuleSource.print (source : ModuleSource) : String :=
  Quoted.literal source.name ++ source.printAttributes

/-- The text of an import specifier. -/
def ImportSpecifier.print : ImportSpecifier → String
  | .defaultExport _ bound => bound
  | .allExports _ bound => "* as " ++ bound
  | .named _ isTypeOnly imported bound => word isTypeOnly "type" ++ printRenamed imported (.bare bound)

/-- Whether the specifier stands between braces. -/
def ImportSpecifier.isNamed : ImportSpecifier → Bool
  | .named .. => true
  | _ => false

/-- The text of an import statement.  Behind an empty list of names the name of the module is not escaped. -/
def Import.print (data : Import) : String :=
  let opening := "import " ++ word data.isTypeOnly "type" ++ (data.phase.map (· ++ " ")).getD ""
  match data.specifiers with
  | none => opening ++ data.source.print ++ ";"
  | some [] => opening ++ "\x7b\x7d from \"" ++ data.source.name ++ "\"" ++ data.source.printAttributes ++ ";"
  | some specifiers =>
    let (named, single) := specifiers.partition ImportSpecifier.isNamed
    let list := if named.isEmpty then [] else [bracedList (named.map ImportSpecifier.print)]
    opening ++ commaSeparated (single.map ImportSpecifier.print ++ list) ++ " from " ++ data.source.print ++ ";"

/-- The text of an export list.  What is asked of the module beside its name is not written. -/
def ExportList.print (data : ExportList) : String :=
  let names := data.specifiers.map fun s => word s.isTypeOnly "type" ++ printRenamed s.name s.exported
  let source := match data.source with
    | some source => " from " ++ Quoted.literal source.name
    | none => ""
  "export " ++ word data.isTypeOnly "type" ++ bracedList names ++ source ++ ";"

/-- The text of an export of all names. -/
def ExportAll.print (data : ExportAll) : String :=
  let name := match data.exported with
    | some name => " as " ++ name.print
    | none => ""
  "export " ++ word data.isTypeOnly "type" ++ "*" ++ name ++ " from " ++ data.source.print ++ ";"

/-! ### Expressions and statements -/

/-- The text of a template: its chunks with the inserted expressions between them. -/
def printTemplate : List TemplateChunk → List String → String
  | [], _ => ""
  | chunk :: chunks, inserts =>
    let text := String.ofList (Quoted.encodeChunk chunk.raw.toList)
    match inserts with
    | [] => text ++ printTemplate chunks []
    | insert :: inserts => text ++ "$\x7b" ++ insert ++ "\x7d" ++ printTemplate chunks inserts

/-- The text of a directive, in quotes of a kind that it does not hold. -/
def printDirective (text : String) : String :=
  let quote := if Quoted.firstQuote? text.toList = some '"' then "'" else "\""
  quote ++ text ++ quote

/-- What ends a declaration without a body. -/
def Body.stop : Body → String
  | .absent => ";"
  | _ => ""

/-- The words in front of the key of a method that belong to its function. -/
def FuncHead.print (head : FuncHead) : String :=
  word head.isAsync "async" ++ (if head.isGenerator then "*" else "")

mutual

/-- The text of an expression. -/
def Expr.print (p : Place) (slot : Slot) : Expr → String
  | .ident _ name => name
  | .string _ value => Quoted.literal value
  | .boolean _ value => if value then "true" else "false"
  | .number _ value => value.numeral
  | .template _ chunks inserts => "`" ++ printTemplate chunks (Expr.printInserts p.free inserts) ++ "`"
  | .array _ elements =>
    let isShort := elements.length ≤ 2
    let texts := Expr.printList (if isShort then p.free else p.deeper.free) elements
    let texts := if endsInHole elements then texts.dropLast ++ [","] else texts
    "[" ++ (if isShort then commaSeparated texts else commaLines p texts) ++ "]"
  | .object _ entries =>
    let isShort := entries.length ≤ 1
    let texts := Entry.printList (if isShort then p else p.deeper) entries
    parenthesized slot.lead.readsBlock (if isShort then bracedList texts else "\x7b" ++ commaLines p texts ++ "\x7d")
  | .hole => ""
  | .spread _ inner => "..." ++ Expr.print p.free (.asking Strength.assignment) inner
  | .member _ object name =>
    let gap := if object.isDigits && !name.startsWith "#" then " " else ""
    Expr.print (p.room .object) (slot.room .object) object ++ gap ++ "." ++ name
  | .call _ callee typeArguments arguments =>
    let isWrapped := slot.wraps p Strength.call
    let callee := Expr.print p.free ((slot.inside isWrapped).room (.enclosed Strength.call)) callee
    let arguments := commaSeparated (Expr.printList p.free arguments)
    parenthesized isWrapped (callee ++ angled (Phrase.printList p typeArguments) ++ "(" ++ arguments ++ ")")
  | .wrapped _ .parentheses inner =>
    if inner.isFunction then "(" ++ Expr.print p (.asking Strength.sequence) inner ++ ")" else Expr.print p slot inner
  | .wrapped _ (.asType type) inner =>
    let isWrapped := slot.wraps p Strength.comparison
    let inner := Expr.print p ((slot.inside isWrapped).room (.front Strength.unary)) inner
    parenthesized isWrapped (inner ++ " as " ++ Phrase.print p type)
  | .wrapped _ (.satisfies type) inner =>
    let isWrapped := slot.wraps p Strength.comparison
    let inner := Expr.print p ((slot.inside isWrapped).room (.front Strength.unary)) inner
    parenthesized isWrapped (inner ++ " satisfies " ++ Phrase.print p type)
  | .function func => parenthesized slot.lead.readsDeclaration (Func.printFull p.allowingCalls func)
  | .arrow func =>
    parenthesized (slot.wraps p Strength.assignment) (word func.head.isAsync "async" ++ Func.print p " =>" func)
  | .classExpr cls => parenthesized slot.lead.readsDeclaration (Class.print p.allowingCalls cls)
  | .form _ strength parts =>
    let isWrapped := slot.wraps p strength || (slot.lead.readsBlock && beginsWithBrace parts)
    parenthesized isWrapped (Part.printAll (p.inside isWrapped strength) (slot.inside isWrapped) parts)

/-- The texts of expressions between which commas stand. -/
def Expr.printList (p : Place) : List Expr → List String
  | [] => []
  | e :: es => Expr.print p (.asking Strength.assignment) e :: Expr.printList p es

/-- The texts of the expressions in a template. -/
def Expr.printInserts (p : Place) : List Expr → List String
  | [] => []
  | e :: es => Expr.print p (.asking Strength.sequence) e :: Expr.printInserts p es

/-- The text of a key. -/
def Key.print (p : Place) : Key → String
  | .label l => l.print
  | .privateName name => "#" ++ name
  | .number value _ => value.numeral
  | .numeral text => text
  | .computed e => "[" ++ Expr.print p.free (.asking Strength.assignment) e ++ "]"

/-- The text of a member of an object literal. -/
def Entry.print (p : Place) : Entry → String
  | .property _ _ .shorthand value => Expr.print p.free (.asking Strength.sequence) value
  | .property _ key .method (.function func) => func.head.print ++ Key.print p key ++ Func.printMethod p func
  | .property _ key .getter (.function func) => "get " ++ Key.print p key ++ Func.printMethod p func
  | .property _ key .setter (.function func) => "set " ++ Key.print p key ++ Func.printMethod p func
  | .property _ key _ value =>
    let text := Expr.print p.free (.asking Strength.assignment) value
    if key.isShorthandFor value then text else Key.print p key ++ ": " ++ text
  | .spread _ inner => "..." ++ Expr.print p.free (.asking Strength.assignment) inner

/-- The texts of the members of an object literal. -/
def Entry.printList (p : Place) : List Entry → List String
  | [] => []
  | e :: es => Entry.print p e :: Entry.printList p es

/-- The text behind a bound name. -/
def Typing.print (p : Place) : Typing → String
  | ⟨isOptional, type⟩ => (if isOptional then "?" else "") ++ Phrase.printOption p ": " type

/-- The text of a pattern or a parameter.  A space stands in front of what is left over of an array even if there is
nothing in front of it.  What the place refuses is refused in the value for a missing argument, but not in the values
for its missing parts. -/
def Pattern.print (p : Place) : Pattern → String
  | .name _ name typing => name ++ Typing.print p typing
  | .object _ parts typing => bracedList (Pattern.printList p.free parts) ++ Typing.print p typing
  | .array _ parts typing =>
    let gap := if isRestAlone parts then " " else ""
    let stop := if endsInPatternHole parts then "," else ""
    "[" ++ gap ++ commaSeparated (Pattern.printList p.free parts) ++ stop ++ "]" ++ Typing.print p typing
  | .property _ key _ value =>
    if key.isBoundAs value then Pattern.print p value else Key.print p key ++ ": " ++ Pattern.print p value
  | .hole => ""
  | .rest _ target typing => "..." ++ Pattern.print p target ++ Typing.print p typing
  | .withDefault _ target value => Pattern.print p target ++ " = " ++ Expr.print p (.asking Strength.assignment) value
  | .parameter _ decorators modifiers target =>
    Decorator.printAll p decorators ++ String.join (modifiers.map (· ++ " ")) ++ Pattern.print p target

/-- The texts of patterns. -/
def Pattern.printList (p : Place) : List Pattern → List String
  | [] => []
  | x :: xs => Pattern.print p x :: Pattern.printList p xs

/-- The text of a decorator. -/
def Decorator.print (p : Place) : Decorator → String
  | ⟨_, expr⟩ => "@" ++ parenthesized (!expr.isDecoratorLike) (Expr.print p.free (.asking Strength.sequence) expr)

/-- The texts of decorators, with a space behind each. -/
def Decorator.printAll (p : Place) : List Decorator → String
  | [] => ""
  | x :: xs => Decorator.print p x ++ " " ++ Decorator.printAll p xs

/-- The text of the body of a function, with what stands in front of it: the arrow, or nothing. -/
def Body.print (p : Place) (arrow : String) : Body → String
  | .absent => ""
  | .block statements => arrow ++ " " ++ bracedLines p (Stmt.printBody p.deeper statements)
  | .value expr => arrow ++ " " ++ Expr.print p { strength := Strength.assignment, lead := .arrowValue } expr

/-- The text of a function from its parameters on, with an arrow behind them or nothing. -/
def Func.print (p : Place) (arrow : String) : Func → String
  | ⟨_, generics, params, result, body⟩ =>
    Phrase.printGenerics p generics ++ "(" ++ commaSeparated (Pattern.printList p params) ++ ")" ++
      Phrase.printOption p ": " result ++ Body.print p arrow body

/-- The text of a method of an object from its parameters on.  The type of `this` is not written. -/
def Func.printMethod (p : Place) : Func → String
  | ⟨_, generics, params, result, body⟩ =>
    let texts := Pattern.printList p params
    let texts := if (params.head?.map Pattern.isThis).getD false then texts.drop 1 else texts
    Phrase.printGenerics p generics ++ "(" ++ commaSeparated texts ++ ")" ++ Phrase.printOption p ": " result ++
      Body.print p "" body

/-- The text of a function with its name. -/
def Func.printFull (p : Place) : Func → String
  | ⟨head, generics, params, result, body⟩ =>
    let name := match head.name with
      | some name => " " ++ name
      | none => if head.isGenerator then " " else ""
    word head.isDeclared "declare" ++ word head.isAsync "async" ++ "function" ++
      (if head.isGenerator then "*" else "") ++ name ++ Phrase.printGenerics p generics ++
      "(" ++ commaSeparated (Pattern.printList p params) ++ ")" ++ Phrase.printOption p ": " result ++
      Body.print p "" body

/-- The text of a class.  Only a class with a name shows its type parameters. -/
def Class.print (p : Place) : Class → String
  | ⟨head, decorators, generics, superclass, superArguments, interfaces, members⟩ =>
    let name := match head.name with
      | some name => " " ++ name ++ Phrase.printGenerics p generics
      | none => ""
    Decorator.printAll p decorators ++ word head.isDeclared "declare" ++ word head.isAbstract "abstract" ++
      "class" ++ name ++ Expr.printSuperclass p superclass ++ angled (Phrase.printList p superArguments) ++
      bases "implements" (Phrase.printList p interfaces) ++ " " ++ bracedLines p (Member.printLines p.deeper members)

/-- The text of the base class, with what stands in front of it. -/
def Expr.printSuperclass (p : Place) : Option Expr → String
  | none => ""
  | some e => " extends " ++ Expr.print p.free (.asking Strength.call) e

/-- The text of a member of a class. -/
def Member.print (p : Place) : Member → String
  | .method head decorators kind key func =>
    Decorator.printAll p decorators ++ head.print ++ kind.text ++ func.head.print ++ Key.print p key ++
      (if head.isOptional then "?" else "") ++ Func.print p "" func ++ func.body.stop
  | .property head decorators key type value =>
    Decorator.printAll p decorators ++ head.print ++ Key.print p key ++
      (if head.isOptional && !head.isAccessor then "?" else "") ++ Phrase.printOption p ": " type ++
      Expr.printInit p.free value ++ ";"
  | .staticBlock _ statements => "static " ++ bracedLines p (Stmt.printLines p.deeper statements)
  | .signature _ phrase => Phrase.print p phrase ++ ";"

/-- The members of a class as whole lines. -/
def Member.printLines (p : Place) : List Member → String
  | [] => ""
  | m :: ms => line p (Member.print p m) ++ Member.printLines p ms

/-- An equals sign and a value, if there is one. -/
def Expr.printInit (p : Place) : Option Expr → String
  | none => ""
  | some e => " = " ++ Expr.print p (.asking Strength.assignment) e

/-- The text of a member of an enumeration. -/
def Member.printConstant (p : Place) : Member → String
  | .property _ _ key _ none => Key.print p key
  | .property _ _ key _ (some value) => Key.print p key ++ " = " ++ Expr.print p (.asking Strength.sequence) value
  | _ => ""

/-- The texts of the members of an enumeration. -/
def Member.printConstants (p : Place) : List Member → List String
  | [] => []
  | m :: ms => Member.printConstant p m :: Member.printConstants p ms

/-- The text of a variable. -/
def Declarator.print (p : Place) : Declarator → String
  | ⟨_, .name _ name typing, isDefinite, init⟩ =>
    name ++ (if isDefinite then "!" else "") ++ Typing.print p typing ++ Expr.printInit p init
  | ⟨_, target, _, init⟩ => Pattern.print p target ++ Expr.printInit p init

/-- The texts of variables. -/
def Declarator.printList (p : Place) : List Declarator → List String
  | [] => []
  | x :: xs => Declarator.print p x :: Declarator.printList p xs

/-- The text of a declaration.  An enumeration is indented a second time, and an interface is never marked as
declared. -/
def Decl.print (p : Place) : Decl → String
  | .variables _ isDeclared keyword declarators =>
    word isDeclared "declare" ++ keyword ++ " " ++ commaSeparated (Declarator.printList p declarators) ++ ";"
  | .function func => Func.printFull p.allowingCalls func ++ func.body.stop
  | .classDecl cls => Class.print p.allowingCalls cls
  | .interface head generics supers body =>
    "interface " ++ head.name ++ Phrase.printGenerics p generics ++ bases "extends" (Phrase.printList p supers) ++
      " " ++ Phrase.print p body
  | .typeAlias head generics type =>
    word head.isDeclared "declare" ++ "type " ++ head.name ++ Phrase.printGenerics p generics ++ " = " ++
      Phrase.print p type ++ ";"
  | .enumeration head members =>
    let texts := Member.printConstants p.deeper members
    p.indent ++ word head.isDeclared "declare" ++ word head.isConst "const" ++ "enum " ++ head.name ++ " \x7b" ++
      (if texts.isEmpty then "" else commaLines p texts) ++ "\x7d"
  | .namespaceDecl _ isDeclared keyword name none =>
    word isDeclared "declare" ++ word (name != .global) keyword ++ name.print ++ ";"
  | .namespaceDecl _ isDeclared keyword name (some body) =>
    word isDeclared "declare" ++ word (name != .global) keyword ++ name.print ++ " " ++
      bracedLines p (Stmt.printBody p.deeper body)
  | .importAlias _ isTypeOnly name target =>
    "import " ++ word isTypeOnly "type" ++ name ++ " = " ++ target.print ++ ";"

/-- The text of a statement. -/
def Stmt.print (p : Place) : Stmt → String
  | .empty _ => ";"
  | .expr _ value => Expr.print p.free { lead := .statement } value ++ ";"
  | .directive _ text => printDirective text ++ ";"
  | .block _ statements => bracedLines p (Stmt.printLines p.deeper statements)
  | .cond _ test yes no =>
    let branch :=
      if yes.takesElse then " " ++ bracedLines p (line p.deeper (Stmt.print p.deeper yes))
      else yes.gap ++ Stmt.print p yes
    let gap := if yes.isBlock || yes.takesElse then " " else "\n" ++ p.indent
    "if (" ++ Expr.print p.free {} test ++ ")" ++ branch ++ Stmt.printElse p gap no
  | .ret _ none => "return;"
  | .ret _ (some value) => "return " ++ Expr.print p.free {} value ++ ";"
  | .decl decl => Decl.print p decl
  | .importNames data => data.print
  | .exportDecl _ _ decl => "export " ++ Decl.print p decl
  | .exportList data => data.print
  | .exportAll data => data.print
  | .exportDefault _ value =>
    "export default " ++ Expr.print p.free { strength := Strength.assignment, lead := .defaultExport } value ++ ";"
  | .exportDefaultDecl _ decl => "export default " ++ Decl.print p decl
  | .exportAssignment _ value => "export = " ++ Expr.print p.free {} value ++ ";"
  | .form _ parts => Part.printAll p {} parts

/-- The text of the other branch, with what stands in front of it. -/
def Stmt.printElse (p : Place) (gap : String) : Option Stmt → String
  | none => ""
  | some s => gap ++ "else" ++ s.gap ++ Stmt.print p s

/-- Statements as whole lines. -/
def Stmt.printLines (p : Place) : List Stmt → String
  | [] => ""
  | s :: ss => p.indent ++ Stmt.print p s ++ s.ending ++ Stmt.printLines p ss

/-- The statements of a function, a namespace or a module as whole lines.  A string that comes first stands between
parentheses, so that it is not read as a directive, and is not indented. -/
def Stmt.printBody (p : Place) : List Stmt → String
  | [] => ""
  | .expr _ value :: ss =>
    (if value.isString then "(" ++ Expr.print p {} value ++ ");\n" else
      line p (Expr.print p.free { lead := .statement } value ++ ";")) ++ Stmt.printLines p ss
  | s :: ss => p.indent ++ Stmt.print p s ++ s.ending ++ Stmt.printLines p ss

/-- The text of a part of a form. -/
def Part.print (p : Place) (slot : Slot) : Part → String
  | .text text => text
  | .expr room e => Expr.print (p.room room) (slot.room room) e
  | .key key => Key.print p key
  | .pattern x => Pattern.print p x
  | .generics parameters => Phrase.printGenerics p parameters
  | .stmt s => Stmt.print p s
  | .body s => s.gap ++ Stmt.print p s
  | .block statements => bracedLines p (Stmt.printLines p.deeper statements)
  | .line => "\n" ++ p.indent
  | .indent => p.indent
  | .deeper parts => Part.printAll p.deeper slot parts
  | .unwritten _ => ""

/-- The text of the parts of a form. -/
def Part.printAll (p : Place) (slot : Slot) : List Part → String
  | [] => ""
  | x :: xs =>
    let text := Part.print p slot x
    text ++ Part.printAll p (slot.behind text) xs

/-- The text of a phrase. -/
def Phrase.print (p : Place) : Phrase → String
  | ⟨parts⟩ => Part.printAll p {} parts

/-- The texts of phrases. -/
def Phrase.printList (p : Place) : List Phrase → List String
  | [] => []
  | x :: xs => Phrase.print p x :: Phrase.printList p xs

/-- The text of a phrase with a mark in front of it, if there is one. -/
def Phrase.printOption (p : Place) (mark : String) : Option Phrase → String
  | none => ""
  | some x => mark ++ Phrase.print p x

/-- Type parameters in angle brackets, if there are any.  Where there can be markup elements, a comma tells a single
one from the beginning of an element. -/
def Phrase.printGenerics (p : Place) : List Phrase → String
  | [] => ""
  | [x] => "<" ++ Phrase.print p x ++ (if p.isMarkup then "," else "") ++ ">"
  | x :: xs => "<" ++ commaLines p (Phrase.print p.deeper x :: Phrase.printList p.deeper xs) ++ ">"

end

/-- The text of a module. -/
def Program.print (m : Program) : String :=
  let first := (m.interpreter.map fun text => "#!" ++ text ++ "\n").getD ""
  first ++ Stmt.printBody { level := 0, isMarkup := m.isMarkup } m.statements

end ComponentHoist

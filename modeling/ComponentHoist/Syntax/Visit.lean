import ComponentHoist.Syntax.Tree

/-!
# ComponentHoist.Syntax.Visit — passes over the classes of a module

A visit walks over a module in the order of the source and meets each class before the classes inside it.  What it does
on the way are effects of a monad.  A plan says for each class what becomes of it.

* `Plan`: put another class in its place, or go on inside it with some decorators left out and members added.
* `Program.visit`: the module that comes of it, with the effects in the order of the visit.
* `Program.sweep`: a visit that changes each class where it stands and goes on inside what has become of it.
* `Program.classes`: all classes in their order.
* `Program.update`: the module with the class at a span replaced.
-/

namespace ComponentHoist

/-- What came of a visit: the new node, and what was noted on the way. -/
structure Visited (ρ α : Type) where
  node : α
  notes : List ρ

namespace Visited

variable {ρ α β : Type}

instance : Monad (Visited ρ) where
  pure a := ⟨a, []⟩
  bind v f := ⟨(f v.node).node, v.notes ++ (f v.node).notes⟩

/-- Takes a note. -/
def note (r : ρ) : Visited ρ Unit :=
  ⟨(), [r]⟩

@[simp] theorem node_pure (a : α) : (pure a : Visited ρ α).node = a := rfl

@[simp] theorem notes_pure (a : α) : (pure a : Visited ρ α).notes = [] := rfl

@[simp] theorem node_bind (v : Visited ρ α) (f : α → Visited ρ β) : (v >>= f).node = (f v.node).node := rfl

@[simp] theorem notes_bind (v : Visited ρ α) (f : α → Visited ρ β) :
    (v >>= f).notes = v.notes ++ (f v.node).notes := rfl

@[simp] theorem notes_map (f : α → β) (v : Visited ρ α) : (f <$> v).notes = v.notes :=
  List.append_nil _

@[simp] theorem notes_note (r : ρ) : (note r).notes = [r] := rfl

end Visited

/-- What becomes of a class. -/
inductive Plan (m : Type → Type) where
  /-- Another class takes its place.  Nothing inside either of them is visited. -/
  | replace (run : m Class)
  /-- The effect on entering comes first.  The decorators that are not kept are left out together with all that is
  inside them, the other parts are visited, and the new members come behind the old ones. -/
  | descend (enter : m Unit) (keeps : Decorator → Bool) (added : List Member)

variable {m : Type → Type} [Monad m]

mutual

/-- Visits an expression. -/
def Expr.visit (plan : Class → Plan m) : Expr → m Expr
  | .ident span name => pure (.ident span name)
  | .string span value => pure (.string span value)
  | .boolean span value => pure (.boolean span value)
  | .number span value => pure (.number span value)
  | .template span chunks inserts => do
    return .template span chunks (← Expr.visitList plan inserts)
  | .array span elements => do
    return .array span (← Expr.visitList plan elements)
  | .object span entries => do
    return .object span (← Entry.visitList plan entries)
  | .hole => pure .hole
  | .spread span inner => do
    return .spread span (← Expr.visit plan inner)
  | .member span object name => do
    return .member span (← Expr.visit plan object) name
  | .call span callee typeArguments arguments => do
    let callee ← Expr.visit plan callee
    let typeArguments ← Phrase.visitList plan typeArguments
    return .call span callee typeArguments (← Expr.visitList plan arguments)
  | .wrapped span wrapper inner => do
    let inner ← Expr.visit plan inner
    return .wrapped span (← Wrapper.visit plan wrapper) inner
  | .function func => do
    return .function (← Func.visit plan func)
  | .arrow func => do
    return .arrow (← Func.visit plan func)
  | .classExpr cls => do
    return .classExpr (← Class.visit plan cls)
  | .form span strength parts => do
    return .form span strength (← Part.visitList plan parts)

/-- Visits expressions one after the other. -/
def Expr.visitList (plan : Class → Plan m) : List Expr → m (List Expr)
  | [] => pure []
  | e :: es => do
    let e ← Expr.visit plan e
    return e :: (← Expr.visitList plan es)

/-- Visits an expression that may be missing. -/
def Expr.visitOption (plan : Class → Plan m) : Option Expr → m (Option Expr)
  | none => pure none
  | some e => do
    return some (← Expr.visit plan e)

/-- Visits what an expression is wrapped in. -/
def Wrapper.visit (plan : Class → Plan m) : Wrapper → m Wrapper
  | .parentheses => pure .parentheses
  | .asType type => do
    return .asType (← Phrase.visit plan type)
  | .satisfies type => do
    return .satisfies (← Phrase.visit plan type)

/-- Visits a key. -/
def Key.visit (plan : Class → Plan m) : Key → m Key
  | .label l => pure (.label l)
  | .privateName name => pure (.privateName name)
  | .number value source => pure (.number value source)
  | .numeral text => pure (.numeral text)
  | .computed e => do
    return .computed (← Expr.visit plan e)

/-- Visits a member of an object literal. -/
def Entry.visit (plan : Class → Plan m) : Entry → m Entry
  | .property span key form value => do
    let key ← Key.visit plan key
    return .property span key form (← Expr.visit plan value)
  | .spread span inner => do
    return .spread span (← Expr.visit plan inner)

/-- Visits the members of an object literal one after the other. -/
def Entry.visitList (plan : Class → Plan m) : List Entry → m (List Entry)
  | [] => pure []
  | e :: es => do
    let e ← Entry.visit plan e
    return e :: (← Entry.visitList plan es)

/-- Visits what follows a bound name. -/
def Typing.visit (plan : Class → Plan m) : Typing → m Typing
  | ⟨isOptional, type⟩ => do
    return ⟨isOptional, ← Phrase.visitOption plan type⟩

/-- Visits a pattern. -/
def Pattern.visit (plan : Class → Plan m) : Pattern → m Pattern
  | .name span name typing => do
    return .name span name (← Typing.visit plan typing)
  | .object span parts typing => do
    let parts ← Pattern.visitList plan parts
    return .object span parts (← Typing.visit plan typing)
  | .array span parts typing => do
    let parts ← Pattern.visitList plan parts
    return .array span parts (← Typing.visit plan typing)
  | .property span key isShorthand value => do
    let key ← Key.visit plan key
    return .property span key isShorthand (← Pattern.visit plan value)
  | .hole => pure .hole
  | .rest span target typing => do
    let target ← Pattern.visit plan target
    return .rest span target (← Typing.visit plan typing)
  | .withDefault span target value => do
    let target ← Pattern.visit plan target
    return .withDefault span target (← Expr.visit plan value)
  | .parameter span decorators modifiers target => do
    let decorators ← Decorator.visitList plan (fun _ => true) decorators
    return .parameter span decorators modifiers (← Pattern.visit plan target)

/-- Visits patterns one after the other. -/
def Pattern.visitList (plan : Class → Plan m) : List Pattern → m (List Pattern)
  | [] => pure []
  | p :: ps => do
    let p ← Pattern.visit plan p
    return p :: (← Pattern.visitList plan ps)

/-- Visits a decorator. -/
def Decorator.visit (plan : Class → Plan m) : Decorator → m Decorator
  | ⟨span, expr⟩ => do
    return ⟨span, ← Expr.visit plan expr⟩

/-- Visits those decorators that are kept and leaves out the others. -/
def Decorator.visitList (plan : Class → Plan m) (keeps : Decorator → Bool) :
    List Decorator → m (List Decorator)
  | [] => pure []
  | d :: ds =>
    if keeps d then do
      let d ← Decorator.visit plan d
      return d :: (← Decorator.visitList plan keeps ds)
    else Decorator.visitList plan keeps ds

/-- Visits the body of a function. -/
def Body.visit (plan : Class → Plan m) : Body → m Body
  | .absent => pure .absent
  | .block statements => do
    return .block (← Stmt.visitList plan statements)
  | .value expr => do
    return .value (← Expr.visit plan expr)

/-- Visits a function. -/
def Func.visit (plan : Class → Plan m) : Func → m Func
  | ⟨head, generics, params, result, body⟩ => do
    let generics ← Phrase.visitList plan generics
    let params ← Pattern.visitList plan params
    let result ← Phrase.visitOption plan result
    return ⟨head, generics, params, result, ← Body.visit plan body⟩

/-- Visits a class as its plan says. -/
def Class.visit (plan : Class → Plan m) : Class → m Class
  | ⟨head, decorators, generics, superclass, superArguments, interfaces, members⟩ =>
    match plan ⟨head, decorators, generics, superclass, superArguments, interfaces, members⟩ with
    | .replace run => run
    | .descend enter keeps added => do
      enter
      let decorators ← Decorator.visitList plan keeps decorators
      let generics ← Phrase.visitList plan generics
      let superclass ← Expr.visitOption plan superclass
      let superArguments ← Phrase.visitList plan superArguments
      let interfaces ← Phrase.visitList plan interfaces
      let members ← Member.visitList plan members
      return ⟨head, decorators, generics, superclass, superArguments, interfaces, members ++ added⟩

/-- Visits a member of a class. -/
def Member.visit (plan : Class → Plan m) : Member → m Member
  | .method head decorators kind key func => do
    let decorators ← Decorator.visitList plan (fun _ => true) decorators
    let key ← Key.visit plan key
    return .method head decorators kind key (← Func.visit plan func)
  | .property head decorators key type value => do
    let decorators ← Decorator.visitList plan (fun _ => true) decorators
    let key ← Key.visit plan key
    let type ← Phrase.visitOption plan type
    return .property head decorators key type (← Expr.visitOption plan value)
  | .staticBlock span statements => do
    return .staticBlock span (← Stmt.visitList plan statements)
  | .signature span phrase => do
    return .signature span (← Phrase.visit plan phrase)

/-- Visits the members of a class one after the other. -/
def Member.visitList (plan : Class → Plan m) : List Member → m (List Member)
  | [] => pure []
  | m :: ms => do
    let m ← Member.visit plan m
    return m :: (← Member.visitList plan ms)

/-- Visits a variable and its initial value. -/
def Declarator.visit (plan : Class → Plan m) : Declarator → m Declarator
  | ⟨span, target, isDefinite, init⟩ => do
    let target ← Pattern.visit plan target
    return ⟨span, target, isDefinite, ← Expr.visitOption plan init⟩

/-- Visits variables one after the other. -/
def Declarator.visitList (plan : Class → Plan m) : List Declarator → m (List Declarator)
  | [] => pure []
  | d :: ds => do
    let d ← Declarator.visit plan d
    return d :: (← Declarator.visitList plan ds)

/-- Visits a declaration. -/
def Decl.visit (plan : Class → Plan m) : Decl → m Decl
  | .variables span isDeclared keyword declarators => do
    return .variables span isDeclared keyword (← Declarator.visitList plan declarators)
  | .function func => do
    return .function (← Func.visit plan func)
  | .classDecl cls => do
    return .classDecl (← Class.visit plan cls)
  | .interface head generics bases body => do
    let generics ← Phrase.visitList plan generics
    let bases ← Phrase.visitList plan bases
    return .interface head generics bases (← Phrase.visit plan body)
  | .typeAlias head generics type => do
    let generics ← Phrase.visitList plan generics
    return .typeAlias head generics (← Phrase.visit plan type)
  | .enumeration head members => do
    return .enumeration head (← Member.visitList plan members)
  | .namespaceDecl span isDeclared keyword name none =>
    pure (.namespaceDecl span isDeclared keyword name none)
  | .namespaceDecl span isDeclared keyword name (some body) => do
    return .namespaceDecl span isDeclared keyword name (some (← Stmt.visitList plan body))
  | .importAlias span isTypeOnly name target => pure (.importAlias span isTypeOnly name target)

/-- Visits a statement. -/
def Stmt.visit (plan : Class → Plan m) : Stmt → m Stmt
  | .empty span => pure (.empty span)
  | .expr span value => do
    return .expr span (← Expr.visit plan value)
  | .directive span text => pure (.directive span text)
  | .block span statements => do
    return .block span (← Stmt.visitList plan statements)
  | .cond span test yes no => do
    let test ← Expr.visit plan test
    let yes ← Stmt.visit plan yes
    return .cond span test yes (← Stmt.visitOption plan no)
  | .ret span value => do
    return .ret span (← Expr.visitOption plan value)
  | .decl decl => do
    return .decl (← Decl.visit plan decl)
  | .importNames data => pure (.importNames data)
  | .exportDecl span isTypeOnly decl => do
    return .exportDecl span isTypeOnly (← Decl.visit plan decl)
  | .exportList data => pure (.exportList data)
  | .exportAll data => pure (.exportAll data)
  | .exportDefault span value => do
    return .exportDefault span (← Expr.visit plan value)
  | .exportDefaultDecl span decl => do
    return .exportDefaultDecl span (← Decl.visit plan decl)
  | .exportAssignment span value => do
    return .exportAssignment span (← Expr.visit plan value)
  | .form span parts => do
    return .form span (← Part.visitList plan parts)

/-- Visits statements one after the other. -/
def Stmt.visitList (plan : Class → Plan m) : List Stmt → m (List Stmt)
  | [] => pure []
  | s :: ss => do
    let s ← Stmt.visit plan s
    return s :: (← Stmt.visitList plan ss)

/-- Visits a statement that may be missing. -/
def Stmt.visitOption (plan : Class → Plan m) : Option Stmt → m (Option Stmt)
  | none => pure none
  | some s => do
    return some (← Stmt.visit plan s)

/-- Visits a part of a form. -/
def Part.visit (plan : Class → Plan m) : Part → m Part
  | .text text => pure (.text text)
  | .expr room e => do
    return .expr room (← Expr.visit plan e)
  | .key key => do
    return .key (← Key.visit plan key)
  | .pattern p => do
    return .pattern (← Pattern.visit plan p)
  | .generics parameters => do
    return .generics (← Phrase.visitList plan parameters)
  | .stmt s => do
    return .stmt (← Stmt.visit plan s)
  | .body s => do
    return .body (← Stmt.visit plan s)
  | .block statements => do
    return .block (← Stmt.visitList plan statements)
  | .line => pure .line
  | .indent => pure .indent
  | .deeper parts => do
    return .deeper (← Part.visitList plan parts)
  | .unwritten parts => do
    return .unwritten (← Part.visitList plan parts)

/-- Visits the parts of a form one after the other. -/
def Part.visitList (plan : Class → Plan m) : List Part → m (List Part)
  | [] => pure []
  | p :: ps => do
    let p ← Part.visit plan p
    return p :: (← Part.visitList plan ps)

/-- Visits a phrase. -/
def Phrase.visit (plan : Class → Plan m) : Phrase → m Phrase
  | ⟨parts⟩ => do
    return ⟨← Part.visitList plan parts⟩

/-- Visits phrases one after the other. -/
def Phrase.visitList (plan : Class → Plan m) : List Phrase → m (List Phrase)
  | [] => pure []
  | x :: xs => do
    let x ← Phrase.visit plan x
    return x :: (← Phrase.visitList plan xs)

/-- Visits a phrase that may be missing. -/
def Phrase.visitOption (plan : Class → Plan m) : Option Phrase → m (Option Phrase)
  | none => pure none
  | some x => do
    return some (← Phrase.visit plan x)

end

/-- Visits the parts of a class, of its decorators those that are kept. -/
def Class.visitParts (plan : Class → Plan m) (keeps : Decorator → Bool) : Class → m Class
  | ⟨head, decorators, generics, superclass, superArguments, interfaces, members⟩ => do
    let decorators ← Decorator.visitList plan keeps decorators
    let generics ← Phrase.visitList plan generics
    let superclass ← Expr.visitOption plan superclass
    let superArguments ← Phrase.visitList plan superArguments
    let interfaces ← Phrase.visitList plan interfaces
    let members ← Member.visitList plan members
    return ⟨head, decorators, generics, superclass, superArguments, interfaces, members⟩

/-- Changes a class where it stands, and then the classes inside what has become of it, as far down as the depth
allows. -/
def Class.sweep (step : Class → m Class) : Nat → Class → m Class
  | 0, cls => step cls
  | depth + 1, cls => do
    let changed ← step cls
    changed.visitParts (fun inner => .replace (inner.sweep step depth)) (fun _ => true)

namespace Program

/-- Visits the statements of a module. -/
def visit (plan : Class → Plan m) (p : Program) : m Program := do
  return { p with statements := ← Stmt.visitList plan p.statements }

/-- All classes of a module, each before the classes inside it and otherwise by position. -/
def classes (p : Program) : List Class :=
  (p.visit fun c => .descend (Visited.note c) (fun _ => true) []).notes

/-- Changes each class of a module where it stands, each before the classes inside what has become of it.  No class
lies deeper than there are classes. -/
def sweep (step : Class → m Class) (p : Program) : m Program :=
  p.visit fun c => .replace (c.sweep step p.classes.length)

/-- The module with the class at `span` replaced by `f` of it. -/
def update (p : Program) (span : Span) (f : Class → Class) : Program :=
  let plan (c : Class) : Plan Id :=
    if c.head.span = span then .replace (pure (f c)) else .descend (pure ()) (fun _ => true) []
  (p.visit plan).run

end Program

end ComponentHoist

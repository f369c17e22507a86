import ComponentHoist.Proofs.Nesting

/-!
# ComponentHoist.Proofs.Fusion — two visits, one after the other

A visit without effects that rewrites a node, and a visit of what has come of it, are one visit of the node: it does at
each outer class what the two do there one after the other.

* `Plan.after`: the plan of that visit.
* `Expr.visit_visit` and its kin, `Class.visitParts_visitParts`, `Program.visit_visit`: the two visits are that one.
* `Class.inner_visitParts`, `Program.outer_visit`: the classes inside a rewritten node are those inside the node, each
  of them rewritten.
-/

namespace ComponentHoist

variable {n : Type → Type} [Monad n]

/-- Rewrites a class by one plan and visits what has come of it by another. -/
def Plan.after (p : Class → Plan Id) (q : Class → Plan n) (c : Class) : Plan n :=
  .replace ((c.visit p).run.visit q)

variable (p : Class → Plan Id) (q : Class → Plan n)

theorem Class.visit_visit (c : Class) : (c.visit p).run.visit q = c.visit (Plan.after p q) :=
  (Class.visit_replace rfl).symm

/-! ### One induction over the syntax

It stops at classes, where the plans take over.  Everywhere else both visits walk alike, so the second one finds the
node that the first one has left and walks on. -/

mutual

theorem Expr.visit_visit : ∀ x : Expr, Expr.visit q (Expr.visit p x).run = Expr.visit (Plan.after p q) x
  | .ident _ _ | .string _ _ | .boolean _ _ | .number _ _ | .hole => rfl
  | .template _ _ inserts => by simp [Expr.visit, Expr.visitList_visitList inserts]
  | .array _ elements => by simp [Expr.visit, Expr.visitList_visitList elements]
  | .object _ entries => by simp [Expr.visit, Entry.visitList_visitList entries]
  | .spread _ inner => by simp [Expr.visit, Expr.visit_visit inner]
  | .member _ object _ => by simp [Expr.visit, Expr.visit_visit object]
  | .call _ callee typeArguments arguments => by
    simp [Expr.visit, Expr.visit_visit callee, Phrase.visitList_visitList typeArguments,
      Expr.visitList_visitList arguments]
  | .wrapped _ wrapper inner => by simp [Expr.visit, Wrapper.visit_visit wrapper, Expr.visit_visit inner]
  | .function func => by simp [Expr.visit, Func.visit_visit func]
  | .arrow func => by simp [Expr.visit, Func.visit_visit func]
  | .classExpr cls => by simp [Expr.visit, Class.visit_visit p q cls]
  | .form _ _ parts => by simp [Expr.visit, Part.visitList_visitList parts]

theorem Expr.visitList_visitList : ∀ x : List Expr,
    Expr.visitList q (Expr.visitList p x).run = Expr.visitList (Plan.after p q) x
  | [] => rfl
  | e :: es => by simp [Expr.visitList, Expr.visit_visit e, Expr.visitList_visitList es]

theorem Expr.visitOption_visitOption : ∀ x : Option Expr,
    Expr.visitOption q (Expr.visitOption p x).run = Expr.visitOption (Plan.after p q) x
  | none => rfl
  | some e => by simp [Expr.visitOption, Expr.visit_visit e]

theorem Wrapper.visit_visit : ∀ x : Wrapper,
    Wrapper.visit q (Wrapper.visit p x).run = Wrapper.visit (Plan.after p q) x
  | .parentheses => rfl
  | .asType type => by simp [Wrapper.visit, Phrase.visit_visit type]
  | .satisfies type => by simp [Wrapper.visit, Phrase.visit_visit type]

theorem Key.visit_visit : ∀ x : Key, Key.visit q (Key.visit p x).run = Key.visit (Plan.after p q) x
  | .label _ | .privateName _ | .number _ _ | .numeral _ => rfl
  | .computed e => by simp [Key.visit, Expr.visit_visit e]

theorem Entry.visit_visit : ∀ x : Entry, Entry.visit q (Entry.visit p x).run = Entry.visit (Plan.after p q) x
  | .property _ key _ value => by simp [Entry.visit, Key.visit_visit key, Expr.visit_visit value]
  | .spread _ inner => by simp [Entry.visit, Expr.visit_visit inner]

theorem Entry.visitList_visitList : ∀ x : List Entry,
    Entry.visitList q (Entry.visitList p x).run = Entry.visitList (Plan.after p q) x
  | [] => rfl
  | e :: es => by simp [Entry.visitList, Entry.visit_visit e, Entry.visitList_visitList es]

theorem Typing.visit_visit : ∀ x : Typing, Typing.visit q (Typing.visit p x).run = Typing.visit (Plan.after p q) x
  | ⟨_, type⟩ => by simp [Typing.visit, Phrase.visitOption_visitOption type]

theorem Pattern.visit_visit : ∀ x : Pattern,
    Pattern.visit q (Pattern.visit p x).run = Pattern.visit (Plan.after p q) x
  | .hole => rfl
  | .name _ _ typing => by simp [Pattern.visit, Typing.visit_visit typing]
  | .object _ parts typing => by
    simp [Pattern.visit, Pattern.visitList_visitList parts, Typing.visit_visit typing]
  | .array _ parts typing => by
    simp [Pattern.visit, Pattern.visitList_visitList parts, Typing.visit_visit typing]
  | .property _ key _ value => by simp [Pattern.visit, Key.visit_visit key, Pattern.visit_visit value]
  | .rest _ target typing => by simp [Pattern.visit, Pattern.visit_visit target, Typing.visit_visit typing]
  | .withDefault _ target value => by simp [Pattern.visit, Pattern.visit_visit target, Expr.visit_visit value]
  | .parameter _ decorators _ target => by
    simp [Pattern.visit, Decorator.visitList_visitList (fun _ => true) decorators, Pattern.visit_visit target]

theorem Pattern.visitList_visitList : ∀ x : List Pattern,
    Pattern.visitList q (Pattern.visitList p x).run = Pattern.visitList (Plan.after p q) x
  | [] => rfl
  | t :: ts => by simp [Pattern.visitList, Pattern.visit_visit t, Pattern.visitList_visitList ts]

theorem Decorator.visit_visit : ∀ x : Decorator,
    Decorator.visit q (Decorator.visit p x).run = Decorator.visit (Plan.after p q) x
  | ⟨_, expr⟩ => by simp [Decorator.visit, Expr.visit_visit expr]

/-- The second visit finds only those decorators that the first one has kept. -/
theorem Decorator.visitList_visitList (keeps : Decorator → Bool) : ∀ x : List Decorator,
    Decorator.visitList q (fun _ => true) (Decorator.visitList p keeps x).run =
      Decorator.visitList (Plan.after p q) keeps x
  | [] => rfl
  | d :: ds => by
    by_cases kept : keeps d = true
    · simp [Decorator.visitList, kept, Decorator.visit_visit d, Decorator.visitList_visitList keeps ds]
    · simp [Decorator.visitList, kept, Decorator.visitList_visitList keeps ds]

theorem Body.visit_visit : ∀ x : Body, Body.visit q (Body.visit p x).run = Body.visit (Plan.after p q) x
  | .absent => rfl
  | .block statements => by simp [Body.visit, Stmt.visitList_visitList statements]
  | .value expr => by simp [Body.visit, Expr.visit_visit expr]

theorem Func.visit_visit : ∀ x : Func, Func.visit q (Func.visit p x).run = Func.visit (Plan.after p q) x
  | ⟨_, generics, params, result, body⟩ => by
    simp [Func.visit, Phrase.visitList_visitList generics, Pattern.visitList_visitList params,
      Phrase.visitOption_visitOption result, Body.visit_visit body]

theorem Member.visit_visit : ∀ x : Member, Member.visit q (Member.visit p x).run = Member.visit (Plan.after p q) x
  | .method _ decorators _ key func => by
    simp [Member.visit, Decorator.visitList_visitList (fun _ => true) decorators, Key.visit_visit key,
      Func.visit_visit func]
  | .property _ decorators key type value => by
    simp [Member.visit, Decorator.visitList_visitList (fun _ => true) decorators, Key.visit_visit key,
      Phrase.visitOption_visitOption type, Expr.visitOption_visitOption value]
  | .staticBlock _ statements => by simp [Member.visit, Stmt.visitList_visitList statements]
  | .signature _ phrase => by simp [Member.visit, Phrase.visit_visit phrase]

theorem Member.visitList_visitList : ∀ x : List Member,
    Member.visitList q (Member.visitList p x).run = Member.visitList (Plan.after p q) x
  | [] => rfl
  | f :: fs => by simp [Member.visitList, Member.visit_visit f, Member.visitList_visitList fs]

theorem Declarator.visit_visit : ∀ x : Declarator,
    Declarator.visit q (Declarator.visit p x).run = Declarator.visit (Plan.after p q) x
  | ⟨_, target, _, init⟩ => by
    simp [Declarator.visit, Pattern.visit_visit target, Expr.visitOption_visitOption init]

theorem Declarator.visitList_visitList : ∀ x : List Declarator,
    Declarator.visitList q (Declarator.visitList p x).run = Declarator.visitList (Plan.after p q) x
  | [] => rfl
  | d :: ds => by simp [Declarator.visitList, Declarator.visit_visit d, Declarator.visitList_visitList ds]

theorem Decl.visit_visit : ∀ x : Decl, Decl.visit q (Decl.visit p x).run = Decl.visit (Plan.after p q) x
  | .variables _ _ _ declarators => by simp [Decl.visit, Declarator.visitList_visitList declarators]
  | .function func => by simp [Decl.visit, Func.visit_visit func]
  | .classDecl cls => by simp [Decl.visit, Class.visit_visit p q cls]
  | .interface _ generics bases body => by
    simp [Decl.visit, Phrase.visitList_visitList generics, Phrase.visitList_visitList bases, Phrase.visit_visit body]
  | .typeAlias _ generics type => by
    simp [Decl.visit, Phrase.visitList_visitList generics, Phrase.visit_visit type]
  | .enumeration _ members => by simp [Decl.visit, Member.visitList_visitList members]
  | .namespaceDecl _ _ _ _ none | .importAlias _ _ _ _ => rfl
  | .namespaceDecl _ _ _ _ (some body) => by simp [Decl.visit, Stmt.visitList_visitList body]

theorem Stmt.visit_visit : ∀ x : Stmt, Stmt.visit q (Stmt.visit p x).run = Stmt.visit (Plan.after p q) x
  | .empty _ | .directive _ _ | .importNames _ | .exportList _ | .exportAll _ => rfl
  | .expr _ value => by simp [Stmt.visit, Expr.visit_visit value]
  | .block _ statements => by simp [Stmt.visit, Stmt.visitList_visitList statements]
  | .cond _ test yes no => by
    simp [Stmt.visit, Expr.visit_visit test, Stmt.visit_visit yes, Stmt.visitOption_visitOption no]
  | .ret _ value => by simp [Stmt.visit, Expr.visitOption_visitOption value]
  | .decl decl => by simp [Stmt.visit, Decl.visit_visit decl]
  | .exportDecl _ _ decl => by simp [Stmt.visit, Decl.visit_visit decl]
  | .exportDefault _ value => by simp [Stmt.visit, Expr.visit_visit value]
  | .exportDefaultDecl _ decl => by simp [Stmt.visit, Decl.visit_visit decl]
  | .exportAssignment _ value => by simp [Stmt.visit, Expr.visit_visit value]
  | .form _ parts => by simp [Stmt.visit, Part.visitList_visitList parts]

theorem Stmt.visitList_visitList : ∀ x : List Stmt,
    Stmt.visitList q (Stmt.visitList p x).run = Stmt.visitList (Plan.after p q) x
  | [] => rfl
  | s :: ss => by simp [Stmt.visitList, Stmt.visit_visit s, Stmt.visitList_visitList ss]

theorem Stmt.visitOption_visitOption : ∀ x : Option Stmt,
    Stmt.visitOption q (Stmt.visitOption p x).run = Stmt.visitOption (Plan.after p q) x
  | none => rfl
  | some s => by simp [Stmt.visitOption, Stmt.visit_visit s]

theorem Part.visit_visit : ∀ x : Part, Part.visit q (Part.visit p x).run = Part.visit (Plan.after p q) x
  | .text _ | .line | .indent => rfl
  | .expr _ e => by simp [Part.visit, Expr.visit_visit e]
  | .key key => by simp [Part.visit, Key.visit_visit key]
  | .pattern t => by simp [Part.visit, Pattern.visit_visit t]
  | .generics parameters => by simp [Part.visit, Phrase.visitList_visitList parameters]
  | .stmt s => by simp [Part.visit, Stmt.visit_visit s]
  | .body s => by simp [Part.visit, Stmt.visit_visit s]
  | .block statements => by simp [Part.visit, Stmt.visitList_visitList statements]
  | .deeper parts => by simp [Part.visit, Part.visitList_visitList parts]
  | .unwritten parts => by simp [Part.visit, Part.visitList_visitList parts]

theorem Part.visitList_visitList : ∀ x : List Part,
    Part.visitList q (Part.visitList p x).run = Part.visitList (Plan.after p q) x
  | [] => rfl
  | t :: ts => by simp [Part.visitList, Part.visit_visit t, Part.visitList_visitList ts]

theorem Phrase.visit_visit : ∀ x : Phrase, Phrase.visit q (Phrase.visit p x).run = Phrase.visit (Plan.after p q) x
  | ⟨parts⟩ => by simp [Phrase.visit, Part.visitList_visitList parts]

theorem Phrase.visitList_visitList : ∀ x : List Phrase,
    Phrase.visitList q (Phrase.visitList p x).run = Phrase.visitList (Plan.after p q) x
  | [] => rfl
  | x :: xs => by simp [Phrase.visitList, Phrase.visit_visit x, Phrase.visitList_visitList xs]

theorem Phrase.visitOption_visitOption : ∀ x : Option Phrase,
    Phrase.visitOption q (Phrase.visitOption p x).run = Phrase.visitOption (Plan.after p q) x
  | none => rfl
  | some x => by simp [Phrase.visitOption, Phrase.visit_visit x]

end

/-! ### Classes and modules -/

/-- The parts of a class that are left after a visit are visited like the kept parts of the class before it. -/
theorem Class.visitParts_visitParts (keeps : Decorator → Bool) : ∀ c : Class,
    (c.visitParts p keeps).run.visitParts q (fun _ => true) = c.visitParts (Plan.after p q) keeps
  | ⟨_, decorators, generics, superclass, superArguments, interfaces, members⟩ => by
    simp [Class.visitParts, Decorator.visitList_visitList p q keeps decorators, Phrase.visitList_visitList p q generics,
      Expr.visitOption_visitOption p q superclass, Phrase.visitList_visitList p q superArguments,
      Phrase.visitList_visitList p q interfaces, Member.visitList_visitList p q members]

theorem Program.visit_visit (x : Program) : (x.visit p).run.visit q = x.visit (Plan.after p q) := by
  simp [Program.visit, Stmt.visitList_visitList p q x.statements]

theorem notes_visit_after_collect (c : Class) : (c.visit (Plan.after p Plan.collect)).notes = [(c.visit p).run] := by
  have noted : (c.visit p).run.visit Plan.collect = ⟨(c.visit p).run, [(c.visit p).run]⟩ := Class.visit_replace rfl
  rw [← Class.visit_visit, noted]

theorem Class.inner_visitParts (keeps : Decorator → Bool) (c : Class) :
    ((c.visitParts p keeps).run.inner fun _ => true) = (c.inner keeps).map fun d => (d.visit p).run := by
  rw [Class.inner, Class.visitParts_visitParts, Class.notes_visitParts, funext (notes_visit_after_collect p)]
  exact List.map_eq_flatMap.symm

theorem Program.outer_visit (x : Program) : (x.visit p).run.outer = x.outer.map fun c => (c.visit p).run := by
  rw [Program.outer, Program.visit_visit, Program.notes_visit, funext (notes_visit_after_collect p)]
  exact List.map_eq_flatMap.symm

end ComponentHoist

import ComponentHoist.Proofs.Classwise

/-!
# ComponentHoist.Proofs.Stay — a visit that changes no class

A visit changes a node at its outer classes only.  So a node stays as it is if each of them does.

* `Class.exchange`: a class with the classes directly inside it exchanged for others.
* `Expr.visit_stay` and its kin: a visit that leaves every class as it is leaves the node as it is.
* `Class.exchange_eq_self`: so a class stays as it is if the classes directly inside it do.
-/

namespace ComponentHoist

/-- Puts another class in the place of each class that is met. -/
def Plan.exchange (f : Class → Class) (c : Class) : Plan Id :=
  .replace (pure (f c))

/-- Leaves each class that is met as it is. -/
def Plan.stay : Class → Plan Id :=
  Plan.exchange id

theorem Class.visit_exchange (f : Class → Class) (c : Class) : (c.visit (Plan.exchange f)).run = f c := by
  rw [visit_replace (rfl : Plan.exchange f c = _)]
  rfl

theorem Class.visit_stay (c : Class) : (c.visit Plan.stay).run = c :=
  c.visit_exchange id

/-! ### One induction over the syntax -/

mutual

theorem Expr.visit_stay : ∀ x : Expr, (Expr.visit Plan.stay x).run = x
  | .ident _ _ | .string _ _ | .boolean _ _ | .number _ _ | .hole => rfl
  | .template _ _ inserts => by simp [Expr.visit, Expr.visitList_stay inserts]
  | .array _ elements => by simp [Expr.visit, Expr.visitList_stay elements]
  | .object _ entries => by simp [Expr.visit, Entry.visitList_stay entries]
  | .spread _ inner => by simp [Expr.visit, Expr.visit_stay inner]
  | .member _ object _ => by simp [Expr.visit, Expr.visit_stay object]
  | .call _ callee typeArguments arguments => by
    simp [Expr.visit, Expr.visit_stay callee, Phrase.visitList_stay typeArguments,
      Expr.visitList_stay arguments]
  | .wrapped _ wrapper inner => by simp [Expr.visit, Wrapper.visit_stay wrapper, Expr.visit_stay inner]
  | .function func => by simp [Expr.visit, Func.visit_stay func]
  | .arrow func => by simp [Expr.visit, Func.visit_stay func]
  | .classExpr cls => by simp [Expr.visit, Class.visit_stay cls]
  | .form _ _ parts => by simp [Expr.visit, Part.visitList_stay parts]

theorem Expr.visitList_stay : ∀ x : List Expr, (Expr.visitList Plan.stay x).run = x
  | [] => rfl
  | e :: es => by simp [Expr.visitList, Expr.visit_stay e, Expr.visitList_stay es]

theorem Expr.visitOption_stay : ∀ x : Option Expr, (Expr.visitOption Plan.stay x).run = x
  | none => rfl
  | some e => by simp [Expr.visitOption, Expr.visit_stay e]

theorem Wrapper.visit_stay : ∀ x : Wrapper, (Wrapper.visit Plan.stay x).run = x
  | .parentheses => rfl
  | .asType type => by simp [Wrapper.visit, Phrase.visit_stay type]
  | .satisfies type => by simp [Wrapper.visit, Phrase.visit_stay type]

theorem Key.visit_stay : ∀ x : Key, (Key.visit Plan.stay x).run = x
  | .label _ | .privateName _ | .number _ _ | .numeral _ => rfl
  | .computed e => by simp [Key.visit, Expr.visit_stay e]

theorem Entry.visit_stay : ∀ x : Entry, (Entry.visit Plan.stay x).run = x
  | .property _ key _ value => by simp [Entry.visit, Key.visit_stay key, Expr.visit_stay value]
  | .spread _ inner => by simp [Entry.visit, Expr.visit_stay inner]

theorem Entry.visitList_stay : ∀ x : List Entry, (Entry.visitList Plan.stay x).run = x
  | [] => rfl
  | e :: es => by simp [Entry.visitList, Entry.visit_stay e, Entry.visitList_stay es]

theorem Typing.visit_stay : ∀ x : Typing, (Typing.visit Plan.stay x).run = x
  | ⟨_, type⟩ => by simp [Typing.visit, Phrase.visitOption_stay type]

theorem Pattern.visit_stay : ∀ x : Pattern, (Pattern.visit Plan.stay x).run = x
  | .hole => rfl
  | .name _ _ typing => by simp [Pattern.visit, Typing.visit_stay typing]
  | .object _ parts typing => by
    simp [Pattern.visit, Pattern.visitList_stay parts, Typing.visit_stay typing]
  | .array _ parts typing => by
    simp [Pattern.visit, Pattern.visitList_stay parts, Typing.visit_stay typing]
  | .property _ key _ value => by simp [Pattern.visit, Key.visit_stay key, Pattern.visit_stay value]
  | .rest _ target typing => by simp [Pattern.visit, Pattern.visit_stay target, Typing.visit_stay typing]
  | .withDefault _ target value => by simp [Pattern.visit, Pattern.visit_stay target, Expr.visit_stay value]
  | .parameter _ decorators _ target => by
    simp [Pattern.visit, Decorator.visitList_stay decorators, Pattern.visit_stay target]

theorem Pattern.visitList_stay : ∀ x : List Pattern, (Pattern.visitList Plan.stay x).run = x
  | [] => rfl
  | t :: ts => by simp [Pattern.visitList, Pattern.visit_stay t, Pattern.visitList_stay ts]

theorem Decorator.visit_stay : ∀ x : Decorator, (Decorator.visit Plan.stay x).run = x
  | ⟨_, expr⟩ => by simp [Decorator.visit, Expr.visit_stay expr]

theorem Decorator.visitList_stay : ∀ x : List Decorator, (Decorator.visitList Plan.stay (fun _ => true) x).run = x
  | [] => rfl
  | d :: ds => by simp [Decorator.visitList, Decorator.visit_stay d, Decorator.visitList_stay ds]

theorem Body.visit_stay : ∀ x : Body, (Body.visit Plan.stay x).run = x
  | .absent => rfl
  | .block statements => by simp [Body.visit, Stmt.visitList_stay statements]
  | .value expr => by simp [Body.visit, Expr.visit_stay expr]

theorem Func.visit_stay : ∀ x : Func, (Func.visit Plan.stay x).run = x
  | ⟨_, generics, params, result, body⟩ => by
    simp [Func.visit, Phrase.visitList_stay generics, Pattern.visitList_stay params,
      Phrase.visitOption_stay result, Body.visit_stay body]

theorem Member.visit_stay : ∀ x : Member, (Member.visit Plan.stay x).run = x
  | .method _ decorators _ key func => by
    simp [Member.visit, Decorator.visitList_stay decorators, Key.visit_stay key,
      Func.visit_stay func]
  | .property _ decorators key type value => by
    simp [Member.visit, Decorator.visitList_stay decorators, Key.visit_stay key,
      Phrase.visitOption_stay type, Expr.visitOption_stay value]
  | .staticBlock _ statements => by simp [Member.visit, Stmt.visitList_stay statements]
  | .signature _ phrase => by simp [Member.visit, Phrase.visit_stay phrase]

theorem Member.visitList_stay : ∀ x : List Member, (Member.visitList Plan.stay x).run = x
  | [] => rfl
  | f :: fs => by simp [Member.visitList, Member.visit_stay f, Member.visitList_stay fs]

theorem Declarator.visit_stay : ∀ x : Declarator, (Declarator.visit Plan.stay x).run = x
  | ⟨_, target, _, init⟩ => by
    simp [Declarator.visit, Pattern.visit_stay target, Expr.visitOption_stay init]

theorem Declarator.visitList_stay : ∀ x : List Declarator, (Declarator.visitList Plan.stay x).run = x
  | [] => rfl
  | d :: ds => by simp [Declarator.visitList, Declarator.visit_stay d, Declarator.visitList_stay ds]

theorem Decl.visit_stay : ∀ x : Decl, (Decl.visit Plan.stay x).run = x
  | .variables _ _ _ declarators => by simp [Decl.visit, Declarator.visitList_stay declarators]
  | .function func => by simp [Decl.visit, Func.visit_stay func]
  | .classDecl cls => by simp [Decl.visit, Class.visit_stay cls]
  | .interface _ generics bases body => by
    simp [Decl.visit, Phrase.visitList_stay generics, Phrase.visitList_stay bases, Phrase.visit_stay body]
  | .typeAlias _ generics type => by
    simp [Decl.visit, Phrase.visitList_stay generics, Phrase.visit_stay type]
  | .enumeration _ members => by simp [Decl.visit, Member.visitList_stay members]
  | .namespaceDecl _ _ _ _ none | .importAlias _ _ _ _ => rfl
  | .namespaceDecl _ _ _ _ (some body) => by simp [Decl.visit, Stmt.visitList_stay body]

theorem Stmt.visit_stay : ∀ x : Stmt, (Stmt.visit Plan.stay x).run = x
  | .empty _ | .directive _ _ | .importNames _ | .exportList _ | .exportAll _ => rfl
  | .expr _ value => by simp [Stmt.visit, Expr.visit_stay value]
  | .block _ statements => by simp [Stmt.visit, Stmt.visitList_stay statements]
  | .cond _ test yes no => by
    simp [Stmt.visit, Expr.visit_stay test, Stmt.visit_stay yes, Stmt.visitOption_stay no]
  | .ret _ value => by simp [Stmt.visit, Expr.visitOption_stay value]
  | .decl decl => by simp [Stmt.visit, Decl.visit_stay decl]
  | .exportDecl _ _ decl => by simp [Stmt.visit, Decl.visit_stay decl]
  | .exportDefault _ value => by simp [Stmt.visit, Expr.visit_stay value]
  | .exportDefaultDecl _ decl => by simp [Stmt.visit, Decl.visit_stay decl]
  | .exportAssignment _ value => by simp [Stmt.visit, Expr.visit_stay value]
  | .form _ parts => by simp [Stmt.visit, Part.visitList_stay parts]

theorem Stmt.visitList_stay : ∀ x : List Stmt, (Stmt.visitList Plan.stay x).run = x
  | [] => rfl
  | s :: ss => by simp [Stmt.visitList, Stmt.visit_stay s, Stmt.visitList_stay ss]

theorem Stmt.visitOption_stay : ∀ x : Option Stmt, (Stmt.visitOption Plan.stay x).run = x
  | none => rfl
  | some s => by simp [Stmt.visitOption, Stmt.visit_stay s]

theorem Part.visit_stay : ∀ x : Part, (Part.visit Plan.stay x).run = x
  | .text _ | .line | .indent => rfl
  | .expr _ e => by simp [Part.visit, Expr.visit_stay e]
  | .key key => by simp [Part.visit, Key.visit_stay key]
  | .pattern t => by simp [Part.visit, Pattern.visit_stay t]
  | .generics parameters => by simp [Part.visit, Phrase.visitList_stay parameters]
  | .stmt s => by simp [Part.visit, Stmt.visit_stay s]
  | .body s => by simp [Part.visit, Stmt.visit_stay s]
  | .block statements => by simp [Part.visit, Stmt.visitList_stay statements]
  | .deeper parts => by simp [Part.visit, Part.visitList_stay parts]
  | .unwritten parts => by simp [Part.visit, Part.visitList_stay parts]

theorem Part.visitList_stay : ∀ x : List Part, (Part.visitList Plan.stay x).run = x
  | [] => rfl
  | t :: ts => by simp [Part.visitList, Part.visit_stay t, Part.visitList_stay ts]

theorem Phrase.visit_stay : ∀ x : Phrase, (Phrase.visit Plan.stay x).run = x
  | ⟨parts⟩ => by simp [Phrase.visit, Part.visitList_stay parts]

theorem Phrase.visitList_stay : ∀ x : List Phrase, (Phrase.visitList Plan.stay x).run = x
  | [] => rfl
  | x :: xs => by simp [Phrase.visitList, Phrase.visit_stay x, Phrase.visitList_stay xs]

theorem Phrase.visitOption_stay : ∀ x : Option Phrase, (Phrase.visitOption Plan.stay x).run = x
  | none => rfl
  | some x => by simp [Phrase.visitOption, Phrase.visit_stay x]

end


/-! ### The classes inside a class -/

namespace Class

/-- The class with each class directly inside it exchanged for another.  All other parts are left as they are. -/
def exchange (f : Class → Class) (c : Class) : Class :=
  (c.visitParts (Plan.exchange f) fun _ => true).run

theorem visitParts_stay : ∀ c : Class, (c.visitParts Plan.stay fun _ => true).run = c
  | ⟨_, decorators, generics, superclass, superArguments, interfaces, members⟩ => by
    simp [visitParts, Decorator.visitList_stay decorators, Phrase.visitList_stay generics,
      Expr.visitOption_stay superclass, Phrase.visitList_stay superArguments, Phrase.visitList_stay interfaces,
      Member.visitList_stay members]

/-- A class stays as it is if the classes directly inside it do. -/
theorem exchange_eq_self {f : Class → Class} (c : Class) (inside : ∀ d ∈ c.inner fun _ => true, f d = d) :
    c.exchange f = c := by
  have alike : (c.visitParts (Plan.exchange f) fun _ => true) = c.visitParts Plan.stay fun _ => true := by
    refine visitParts_rel (RunRelation.equality Id) _ _ _ c fun d hd => ?_
    exact (d.visit_exchange f).trans ((inside d hd).trans d.visit_stay.symm)
  rw [exchange, alike, visitParts_stay]

/-- A visit is that exchange. -/
theorem run_visitParts (plan : Class → Plan Id) (c : Class) :
    (c.visitParts plan fun _ => true).run = c.exchange fun d => (d.visit plan).run := by
  refine congrArg Id.run (visitParts_rel (RunRelation.equality Id) _ _ _ c fun d _ => ?_)
  exact (d.visit_exchange fun d => (d.visit plan).run).symm

end Class
end ComponentHoist

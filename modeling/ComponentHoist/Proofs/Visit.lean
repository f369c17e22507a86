import ComponentHoist.Syntax.Visit

/-!
# ComponentHoist.Proofs.Visit — what a visit does is decided at the classes

Between the classes a visit only walks.  The classes that it meets first, without going inside any of them, are the
outer classes of a node, and two visits that agree at these agree on the whole node.

* `RunRelation`: a relation between runs in two monads that goes through their operations.
* `Expr.visit_rel` and its kin: two visits are related on a node if they are on its outer classes.
* `Class.visitParts_rel`, `Program.visit_rel`: the same for the parts of a class and for a module.
-/

namespace ComponentHoist

/-! ### Relations between runs -/

/-- A relation between runs in two monads that goes through their operations.  If it is strict, then related runs give
the same value. -/
structure RunRelation (m n : Type → Type) [Monad m] [Monad n] where
  Holds : {α : Type} → m α → n α → Prop
  strict : Prop
  holds_pure : ∀ {α : Type} {a b : α}, (strict → a = b) → Holds (pure a) (pure b)
  holds_bind : ∀ {α β : Type} {x : m α} {y : n α} {f : α → m β} {g : α → n β}, Holds x y →
    (∀ a b, (strict → a = b) → Holds (f a) (g b)) → Holds (x >>= f) (y >>= g)

/-- Notes a class and goes no further. -/
def Plan.collect (c : Class) : Plan (Visited Class) :=
  .replace ⟨c, [c]⟩

namespace RunRelation

variable {m n : Type → Type} [Monad m] [Monad n]

/-- Whether two plans lead to related runs on a class. -/
def Agree (R : RunRelation m n) (p : Class → Plan m) (q : Class → Plan n) (c : Class) : Prop :=
  R.Holds (c.visit p) (c.visit q)

/-- Whether two runs are related if all the classes that are noted have the property. -/
def HoldsIf (R : RunRelation m n) (P : Class → Prop) {α : Type} (v : Visited Class α) (x : m α) (y : n α) : Prop :=
  (∀ c ∈ v.notes, P c) → R.Holds x y

variable {R : RunRelation m n} {P : Class → Prop} {α β : Type}

theorem HoldsIf.pure {a b c : α} (h : R.strict → b = c) :
    R.HoldsIf P (Pure.pure a) (Pure.pure b) (Pure.pure c) :=
  fun _ => R.holds_pure h

theorem HoldsIf.refl (a : α) : R.HoldsIf P (Pure.pure a) (Pure.pure a) (Pure.pure a) :=
  .pure fun _ => rfl

theorem HoldsIf.bind {v : Visited Class α} {x : m α} {y : n α} {k : α → Visited Class β} {f : α → m β} {g : α → n β}
    (h : R.HoldsIf P v x y) (h' : ∀ a b c, (R.strict → b = c) → R.HoldsIf P (k a) (f b) (g c)) :
    R.HoldsIf P (v >>= k) (x >>= f) (y >>= g) := by
  intro hP
  simp only [Visited.notes_bind, List.mem_append] at hP
  refine R.holds_bind (h fun c hc => hP c (.inl hc)) fun b c hbc => ?_
  exact h' v.node b c hbc fun d hd => hP d (.inr hd)

theorem HoldsIf.map {v : Visited Class α} {x : m α} {y : n α} (f : α → β) (h : R.HoldsIf P v x y) :
    R.HoldsIf P (do return f (← v)) (do return f (← x)) (do return f (← y)) :=
  h.bind fun _ _ _ e => .pure fun s => by rw [e s]

end RunRelation

/-! ### Visits that agree at the outer classes

One induction over the syntax.  It stops at classes: what happens inside them is up to the plans. -/

section Related

open RunRelation

variable {m n : Type → Type} [Monad m] [Monad n] (R : RunRelation m n) (p : Class → Plan m) (q : Class → Plan n)

theorem Class.visit_replace {plan : Class → Plan m} {c : Class} {run : m Class} (h : plan c = .replace run) :
    c.visit plan = run := by
  cases c
  simp [Class.visit, h]

theorem Class.visit_rel (c : Class) :
    R.HoldsIf (R.Agree p q) (c.visit Plan.collect) (c.visit p) (c.visit q) := by
  have noted : c.visit Plan.collect = ⟨c, [c]⟩ := Class.visit_replace rfl
  intro h
  exact h c (by simp [noted])

mutual

theorem Expr.visit_rel : ∀ x : Expr,
    R.HoldsIf (R.Agree p q) (Expr.visit Plan.collect x) (Expr.visit p x) (Expr.visit q x)
  | .ident _ _ | .string _ _ | .boolean _ _ | .number _ _ | .hole => .refl _
  | .template _ _ inserts => .map _ (Expr.visitList_rel inserts)
  | .array _ elements => .map _ (Expr.visitList_rel elements)
  | .object _ entries => .map _ (Entry.visitList_rel entries)
  | .spread _ inner => .map _ (Expr.visit_rel inner)
  | .member _ object _ => .map _ (Expr.visit_rel object)
  | .call _ callee typeArguments arguments => by
    refine .bind (Expr.visit_rel callee) fun _ _ _ e₁ => ?_
    refine .bind (Phrase.visitList_rel typeArguments) fun _ _ _ e₂ => ?_
    exact .bind (Expr.visitList_rel arguments) fun _ _ _ e₃ => .pure fun s => by rw [e₁ s, e₂ s, e₃ s]
  | .wrapped _ wrapper inner => by
    refine .bind (Expr.visit_rel inner) fun _ _ _ e₁ => ?_
    exact .bind (Wrapper.visit_rel wrapper) fun _ _ _ e₂ => .pure fun s => by rw [e₁ s, e₂ s]
  | .function func => .map _ (Func.visit_rel func)
  | .arrow func => .map _ (Func.visit_rel func)
  | .classExpr cls => .map _ (Class.visit_rel R p q cls)
  | .form _ _ parts => .map _ (Part.visitList_rel parts)

theorem Expr.visitList_rel : ∀ x : List Expr,
    R.HoldsIf (R.Agree p q) (Expr.visitList Plan.collect x) (Expr.visitList p x) (Expr.visitList q x)
  | [] => .refl _
  | e :: es => by
    refine .bind (Expr.visit_rel e) fun _ _ _ e₁ => ?_
    exact .bind (Expr.visitList_rel es) fun _ _ _ e₂ => .pure fun s => by rw [e₁ s, e₂ s]

theorem Expr.visitOption_rel : ∀ x : Option Expr,
    R.HoldsIf (R.Agree p q) (Expr.visitOption Plan.collect x) (Expr.visitOption p x) (Expr.visitOption q x)
  | none => .refl _
  | some e => .map _ (Expr.visit_rel e)

theorem Wrapper.visit_rel : ∀ x : Wrapper,
    R.HoldsIf (R.Agree p q) (Wrapper.visit Plan.collect x) (Wrapper.visit p x) (Wrapper.visit q x)
  | .parentheses => .refl _
  | .asType type => .map _ (Phrase.visit_rel type)
  | .satisfies type => .map _ (Phrase.visit_rel type)

theorem Key.visit_rel : ∀ x : Key,
    R.HoldsIf (R.Agree p q) (Key.visit Plan.collect x) (Key.visit p x) (Key.visit q x)
  | .label _ | .privateName _ | .number _ _ | .numeral _ => .refl _
  | .computed e => .map _ (Expr.visit_rel e)

theorem Entry.visit_rel : ∀ x : Entry,
    R.HoldsIf (R.Agree p q) (Entry.visit Plan.collect x) (Entry.visit p x) (Entry.visit q x)
  | .property _ key _ value => by
    refine .bind (Key.visit_rel key) fun _ _ _ e₁ => ?_
    exact .bind (Expr.visit_rel value) fun _ _ _ e₂ => .pure fun s => by rw [e₁ s, e₂ s]
  | .spread _ inner => .map _ (Expr.visit_rel inner)

theorem Entry.visitList_rel : ∀ x : List Entry,
    R.HoldsIf (R.Agree p q) (Entry.visitList Plan.collect x) (Entry.visitList p x) (Entry.visitList q x)
  | [] => .refl _
  | e :: es => by
    refine .bind (Entry.visit_rel e) fun _ _ _ e₁ => ?_
    exact .bind (Entry.visitList_rel es) fun _ _ _ e₂ => .pure fun s => by rw [e₁ s, e₂ s]

theorem Typing.visit_rel : ∀ x : Typing,
    R.HoldsIf (R.Agree p q) (Typing.visit Plan.collect x) (Typing.visit p x) (Typing.visit q x)
  | ⟨_, type⟩ => .map _ (Phrase.visitOption_rel type)

theorem Pattern.visit_rel : ∀ x : Pattern,
    R.HoldsIf (R.Agree p q) (Pattern.visit Plan.collect x) (Pattern.visit p x) (Pattern.visit q x)
  | .name _ _ typing => .map _ (Typing.visit_rel typing)
  | .object _ parts typing => by
    refine .bind (Pattern.visitList_rel parts) fun _ _ _ e₁ => ?_
    exact .bind (Typing.visit_rel typing) fun _ _ _ e₂ => .pure fun s => by rw [e₁ s, e₂ s]
  | .array _ parts typing => by
    refine .bind (Pattern.visitList_rel parts) fun _ _ _ e₁ => ?_
    exact .bind (Typing.visit_rel typing) fun _ _ _ e₂ => .pure fun s => by rw [e₁ s, e₂ s]
  | .property _ key _ value => by
    refine .bind (Key.visit_rel key) fun _ _ _ e₁ => ?_
    exact .bind (Pattern.visit_rel value) fun _ _ _ e₂ => .pure fun s => by rw [e₁ s, e₂ s]
  | .hole => .refl _
  | .rest _ target typing => by
    refine .bind (Pattern.visit_rel target) fun _ _ _ e₁ => ?_
    exact .bind (Typing.visit_rel typing) fun _ _ _ e₂ => .pure fun s => by rw [e₁ s, e₂ s]
  | .withDefault _ target value => by
    refine .bind (Pattern.visit_rel target) fun _ _ _ e₁ => ?_
    exact .bind (Expr.visit_rel value) fun _ _ _ e₂ => .pure fun s => by rw [e₁ s, e₂ s]
  | .parameter _ decorators _ target => by
    refine .bind (Decorator.visitList_rel (fun _ => true) decorators) fun _ _ _ e₁ => ?_
    exact .bind (Pattern.visit_rel target) fun _ _ _ e₂ => .pure fun s => by rw [e₁ s, e₂ s]

theorem Pattern.visitList_rel : ∀ x : List Pattern,
    R.HoldsIf (R.Agree p q) (Pattern.visitList Plan.collect x) (Pattern.visitList p x) (Pattern.visitList q x)
  | [] => .refl _
  | t :: ts => by
    refine .bind (Pattern.visit_rel t) fun _ _ _ e₁ => ?_
    exact .bind (Pattern.visitList_rel ts) fun _ _ _ e₂ => .pure fun s => by rw [e₁ s, e₂ s]

theorem Decorator.visit_rel : ∀ x : Decorator,
    R.HoldsIf (R.Agree p q) (Decorator.visit Plan.collect x) (Decorator.visit p x) (Decorator.visit q x)
  | ⟨_, expr⟩ => .map _ (Expr.visit_rel expr)

theorem Decorator.visitList_rel (keeps : Decorator → Bool) : ∀ x : List Decorator,
    R.HoldsIf (R.Agree p q) (Decorator.visitList Plan.collect keeps x) (Decorator.visitList p keeps x)
      (Decorator.visitList q keeps x)
  | [] => .refl _
  | d :: ds => by
    simp only [Decorator.visitList]
    split
    · refine .bind (Decorator.visit_rel d) fun _ _ _ e₁ => ?_
      exact .bind (Decorator.visitList_rel keeps ds) fun _ _ _ e₂ => .pure fun s => by rw [e₁ s, e₂ s]
    · exact Decorator.visitList_rel keeps ds

theorem Body.visit_rel : ∀ x : Body,
    R.HoldsIf (R.Agree p q) (Body.visit Plan.collect x) (Body.visit p x) (Body.visit q x)
  | .absent => .refl _
  | .block statements => .map _ (Stmt.visitList_rel statements)
  | .value expr => .map _ (Expr.visit_rel expr)

theorem Func.visit_rel : ∀ x : Func,
    R.HoldsIf (R.Agree p q) (Func.visit Plan.collect x) (Func.visit p x) (Func.visit q x)
  | ⟨_, generics, params, result, body⟩ => by
    refine .bind (Phrase.visitList_rel generics) fun _ _ _ e₁ => ?_
    refine .bind (Pattern.visitList_rel params) fun _ _ _ e₂ => ?_
    refine .bind (Phrase.visitOption_rel result) fun _ _ _ e₃ => ?_
    exact .bind (Body.visit_rel body) fun _ _ _ e₄ => .pure fun s => by rw [e₁ s, e₂ s, e₃ s, e₄ s]

theorem Member.visit_rel : ∀ x : Member,
    R.HoldsIf (R.Agree p q) (Member.visit Plan.collect x) (Member.visit p x) (Member.visit q x)
  | .method _ decorators _ key func => by
    refine .bind (Decorator.visitList_rel (fun _ => true) decorators) fun _ _ _ e₁ => ?_
    refine .bind (Key.visit_rel key) fun _ _ _ e₂ => ?_
    exact .bind (Func.visit_rel func) fun _ _ _ e₃ => .pure fun s => by rw [e₁ s, e₂ s, e₃ s]
  | .property _ decorators key type value => by
    refine .bind (Decorator.visitList_rel (fun _ => true) decorators) fun _ _ _ e₁ => ?_
    refine .bind (Key.visit_rel key) fun _ _ _ e₂ => ?_
    refine .bind (Phrase.visitOption_rel type) fun _ _ _ e₃ => ?_
    exact .bind (Expr.visitOption_rel value) fun _ _ _ e₄ => .pure fun s => by rw [e₁ s, e₂ s, e₃ s, e₄ s]
  | .staticBlock _ statements => .map _ (Stmt.visitList_rel statements)
  | .signature _ phrase => .map _ (Phrase.visit_rel phrase)

theorem Member.visitList_rel : ∀ x : List Member,
    R.HoldsIf (R.Agree p q) (Member.visitList Plan.collect x) (Member.visitList p x) (Member.visitList q x)
  | [] => .refl _
  | f :: fs => by
    refine .bind (Member.visit_rel f) fun _ _ _ e₁ => ?_
    exact .bind (Member.visitList_rel fs) fun _ _ _ e₂ => .pure fun s => by rw [e₁ s, e₂ s]

theorem Declarator.visit_rel : ∀ x : Declarator,
    R.HoldsIf (R.Agree p q) (Declarator.visit Plan.collect x) (Declarator.visit p x) (Declarator.visit q x)
  | ⟨_, target, _, init⟩ => by
    refine .bind (Pattern.visit_rel target) fun _ _ _ e₁ => ?_
    exact .bind (Expr.visitOption_rel init) fun _ _ _ e₂ => .pure fun s => by rw [e₁ s, e₂ s]

theorem Declarator.visitList_rel : ∀ x : List Declarator,
    R.HoldsIf (R.Agree p q) (Declarator.visitList Plan.collect x) (Declarator.visitList p x) (Declarator.visitList q x)
  | [] => .refl _
  | d :: ds => by
    refine .bind (Declarator.visit_rel d) fun _ _ _ e₁ => ?_
    exact .bind (Declarator.visitList_rel ds) fun _ _ _ e₂ => .pure fun s => by rw [e₁ s, e₂ s]

theorem Decl.visit_rel : ∀ x : Decl,
    R.HoldsIf (R.Agree p q) (Decl.visit Plan.collect x) (Decl.visit p x) (Decl.visit q x)
  | .variables _ _ _ declarators => .map _ (Declarator.visitList_rel declarators)
  | .function func => .map _ (Func.visit_rel func)
  | .classDecl cls => .map _ (Class.visit_rel R p q cls)
  | .interface _ generics bases body => by
    refine .bind (Phrase.visitList_rel generics) fun _ _ _ e₁ => ?_
    refine .bind (Phrase.visitList_rel bases) fun _ _ _ e₂ => ?_
    exact .bind (Phrase.visit_rel body) fun _ _ _ e₃ => .pure fun s => by rw [e₁ s, e₂ s, e₃ s]
  | .typeAlias _ generics type => by
    refine .bind (Phrase.visitList_rel generics) fun _ _ _ e₁ => ?_
    exact .bind (Phrase.visit_rel type) fun _ _ _ e₂ => .pure fun s => by rw [e₁ s, e₂ s]
  | .enumeration _ members => .map _ (Member.visitList_rel members)
  | .namespaceDecl _ _ _ _ none | .importAlias _ _ _ _ => .refl _
  | .namespaceDecl _ _ _ _ (some body) => .map _ (Stmt.visitList_rel body)

theorem Stmt.visit_rel : ∀ x : Stmt,
    R.HoldsIf (R.Agree p q) (Stmt.visit Plan.collect x) (Stmt.visit p x) (Stmt.visit q x)
  | .empty _ | .directive _ _ | .importNames _ | .exportList _ | .exportAll _ => .refl _
  | .expr _ value => .map _ (Expr.visit_rel value)
  | .block _ statements => .map _ (Stmt.visitList_rel statements)
  | .cond _ test yes no => by
    refine .bind (Expr.visit_rel test) fun _ _ _ e₁ => ?_
    refine .bind (Stmt.visit_rel yes) fun _ _ _ e₂ => ?_
    exact .bind (Stmt.visitOption_rel no) fun _ _ _ e₃ => .pure fun s => by rw [e₁ s, e₂ s, e₃ s]
  | .ret _ value => .map _ (Expr.visitOption_rel value)
  | .decl decl => .map _ (Decl.visit_rel decl)
  | .exportDecl _ _ decl => .map _ (Decl.visit_rel decl)
  | .exportDefault _ value => .map _ (Expr.visit_rel value)
  | .exportDefaultDecl _ decl => .map _ (Decl.visit_rel decl)
  | .exportAssignment _ value => .map _ (Expr.visit_rel value)
  | .form _ parts => .map _ (Part.visitList_rel parts)

theorem Stmt.visitList_rel : ∀ x : List Stmt,
    R.HoldsIf (R.Agree p q) (Stmt.visitList Plan.collect x) (Stmt.visitList p x) (Stmt.visitList q x)
  | [] => .refl _
  | s :: ss => by
    refine .bind (Stmt.visit_rel s) fun _ _ _ e₁ => ?_
    exact .bind (Stmt.visitList_rel ss) fun _ _ _ e₂ => .pure fun s => by rw [e₁ s, e₂ s]

theorem Stmt.visitOption_rel : ∀ x : Option Stmt,
    R.HoldsIf (R.Agree p q) (Stmt.visitOption Plan.collect x) (Stmt.visitOption p x) (Stmt.visitOption q x)
  | none => .refl _
  | some s => .map _ (Stmt.visit_rel s)

theorem Part.visit_rel : ∀ x : Part,
    R.HoldsIf (R.Agree p q) (Part.visit Plan.collect x) (Part.visit p x) (Part.visit q x)
  | .text _ | .line | .indent => .refl _
  | .expr _ e => .map _ (Expr.visit_rel e)
  | .key key => .map _ (Key.visit_rel key)
  | .pattern t => .map _ (Pattern.visit_rel t)
  | .generics parameters => .map _ (Phrase.visitList_rel parameters)
  | .stmt s => .map _ (Stmt.visit_rel s)
  | .body s => .map _ (Stmt.visit_rel s)
  | .block statements => .map _ (Stmt.visitList_rel statements)
  | .deeper parts => .map _ (Part.visitList_rel parts)
  | .unwritten parts => .map _ (Part.visitList_rel parts)

theorem Part.visitList_rel : ∀ x : List Part,
    R.HoldsIf (R.Agree p q) (Part.visitList Plan.collect x) (Part.visitList p x) (Part.visitList q x)
  | [] => .refl _
  | t :: ts => by
    refine .bind (Part.visit_rel t) fun _ _ _ e₁ => ?_
    exact .bind (Part.visitList_rel ts) fun _ _ _ e₂ => .pure fun s => by rw [e₁ s, e₂ s]

theorem Phrase.visit_rel : ∀ x : Phrase,
    R.HoldsIf (R.Agree p q) (Phrase.visit Plan.collect x) (Phrase.visit p x) (Phrase.visit q x)
  | ⟨parts⟩ => .map _ (Part.visitList_rel parts)

theorem Phrase.visitList_rel : ∀ x : List Phrase,
    R.HoldsIf (R.Agree p q) (Phrase.visitList Plan.collect x) (Phrase.visitList p x) (Phrase.visitList q x)
  | [] => .refl _
  | x :: xs => by
    refine .bind (Phrase.visit_rel x) fun _ _ _ e₁ => ?_
    exact .bind (Phrase.visitList_rel xs) fun _ _ _ e₂ => .pure fun s => by rw [e₁ s, e₂ s]

theorem Phrase.visitOption_rel : ∀ x : Option Phrase,
    R.HoldsIf (R.Agree p q) (Phrase.visitOption Plan.collect x) (Phrase.visitOption p x) (Phrase.visitOption q x)
  | none => .refl _
  | some x => .map _ (Phrase.visit_rel x)

end

/-- Two visits are related on the parts of a class if they are on its inner classes. -/
theorem Class.visitParts_rel (keeps : Decorator → Bool) : ∀ x : Class,
    R.HoldsIf (R.Agree p q) (x.visitParts Plan.collect keeps) (x.visitParts p keeps) (x.visitParts q keeps)
  | ⟨_, decorators, generics, superclass, superArguments, interfaces, members⟩ => by
    refine .bind (Decorator.visitList_rel R p q keeps decorators) fun _ _ _ e₁ => ?_
    refine .bind (Phrase.visitList_rel R p q generics) fun _ _ _ e₂ => ?_
    refine .bind (Expr.visitOption_rel R p q superclass) fun _ _ _ e₃ => ?_
    refine .bind (Phrase.visitList_rel R p q superArguments) fun _ _ _ e₄ => ?_
    refine .bind (Phrase.visitList_rel R p q interfaces) fun _ _ _ e₅ => ?_
    exact .bind (Member.visitList_rel R p q members) fun _ _ _ e₆ => .pure fun s => by
      rw [e₁ s, e₂ s, e₃ s, e₄ s, e₅ s, e₆ s]

/-- Two visits are related on a module if they are on its outer classes. -/
theorem Program.visit_rel (x : Program) :
    R.HoldsIf (R.Agree p q) (x.visit Plan.collect) (x.visit p) (x.visit q) :=
  .map _ (Stmt.visitList_rel R p q x.statements)

end Related

end ComponentHoist

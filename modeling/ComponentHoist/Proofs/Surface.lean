import ComponentHoist.Proofs.Nesting
import ComponentHoist.Validation

/-!
# ComponentHoist.Proofs.Surface — what the checks and the exports see of a node

The checks of a class and the exports of a module look at names, at spans and at literals, and never inside a class.  A
visit without effects that keeps the heads of classes changes nothing of this.

* `Class.surface`: what the checks see of a class.
* `Decorator.surface_visit`, `Class.surface_visitParts`: it is the same after a visit.
* `Program.exports_visit`: so are the exports of a module.
-/

namespace ComponentHoist

variable {plan : Class → Plan Id}

/-! ### Lists -/

theorem Expr.run_visitList (es : List Expr) :
    (Expr.visitList plan es).run = es.map fun e => (Expr.visit plan e).run := by
  induction es with
  | nil => rfl
  | cons e es ih => simp [Expr.visitList, ih]

theorem Entry.run_visitList (es : List Entry) :
    (Entry.visitList plan es).run = es.map fun e => (Entry.visit plan e).run := by
  induction es with
  | nil => rfl
  | cons e es ih => simp [Entry.visitList, ih]

theorem Pattern.run_visitList (ps : List Pattern) :
    (Pattern.visitList plan ps).run = ps.map fun p => (Pattern.visit plan p).run := by
  induction ps with
  | nil => rfl
  | cons p ps ih => simp [Pattern.visitList, ih]

theorem Decorator.run_visitList (keeps : Decorator → Bool) (ds : List Decorator) :
    (Decorator.visitList plan keeps ds).run = (ds.filter keeps).map fun d => (Decorator.visit plan d).run := by
  induction ds with
  | nil => rfl
  | cons d ds ih =>
    by_cases kept : keeps d = true
    · simp [Decorator.visitList, kept, ih]
    · simp [Decorator.visitList, kept, ih]

theorem Member.run_visitList (ms : List Member) :
    (Member.visitList plan ms).run = ms.map fun m => (Member.visit plan m).run := by
  induction ms with
  | nil => rfl
  | cons m ms ih => simp [Member.visitList, ih]

theorem Declarator.run_visitList (ds : List Declarator) :
    (Declarator.visitList plan ds).run = ds.map fun d => (Declarator.visit plan d).run := by
  induction ds with
  | nil => rfl
  | cons d ds ih => simp [Declarator.visitList, ih]

theorem Stmt.run_visitList (ss : List Stmt) :
    (Stmt.visitList plan ss).run = ss.map fun s => (Stmt.visit plan s).run := by
  induction ss with
  | nil => rfl
  | cons s ss ih => simp [Stmt.visitList, ih]

/-! ### Expressions -/

theorem Func.head_visit (f : Func) : (Func.visit plan f).run.head = f.head := by
  cases f
  simp [Func.visit]

theorem Expr.unwrap_visit : ∀ e : Expr, (Expr.visit plan e).run.unwrap = (Expr.visit plan e.unwrap).run
  | .wrapped _ _ inner => by simp [Expr.visit, Expr.unwrap, Expr.unwrap_visit inner]
  | .ident .. | .string .. | .boolean .. | .number .. | .hole => rfl
  | .template .. | .array .. | .object .. | .spread .. | .member .. | .call .. | .function .. | .arrow ..
  | .classExpr .. | .form .. => by simp [Expr.visit, Expr.unwrap]

theorem Expr.staticString?_visit (e : Expr) : (Expr.visit plan e).run.staticString? = e.staticString? := by
  unfold staticString?
  rw [unwrap_visit]
  cases e.unwrap with
  | template span chunks inserts =>
    cases chunks <;> cases inserts <;> simp [Expr.visit, Expr.visitList]
  | _ => simp [Expr.visit]

theorem Expr.staticBool?_visit (e : Expr) : (Expr.visit plan e).run.staticBool? = e.staticBool? := by
  unfold staticBool?
  rw [unwrap_visit]
  cases e.unwrap <;> simp [Expr.visit]

theorem Expr.mapM_staticString?_visit (es : List Expr) :
    (Expr.visitList plan es).run.mapM Expr.staticString? = es.mapM Expr.staticString? := by
  rw [Expr.run_visitList, List.mapM_map]
  exact congrArg (fun read => es.mapM read) (funext Expr.staticString?_visit)

theorem Expr.staticStrings?_visit (e : Expr) : (Expr.visit plan e).run.staticStrings? = e.staticStrings? := by
  unfold staticStrings?
  rw [unwrap_visit]
  cases e.unwrap with
  | array span elements => simp [Expr.visit, Expr.mapM_staticString?_visit]
  | _ => simp [Expr.visit]

theorem Expr.staticPaths?_visit (e : Expr) : (Expr.visit plan e).run.staticPaths? = e.staticPaths? := by
  simp only [staticPaths?, staticString?_visit, staticStrings?_visit]

theorem Key.name?_visit (k : Key) : (Key.visit plan k).run.name? = k.name? := by
  cases k with
  | computed e => cases e <;> simp [Key.visit, Expr.visit, Key.name?]
  | _ => rfl

theorem Expr.modeEntry?_visit (e : Entry) : Expr.modeEntry? (Entry.visit plan e).run = Expr.modeEntry? e := by
  cases e <;> simp [Entry.visit, Expr.modeEntry?, Key.name?_visit, Expr.staticPaths?_visit]

theorem Expr.staticUrls?_visit (e : Expr) : (Expr.visit plan e).run.staticUrls? = e.staticUrls? := by
  unfold staticUrls?
  rw [staticStrings?_visit e, unwrap_visit]
  cases e.unwrap with
  | object span entries =>
    have modes : (Entry.visitList plan entries).run.mapM Expr.modeEntry? = entries.mapM Expr.modeEntry? := by
      rw [Entry.run_visitList, List.mapM_map]
      exact congrArg (fun read => entries.mapM read) (funext Expr.modeEntry?_visit)
    simp [Expr.visit, modes]
  | _ => simp [Expr.visit]

/-! ### Decorators and their options -/

theorem OptionName.accepts_visit (name : OptionName) (e : Expr) :
    name.accepts (Expr.visit plan e).run = name.accepts e := by
  cases name <;>
    simp only [accepts, Expr.staticString?_visit, Expr.staticBool?_visit, Expr.staticStrings?_visit,
      Expr.staticUrls?_visit]

section Heads

variable (heads : ∀ c : Class, (c.visit plan).run.head = c.head)
include heads

theorem Expr.span_visit (e : Expr) : (Expr.visit plan e).run.span = e.span := by
  cases e with
  | classExpr cls => simp [Expr.visit, Expr.span, heads]
  | function func => simp [Expr.visit, Expr.span, Func.head_visit]
  | arrow func => simp [Expr.visit, Expr.span, Func.head_visit]
  | _ => simp [Expr.visit, Expr.span]

theorem Options.assign_visit (o : Options) (name : OptionName) (e : Expr) :
    o.assign name (Expr.visit plan e).run = o.assign name e := by
  cases name <;>
    simp only [assign, Expr.span_visit heads, Expr.staticString?_visit, Expr.staticBool?_visit,
      Expr.staticStrings?_visit, Expr.staticUrls?_visit]

theorem Options.put_visit (o : Options) (e : Entry) : o.put (Entry.visit plan e).run = o.put e := by
  cases e with
  | property span key form value =>
    simp only [Entry.visit, Id.run_bind, Id.run_pure, put, Key.name?_visit, Expr.unwrap_visit, assign_visit heads,
      refuse, OptionName.accepts_visit, Expr.span_visit heads]
  | spread span inner => simp [Entry.visit, put]

theorem Options.ofEntries_visit (span : Span) (entries : List Entry) :
    Options.ofEntries span (Entry.visitList plan entries).run = Options.ofEntries span entries := by
  rw [Entry.run_visitList, ofEntries, ofEntries, List.foldl_map]
  exact congrArg (fun step => entries.foldl step { span }) (funext fun o => funext fun e => put_visit heads o e)

end Heads

theorem Decorator.span_visit (d : Decorator) : (Decorator.visit plan d).run.span = d.span := by
  cases d
  simp [Decorator.visit]

theorem Decorator.expr_visit (d : Decorator) : (Decorator.visit plan d).run.expr = (Expr.visit plan d.expr).run := by
  cases d
  simp [Decorator.visit]

theorem Decorator.name?_visit (d : Decorator) : (Decorator.visit plan d).run.name? = d.name? := by
  unfold name?
  rw [expr_visit, Expr.unwrap_visit]
  cases d.expr.unwrap with
  | call span callee typeArguments arguments =>
    simp only [Expr.visit, Id.run_bind, Id.run_pure, Expr.unwrap_visit]
    cases callee.unwrap <;> simp [Expr.visit]
  | _ => simp [Expr.visit]

theorem Decorator.options?_visit (heads : ∀ c : Class, (c.visit plan).run.head = c.head) (d : Decorator) :
    (Decorator.visit plan d).run.options? = d.options? := by
  unfold options?
  rw [expr_visit, Expr.unwrap_visit]
  cases d.expr.unwrap with
  | call span callee typeArguments arguments =>
    cases arguments with
    | nil => simp [Expr.visit, Expr.visitList]
    | cons first rest =>
      simp only [Expr.visit, Expr.visitList, Id.run_bind, Id.run_pure, Expr.unwrap_visit]
      cases first.unwrap with
      | object span entries => simp [Expr.visit, Options.ofEntries_visit heads]
      | _ => simp [Expr.visit]
  | _ => simp [Expr.visit]

/-- What the checks see of a decorator: where it stands, what it is called and which options it is given. -/
def Decorator.surface (d : Decorator) : Span × Option String × Option Options :=
  (d.span, d.name?, d.options?)

theorem Decorator.surface_visit (heads : ∀ c : Class, (c.visit plan).run.head = c.head) (d : Decorator) :
    (Decorator.visit plan d).run.surface = d.surface := by
  simp only [surface, span_visit, name?_visit, options?_visit heads]

/-! ### Parameters of constructors -/

theorem Pattern.span_visit (p : Pattern) : (Pattern.visit plan p).run.span = p.span := by
  cases p <;> simp [Pattern.visit, Pattern.span]

theorem Pattern.isThis_visit (p : Pattern) : (Pattern.visit plan p).run.isThis = p.isThis := by
  cases p <;> simp [Pattern.visit, Pattern.isThis]

theorem Pattern.parameterSpan_visit (p : Pattern) : (Pattern.visit plan p).run.parameterSpan = p.parameterSpan := by
  have decoratorSpan (ds : List Decorator) :
      (Decorator.visitList plan (fun _ => true) ds).run.head?.map (fun d => d.span.start) =
        ds.head?.map fun d => d.span.start := by
    cases ds <;> simp [Decorator.visitList, Decorator.span_visit]
  cases p with
  | rest span target typing => simp [Pattern.visit, Pattern.parameterSpan, Pattern.span_visit]
  | parameter span decorators modifiers target =>
    cases target <;> simp [Pattern.visit, Pattern.parameterSpan, Pattern.span_visit, decoratorSpan]
  | withDefault span target value =>
    cases target with
    | parameter _ decorators _ _ =>
      cases decorators <;>
        simp [Pattern.visit, Pattern.parameterSpan, Pattern.span, Decorator.visitList, Decorator.span_visit]
    | _ => simp [Pattern.visit, Pattern.parameterSpan, Pattern.span]
  | _ => simp [Pattern.visit, Pattern.parameterSpan, Pattern.span]

theorem Func.params_visit (f : Func) : (Func.visit plan f).run.params = (Pattern.visitList plan f.params).run := by
  cases f
  simp [Func.visit]

theorem Member.constructorParameter?_visit (m : Member) :
    (Member.visit plan m).run.constructorParameter? = m.constructorParameter? := by
  cases m with
  | method head decorators kind key func =>
    cases kind with
    | constructor =>
      simp [Member.visit, Member.constructorParameter?, Func.params_visit, Pattern.run_visitList, List.find?_map,
        Function.comp_def, Pattern.isThis_visit, Pattern.parameterSpan_visit]
    | _ => simp [Member.visit, Member.constructorParameter?]
  | _ => simp [Member.visit, Member.constructorParameter?]

/-! ### Classes -/

/-- What the checks see of a class. -/
structure Surface where
  head : ClassHead
  decorators : List (Span × Option String × Option Options)
  baseClass : Option Span
  constructorParameter : Option Span

/-- What the checks see of the class. -/
def Class.surface (c : Class) : Surface where
  head := c.head
  decorators := c.decorators.map Decorator.surface
  baseClass := c.superclass.map Expr.span
  constructorParameter := c.constructorParameter?

theorem Class.surface_visitParts (heads : ∀ c : Class, (c.visit plan).run.head = c.head) : ∀ c : Class,
    (c.visitParts plan fun _ => true).run.surface = c.surface
  | ⟨head, decorators, generics, superclass, superArguments, interfaces, members⟩ => by
    have base : (Expr.visitOption plan superclass).run.map Expr.span = superclass.map Expr.span := by
      cases superclass <;> simp [Expr.visitOption, Expr.span_visit heads]
    simp [Class.visitParts, surface, Class.constructorParameter?, base, Decorator.run_visitList, Member.run_visitList,
      List.findSome?_map, Function.comp_def, Decorator.surface_visit heads, Member.constructorParameter?_visit]

/-! ### Exports -/

mutual

theorem Pattern.boundNames_visit : ∀ p : Pattern, (Pattern.visit plan p).run.boundNames = p.boundNames
  | .name .. | .hole | .withDefault .. | .parameter .. => by simp [Pattern.visit, Pattern.boundNames]
  | .object _ parts _ => by simp [Pattern.visit, Pattern.boundNames, Pattern.boundNamesList_visit parts]
  | .array _ parts _ => by simp [Pattern.visit, Pattern.boundNames, Pattern.boundNamesList_visit parts]
  | .property _ _ _ value => by simp [Pattern.visit, Pattern.boundNames, Pattern.boundNames_visit value]
  | .rest _ target _ => by simp [Pattern.visit, Pattern.boundNames, Pattern.boundNames_visit target]

theorem Pattern.boundNamesList_visit : ∀ ps : List Pattern,
    Pattern.boundNamesList (Pattern.visitList plan ps).run = Pattern.boundNamesList ps
  | [] => rfl
  | p :: ps => by
    simp [Pattern.visitList, Pattern.boundNamesList, Pattern.boundNames_visit p, Pattern.boundNamesList_visit ps]

end

theorem Declarator.bindings_visit (d : Declarator) : (Declarator.visit plan d).run.bindings = d.bindings := by
  cases d
  simp [Declarator.visit, bindings, Pattern.boundNames_visit]

theorem Func.bindings_visit (f : Func) : (Func.visit plan f).run.bindings = f.bindings := by
  obtain ⟨head, generics, params, result, body⟩ := f
  cases body <;> simp [Func.visit, Body.visit, bindings, bindings.named]

section Heads

variable (heads : ∀ c : Class, (c.visit plan).run.head = c.head)
include heads

theorem Decl.bindings_visit : ∀ d : Decl, (Decl.visit plan d).run.bindings = d.bindings
  | .variables _ _ _ declarators => by
    simp [Decl.visit, bindings, Declarator.run_visitList, List.flatMap_map, Declarator.bindings_visit]
  | .function func => by simp [Decl.visit, bindings, Func.bindings_visit]
  | .classDecl cls => by simp [Decl.visit, bindings, heads]
  | .namespaceDecl _ _ _ name body => by cases name <;> cases body <;> simp [Decl.visit, bindings]
  | .interface .. | .typeAlias .. | .enumeration .. | .importAlias .. => by simp [Decl.visit, bindings]

theorem Decl.defaultLocals_visit (d : Decl) : (Decl.visit plan d).run.defaultLocals = d.defaultLocals := by
  cases d with
  | function func => simp [Decl.visit, defaultLocals, Func.head_visit]
  | classDecl cls => simp [Decl.visit, defaultLocals, heads]
  | namespaceDecl span isDeclared keyword name body => cases body <;> simp [Decl.visit, defaultLocals]
  | _ => simp [Decl.visit, defaultLocals]

theorem Decl.toDefaultExport_visit (span : Span) (d : Decl) :
    (Decl.visit plan d).run.toDefaultExport span = d.toDefaultExport span := by
  cases d with
  | function func => simp [Decl.visit, toDefaultExport, Func.head_visit]
  | classDecl cls => simp [Decl.visit, toDefaultExport, heads]
  | namespaceDecl span isDeclared keyword name body => cases body <;> simp [Decl.visit, toDefaultExport]
  | _ => simp [Decl.visit, toDefaultExport]

theorem Expr.toDefaultExport_visit (locals : Locals) (span : Span) (e : Expr) :
    (Expr.visit plan e).run.toDefaultExport locals span = e.toDefaultExport locals span := by
  have place := Expr.span_visit heads e
  cases e with
  | ident | string | boolean | number | hole => rfl
  | _ => simpa [Expr.visit, toDefaultExport] using place

theorem Stmt.locals_visit (s : Stmt) : (Stmt.visit plan s).run.locals = s.locals := by
  cases s <;> simp [Stmt.visit, locals, Decl.bindings_visit heads, Decl.defaultLocals_visit heads]

theorem Stmt.exports_visit (locals : Locals) (s : Stmt) : (Stmt.visit plan s).run.exports locals = s.exports locals := by
  cases s <;>
    simp [Stmt.visit, exports, Decl.bindings_visit heads, Decl.toDefaultExport_visit heads,
      Expr.toDefaultExport_visit heads]

theorem Program.exports_visit (p : Program) : (p.visit plan).run.exports = p.exports := by
  have locals : (p.visit plan).run.locals = p.locals := by
    simp [Program.visit, Program.locals, Stmt.run_visitList, List.flatMap_map, Stmt.locals_visit heads]
  rw [Program.exports, locals]
  simp [Program.visit, Program.exports, Stmt.run_visitList, List.flatMap_map, Stmt.exports_visit heads]

end Heads

end ComponentHoist

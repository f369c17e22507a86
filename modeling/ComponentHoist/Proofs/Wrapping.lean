import ComponentHoist.Proofs.OptionShapes
import Mathlib.Logic.Relation

/-!
# ComponentHoist.Proofs.Wrapping — parentheses and types around an expression do not matter

Parentheses, `as` and `satisfies` may stand around each expression from which something is read: around that of a
decorator, what it calls and what it gives to it, the value of an option, the paths of a mode and the items of a list.

* `Expr.WrapsOnce`: one wrapper more around one of these expressions.
* `Expr.WrapsOnce.staticString?` and its kin: every reader gives the same with it as without.
* `Expr.SameInside`: expressions that come from each other by any number of wrappers more and less.
* `Decorator.read_sameInside`: the name and the options of a decorator are the same then, with the same places.
-/

namespace ComponentHoist

/-! ### Wrappers -/

namespace Expr

/-- Whether the second expression is the first with one wrapper more: around itself, or around an expression inside a
wrapper, around what is called, an argument, an element of an array or the value of a property. -/
inductive WrapsOnce : Expr → Expr → Prop
  | here (span : Span) (wrapper : Wrapper) (e : Expr) : WrapsOnce e (.wrapped span wrapper e)
  | inner (span : Span) (wrapper : Wrapper) {e e' : Expr} (more : WrapsOnce e e') :
    WrapsOnce (.wrapped span wrapper e) (.wrapped span wrapper e')
  | callee (span : Span) {callee callee' : Expr} (types : List Phrase) (arguments : List Expr)
    (more : WrapsOnce callee callee') :
    WrapsOnce (.call span callee types arguments) (.call span callee' types arguments)
  | argument (span : Span) (callee : Expr) (types : List Phrase) (front : List Expr) {e e' : Expr} (back : List Expr)
    (more : WrapsOnce e e') :
    WrapsOnce (.call span callee types (front ++ e :: back)) (.call span callee types (front ++ e' :: back))
  | element (span : Span) (front : List Expr) {e e' : Expr} (back : List Expr) (more : WrapsOnce e e') :
    WrapsOnce (.array span (front ++ e :: back)) (.array span (front ++ e' :: back))
  | value (span : Span) (front : List Entry) (place : Span) (key : Key) (form : PropertyForm) {e e' : Expr}
    (back : List Entry) (more : WrapsOnce e e') :
    WrapsOnce (.object span (front ++ .property place key form e :: back))
      (.object span (front ++ .property place key form e' :: back))

/-- Whether the expressions come from each other by wrappers that are added and taken away, any number of them. -/
def SameInside : Expr → Expr → Prop :=
  Relation.EqvGen WrapsOnce

/-- What is the same with one wrapper more is the same with any number of them more and less. -/
theorem SameInside.congr {α : Type} {read : Expr → α} {e e' : Expr}
    (step : ∀ {e e' : Expr}, WrapsOnce e e' → read e = read e') (same : e.SameInside e') : read e = read e' := by
  unfold SameInside at same
  induction same with
  | rel _ _ more => exact step more
  | refl _ => rfl
  | symm _ _ _ ih => exact ih.symm
  | trans _ _ _ _ _ first second => exact first.trans second

/-! ### Reading literals -/

/-- A list is read the same if one of its items is. -/
theorem mapM_replace {α β : Type} {read : α → Option β} {item item' : α} (same : read item = read item')
    (front back : List α) : (front ++ item :: back).mapM read = (front ++ item' :: back).mapM read := by
  simp only [List.mapM_append, List.mapM_cons, same]

namespace WrapsOnce

variable {e e' : Expr}

/-- The places of what is read stay, as they are those inside all wrappers. -/
theorem span_unwrap (more : WrapsOnce e e') : e.unwrap.span = e'.unwrap.span := by
  induction more with
  | here | callee | argument | element | value => rfl
  | inner _ _ _ ih => exact ih

theorem staticString? (more : WrapsOnce e e') : e.staticString? = e'.staticString? := by
  induction more with
  | here | callee | argument | element | value => rfl
  | inner _ _ _ ih => exact ih

theorem staticBool? (more : WrapsOnce e e') : e.staticBool? = e'.staticBool? := by
  induction more with
  | here | callee | argument | element | value => rfl
  | inner _ _ _ ih => exact ih

theorem staticStrings? (more : WrapsOnce e e') : e.staticStrings? = e'.staticStrings? := by
  induction more with
  | here | callee | argument | value => rfl
  | inner _ _ _ ih => exact ih
  | element _ front back more _ => exact mapM_replace more.staticString? front back

theorem staticPaths? (more : WrapsOnce e e') : e.staticPaths? = e'.staticPaths? := by
  unfold Expr.staticPaths?
  rw [more.staticString?, more.staticStrings?]

theorem modeEntry? (more : WrapsOnce e e') (place : Span) (key : Key) (form : PropertyForm) :
    Expr.modeEntry? (.property place key form e) = Expr.modeEntry? (.property place key form e') := by
  simp only [Expr.modeEntry?, more.staticPaths?]

theorem staticUrls? (more : WrapsOnce e e') : e.staticUrls? = e'.staticUrls? := by
  induction more with
  | here | callee | argument => rfl
  | inner _ _ _ ih => exact ih
  | element span front back more _ =>
    have texts := (element span front back more).staticStrings?
    exact congrArg (Option.map Style.Urls.list) texts
  | value _ front place key form back more _ =>
    have modes := mapM_replace (more.modeEntry? place key form) front back
    exact congrArg (Option.map Style.Urls.modes) modes

theorem read? (more : WrapsOnce e e') (name : OptionName) : name.read? e = name.read? e' := by
  cases name with
  | tag | styleUrl | styles | assetsDir => exact more.staticString?
  | shadow | scope => exact more.staticBool?
  | styleUrls => exact more.staticUrls?
  | assetsDirs => exact more.staticStrings?

end WrapsOnce
end Expr

/-! ### Reading options -/

namespace Options

variable {e e' : Expr}

theorem assign_congr (o : Options) {name : OptionName} (same : name.read? e = name.read? e')
    (place : e.span = e'.span) : o.assign name e = o.assign name e' := by
  cases name <;>
    simp only [OptionName.read?] at same <;> simp only [assign, same, place]

theorem refuse_congr (o : Options) {name : OptionName} (same : name.read? e = name.read? e')
    (place : e.span = e'.span) : o.refuse name e = o.refuse name e' := by
  unfold refuse
  rw [name.accepts_eq, name.accepts_eq, same, place]

theorem put_of_wrapsOnce (o : Options) (more : e.WrapsOnce e') (span : Span) (key : Key) (form : PropertyForm) :
    o.put (.property span key form e) = o.put (.property span key form e') := by
  cases given : key.name?.bind OptionName.ofText? with
  | none =>
    have passed (value : Expr) : o.put (.property span key form value) = o := put_of_option?_eq_none given
    rw [passed, passed]
  | some name =>
    have taken (value : Expr) : o.put (.property span key form value) =
        (o.assign name value.unwrap).refuse name value.unwrap := put_of_option? given
    have same : name.read? e.unwrap = name.read? e'.unwrap := by
      rw [name.read?_unwrap, name.read?_unwrap, more.read?]
    rw [taken, taken, assign_congr o same more.span_unwrap, refuse_congr _ same more.span_unwrap]

theorem ofEntries_of_wrapsOnce (more : e.WrapsOnce e') (span : Span) (front : List Entry) (place : Span) (key : Key)
    (form : PropertyForm) (back : List Entry) :
    ofEntries span (front ++ .property place key form e :: back) =
      ofEntries span (front ++ .property place key form e' :: back) := by
  unfold ofEntries
  rw [List.foldl_append, List.foldl_append, List.foldl_cons, List.foldl_cons, put_of_wrapsOnce _ more]

end Options

namespace Expr

/-- The name that an expression is, if it is one. -/
def identName? (e : Expr) : Option String :=
  match e.unwrap with
  | .ident _ name => some name
  | _ => none

/-- The options in an object literal. -/
def objectOptions? (e : Expr) : Option Options :=
  match e.unwrap with
  | .object span entries => some (Options.ofEntries span entries)
  | _ => none

namespace WrapsOnce

variable {e e' : Expr}

theorem identName? (more : WrapsOnce e e') : e.identName? = e'.identName? := by
  induction more with
  | here | callee | argument | element | value => rfl
  | inner _ _ _ ih => exact ih

theorem objectOptions? (more : WrapsOnce e e') : e.objectOptions? = e'.objectOptions? := by
  induction more with
  | here | callee | argument | element => rfl
  | inner _ _ _ ih => exact ih
  | value span front place key form back more _ =>
    exact congrArg some (Options.ofEntries_of_wrapsOnce more span front place key form back)

end WrapsOnce
end Expr

/-! ### Decorators -/

namespace Decorator

/-- One wrapper more in the expression of a decorator does not change its name. -/
theorem name?_of_wrapsOnce {e e' : Expr} (more : e.WrapsOnce e') (span : Span) :
    name? ⟨span, e⟩ = name? ⟨span, e'⟩ := by
  induction more with
  | here | argument | element | value => rfl
  | inner _ _ _ ih => exact ih
  | callee _ _ _ more _ => exact more.identName?

/-- Nor does it change the options.  They are read from the first argument alone. -/
theorem options?_of_wrapsOnce {e e' : Expr} (more : e.WrapsOnce e') (span : Span) :
    options? ⟨span, e⟩ = options? ⟨span, e'⟩ := by
  induction more with
  | here | element | value => rfl
  | inner _ _ _ ih => exact ih
  | callee _ _ arguments _ _ => cases arguments <;> rfl
  | argument _ _ _ front _ more _ =>
    cases front with
    | nil => exact more.objectOptions?
    | cons first front => rfl

/-- Every place in the options is that of an expression inside all its wrappers: of the object literal itself, of the
value of an option, or of a value that is refused. -/
theorem places_of_options? {d : Decorator} {options : Options} (read : d.options? = some options) :
    ∃ entries, d.optionEntries? = some (options.span, entries) ∧
      (∀ (name : OptionName) (content : name.Content) (place : Span),
        options.given? name = some ⟨content, place⟩ →
          ∃ value, name.LastSetTo entries value ∧ place = value.unwrap.span) ∧
      ∀ refused ∈ options.invalid, ∃ entry ∈ entries, ∃ name value,
        entry.Sets name value ∧ refused.span = value.unwrap.span := by
  rw [options?_eq, Option.map_eq_some_iff] at read
  obtain ⟨⟨span, entries⟩, literal, rfl⟩ := read
  have whole : (Options.ofEntries span entries).span = span := Options.span_ofEntries span entries
  refine ⟨entries, by rw [whole, literal], fun name content place given => ?_, fun refused listed => ?_⟩
  · obtain ⟨value, last, -, inside⟩ := (Options.given?_ofEntries span entries).mp given
    exact ⟨value, last, inside⟩
  · rw [Options.invalid_ofEntries, List.mem_filterMap] at listed
    obtain ⟨entry, member, wrong⟩ := listed
    obtain ⟨name, value, sets, -, rfl⟩ := Entry.refused?_eq_some_iff.mp wrong
    exact ⟨entry, member, name, value, sets, rfl⟩

/-- Decorators whose expressions differ in wrappers alone have the same name and the same options: the same values, the
same refused properties, and the same places, which are those of the expressions inside the wrappers. -/
theorem read_sameInside (d d' : Decorator) (same : d.expr.SameInside d'.expr) :
    d.name? = d'.name? ∧ d.options? = d'.options? ∧
      ∀ options, d.options? = some options →
        ∃ entries, d.optionEntries? = some (options.span, entries) ∧
          (∀ (name : OptionName) (content : name.Content) (place : Span),
            options.given? name = some ⟨content, place⟩ →
              ∃ value, name.LastSetTo entries value ∧ place = value.unwrap.span) ∧
          ∀ refused ∈ options.invalid, ∃ entry ∈ entries, ∃ name value,
            entry.Sets name value ∧ refused.span = value.unwrap.span := by
  refine ⟨?_, ?_, fun options read => places_of_options? read⟩
  · exact same.congr fun more => name?_of_wrapsOnce more d.span
  · exact same.congr fun more => options?_of_wrapsOnce more d.span

/-- A decorator with a tag and the paths of a mode, in which six expressions can be wrapped: that of the decorator,
what it calls, the object literal, the tag, the list of paths and the path in it. -/
def pathDecorator (whole called given tag paths path : Expr → Expr) : Decorator where
  span := ⟨0, 60⟩
  expr :=
    whole (.call ⟨1, 60⟩ (called (.ident ⟨1, 10⟩ "Component")) []
      [given (.object ⟨11, 59⟩
        [.property ⟨13, 23⟩ (.label (.bare "tag")) .plain (tag (.string ⟨18, 23⟩ "a-b")),
          .property ⟨25, 57⟩ (.label (.bare "styleUrls")) .plain
            (.object ⟨36, 57⟩
              [.property ⟨38, 55⟩ (.label (.bare "ios")) .plain
                (paths (.array ⟨43, 55⟩ [path (.string ⟨44, 54⟩ "b.css")]))])])])

/-- In one of the decorators only what it calls stands in parentheses, and in the other everything else is wrapped. -/
theorem read_sameInside_pathDecorator :
    let group : Expr → Expr := .wrapped ⟨0, 0⟩ .parentheses
    let asType : Expr → Expr := .wrapped ⟨0, 0⟩ (.asType default)
    let satisfies : Expr → Expr := .wrapped ⟨0, 0⟩ (.satisfies default)
    let d := pathDecorator id group id id id id
    let d' := pathDecorator group id asType (group ∘ asType) group satisfies
    d.expr.SameInside d'.expr ∧ d.name? = d'.name? ∧ d.options? = d'.options? ∧
      d.name? = some "Component" ∧ (d'.options?.bind Options.tag) = some ⟨"a-b", ⟨18, 23⟩⟩ := by
  intro group asType satisfies d d'
  have same : d.expr.SameInside d'.expr := by
    let here (wrapper : Wrapper) (e : Expr) : e.WrapsOnce (.wrapped ⟨0, 0⟩ wrapper e) := .here ⟨0, 0⟩ wrapper e
    -- The parentheses go first.  The rest is wrapped from the inside out.
    refine .trans _ _ _ (.symm _ _ (.rel _ _ (.callee _ _ _ (here .parentheses _)))) ?_
    refine .trans _ _ _ (.rel _ _ (.argument _ _ _ [] [] (.value _ [_] _ _ _ [] (.value _ [] _ _ _ []
      (.element _ [] [] (here (.satisfies default) _)))))) ?_
    refine .trans _ _ _ (.rel _ _ (.argument _ _ _ [] [] (.value _ [_] _ _ _ [] (.value _ [] _ _ _ []
      (here .parentheses _))))) ?_
    refine .trans _ _ _ (.rel _ _ (.argument _ _ _ [] [] (.value _ [] _ _ _ [_] (here (.asType default) _)))) ?_
    refine .trans _ _ _ (.rel _ _ (.argument _ _ _ [] [] (.value _ [] _ _ _ [_] (here .parentheses _)))) ?_
    refine .trans _ _ _ (.rel _ _ (.argument _ _ _ [] [] (here (.asType default) _))) ?_
    exact .rel _ _ (here .parentheses _)
  obtain ⟨name, options, -⟩ := read_sameInside d d' same
  exact ⟨same, name, options, rfl, rfl⟩

end Decorator
end ComponentHoist

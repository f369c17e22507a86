import ComponentHoist.Decimal.Numeral
import ComponentHoist.Options
import ComponentHoist.Syntax.Tree
import Mathlib.Data.List.Forall2

/-!
# ComponentHoist.Proofs.Evaluation — what literals evaluate to

The meaning of expressions at run time, as far as it can be told from their text.  What an expression evaluates to that
is no literal is left to an environment, so what holds in every environment is known before the program is run.

* `Value`, `Environment`: values, and what the text does not tell.
* `Expr.eval`: the value of an expression.  An object is made of the members of its literal one after the other, and of
  two members that define the same property the later one counts.
* `Entry.lookup`: what an object literal defines a property to be, and `Entry.lookupAt` for members that are evaluated
  at different moments.
* `Expr.eval_of_staticString?` and its kin: what is read off an expression is what it evaluates to in any environment.
-/

namespace ComponentHoist

/-! ### Values -/

/-- A value at run time. -/
inductive Value where
  | string (text : String)
  | boolean (value : Bool)
  | number (value : Double)
  | list (items : List Value)
  /-- An object, by the value of each property of its own. -/
  | object (get : String → Option Value)
  /-- A value of another kind, without properties of its own. -/
  | other (identity : Nat)
deriving Inhabited

/-- The name of the property that a number stands for. -/
def Double.propertyName (x : Double) : String :=
  let sign := if x.isNegative then "-" else ""
  if x.isNaN then "NaN"
  else if !x.isFinite then sign ++ "Infinity"
  else if x.mantissa = 0 then "0"
  else sign ++ String.ofList (Numeral.plain (Decimal.shortest x))

namespace Value

/-- The units of a text that are told apart by number.  A character beyond the first plane is made of two, and neither
of them is a text. -/
def units (text : String) : List Value :=
  text.toList.flatMap fun c => if c.toNat < 65536 then [string (String.singleton c)] else [other 0, other 0]

/-- The value of a property that is named by its number. -/
def numbered (items : List Value) (name : String) : Option Value :=
  (items.zipIdx.find? fun item => toString item.2 = name).map Prod.fst

/-- The properties of the value's own that are copied when it is spread. -/
def properties : Value → String → Option Value
  | object get => get
  | list items => numbered items
  | string text => numbered (units text)
  | _ => fun _ => none

end Value

/-- What can not be told of expressions from their text. -/
structure Environment where
  /-- The value of an expression that is no literal. -/
  value : Expr → Value
  /-- The items that an expression gives when it is spread and its value is neither a list nor a text. -/
  items : Expr → List Value
  /-- The name of the property for which an expression stands whose value is neither a text, a number nor a Boolean.
  There is none if it stands for a symbol. -/
  name : Expr → Option String

/-! ### Evaluation -/

/-- Whether the member gives the object its prototype instead of a property. -/
def Entry.setsPrototype : Entry → Bool
  | .property _ (.label label) .plain _ => label.text == "__proto__"
  | _ => false

mutual

/-- The value of an expression. -/
def Expr.eval (env : Environment) : Expr → Value
  | .string _ value => .string value
  | .boolean _ value => .boolean value
  | .number _ value => .number value
  | .template span (chunk :: chunks) [] =>
    match chunk.cooked with
    | some text => .string text
    | none => env.value (.template span (chunk :: chunks) [])
  | .array _ elements => .list (Expr.evalItems env elements)
  | .object _ entries => .object (Entry.lookup env entries)
  | .wrapped _ _ inner => inner.eval env
  | e => env.value e

/-- The values of the elements of an array. -/
def Expr.evalItems (env : Environment) : List Expr → List Value
  | [] => []
  | .spread _ inner :: elements =>
    let spread := match inner.eval env with
      | .list items => items
      | .string text => text.toList.map fun c => .string (String.singleton c)
      | _ => env.items inner
    spread ++ Expr.evalItems env elements
  | .hole :: elements => .other 0 :: Expr.evalItems env elements
  | e :: elements => e.eval env :: Expr.evalItems env elements

/-- The name of the property that a key stands for. -/
def Key.nameIn (env : Environment) : Key → Option String
  | .label label => some label.text
  | .number value _ => some value.propertyName
  | .computed e =>
    match e.eval env with
    | .string text => some text
    | .boolean value => some (toString value)
    | .number value => some value.propertyName
    | _ => env.name e
  | .privateName _ | .numeral _ => none

/-- What a member defines a property to be, if it defines it.  What an accessor gives is up to the environment. -/
def Entry.defines (env : Environment) (name : String) : Entry → Option Value
  | .property span key form value =>
    if (Entry.property span key form value).setsPrototype then none
    else if key.nameIn env = some name then some (value.eval env)
    else none
  | .spread _ inner => (inner.eval env).properties name

/-- What the members of an object literal define a property to be: the last one that defines it decides. -/
def Entry.lookup (env : Environment) : List Entry → String → Option Value
  | [], _ => none
  | entry :: entries, name => (Entry.lookup env entries name).or (entry.defines env name)

end

/-- A property that does not set the prototype defines what its key stands for. -/
theorem Entry.defines_property {span : Span} {key : Key} {form : PropertyForm} {value : Expr} (env : Environment)
    (plain : (Entry.property span key form value).setsPrototype = false) (name : String) :
    (Entry.property span key form value).defines env name =
      if key.nameIn env = some name then some (value.eval env) else none := by
  have notPrototype : ¬(Entry.property span key form value).setsPrototype = true := by
    rw [plain]
    exact Bool.false_ne_true
  rw [defines, if_neg notPrototype]

/-- What the members of an object literal define a property to be if each is evaluated at a moment of its own. -/
def Entry.lookupAt (moments : Nat → Environment) : List Entry → String → Option Value
  | [], _ => none
  | entry :: entries, name =>
    (Entry.lookupAt (fun n => moments (n + 1)) entries name).or (entry.defines (moments 0) name)

theorem Entry.lookupAt_append (moments : Nat → Environment) (front back : List Entry) (name : String) :
    Entry.lookupAt moments (front ++ back) name =
      (Entry.lookupAt (fun n => moments (n + front.length)) back name).or (Entry.lookupAt moments front name) := by
  induction front generalizing moments with
  | nil => rw [List.nil_append, lookupAt, Option.or_none]; rfl
  | cons entry front ih =>
    have later : (fun n => moments (n + (entry :: front).length)) = fun n => moments (n + front.length + 1) := rfl
    rw [List.cons_append, lookupAt, ih, lookupAt, Option.or_assoc, later]

/-! ### Values that are written down -/

/-- The value of the paths. -/
def Style.Paths.toValue : Style.Paths → Value
  | .one path => .string path
  | .many paths => .list (paths.map .string)

/-- What entries by mode define a mode to be. -/
def Style.Urls.lookup : List (String × Style.Paths) → String → Option Value
  | [], _ => none
  | (mode, paths) :: entries, name =>
    (Style.Urls.lookup entries name).or (if mode = name then some paths.toValue else none)

/-- The value of the style sources. -/
def Style.Urls.toValue : Style.Urls → Value
  | .list paths => .list (paths.map .string)
  | .modes entries => .object (Style.Urls.lookup entries)

/-! ### What is read off an expression -/

/-- All items of a list are read if each of them is, in its place. -/
theorem mapM_eq_some_iff {α β : Type} {f : α → Option β} {items : List α} {values : List β} :
    items.mapM f = some values ↔ List.Forall₂ (fun item value => f item = some value) items values := by
  induction items generalizing values with
  | nil =>
    rw [List.mapM_nil, List.forall₂_nil_left_iff]
    simp [eq_comm]
  | cons item items ih =>
    rw [List.mapM_cons, List.forall₂_cons_left_iff]
    simp only [Option.bind_eq_bind, Option.bind_eq_some_iff, Option.pure_def, Option.some.injEq, ih]
    constructor
    · rintro ⟨value, read, rest, reads, rfl⟩
      exact ⟨value, rest, read, reads, rfl⟩
    · rintro ⟨value, rest, read, reads, rfl⟩
      exact ⟨value, read, rest, reads, rfl⟩

namespace Expr

variable {e : Expr} (env : Environment)

theorem eval_unwrap : ∀ e : Expr, e.unwrap.eval env = e.eval env
  | .wrapped _ _ inner => by
    rw [unwrap, eval]
    exact eval_unwrap inner
  | .ident .. | .string .. | .boolean .. | .number .. | .template .. | .array .. | .object .. | .hole | .spread ..
  | .member .. | .call .. | .function _ | .arrow _ | .classExpr _ | .form .. => rfl

theorem eval_of_staticString? {text : String} (read : e.staticString? = some text) : e.eval env = .string text := by
  rw [← eval_unwrap]
  unfold staticString? at read
  split at read
  · next span value same =>
    obtain rfl := Option.some.inj read
    rw [same, eval]
  · next span chunk chunks same => rw [same, eval, read]
  · cases read

theorem eval_of_staticBool? {value : Bool} (read : e.staticBool? = some value) : e.eval env = .boolean value := by
  rw [← eval_unwrap]
  unfold staticBool? at read
  split at read
  · next span found same =>
    obtain rfl := Option.some.inj read
    rw [same, eval]
  · cases read

/-- An expression that is read as a text is neither a spread nor left out. -/
theorem evalItems_cons_of_staticString? {text : String} (read : e.staticString? = some text) (elements : List Expr) :
    evalItems env (e :: elements) = .string text :: evalItems env elements := by
  have value := eval_of_staticString? env read
  cases e with
  | spread span inner => cases read
  | hole => cases read
  | _ => rw [evalItems, value] <;> simp

theorem evalItems_of_mapM {elements : List Expr} {texts : List String}
    (read : elements.mapM staticString? = some texts) :
    evalItems env elements = texts.map .string := by
  rw [mapM_eq_some_iff] at read
  induction read with
  | nil => rfl
  | cons first _ ih => rw [evalItems_cons_of_staticString? env first, ih, List.map_cons]

theorem eval_of_staticStrings? {texts : List String} (read : e.staticStrings? = some texts) :
    e.eval env = .list (texts.map .string) := by
  rw [← eval_unwrap]
  unfold staticStrings? at read
  split at read
  · next span elements same => rw [same, eval, evalItems_of_mapM env read]
  · cases read

theorem eval_of_staticPaths? {paths : Style.Paths} (read : e.staticPaths? = some paths) :
    e.eval env = paths.toValue := by
  unfold staticPaths? at read
  split at read
  · next path single =>
    obtain rfl := Option.some.inj read
    exact eval_of_staticString? env single
  · obtain ⟨texts, list, rfl⟩ := Option.map_eq_some_iff.mp read
    exact eval_of_staticStrings? env list

end Expr

theorem Key.nameIn_of_name? {key : Key} {name : String} (env : Environment) (read : key.name? = some name) :
    key.nameIn env = some name := by
  unfold name? at read
  split at read
  · exact read
  · rw [nameIn, Expr.eval]
    exact read
  · cases read

namespace Expr

variable {e : Expr} (env : Environment)

theorem defines_of_modeEntry? {entry : Entry} {mode : String} {paths : Style.Paths}
    (read : modeEntry? entry = some (mode, paths)) (plain : entry.setsPrototype = false) (name : String) :
    entry.defines env name = if mode = name then some paths.toValue else none := by
  cases entry with
  | spread span inner => cases read
  | property span key form value =>
    obtain ⟨mode', named, read⟩ := Option.bind_eq_some_iff.mp read
    obtain ⟨paths', given, read⟩ := Option.bind_eq_some_iff.mp read
    obtain ⟨rfl, rfl⟩ := Prod.mk.inj (Option.some.inj read)
    rw [Entry.defines_property env plain, key.nameIn_of_name? env named, eval_of_staticPaths? env given]
    simp only [Option.some.injEq]

theorem lookup_of_mapM {entries : List Entry} {modes : List (String × Style.Paths)}
    (read : entries.mapM modeEntry? = some modes) (plain : ∀ entry ∈ entries, entry.setsPrototype = false) :
    Entry.lookup env entries = Style.Urls.lookup modes := by
  funext name
  rw [mapM_eq_some_iff] at read
  induction read with
  | nil => rfl
  | cons first _ ih =>
    obtain ⟨plainFirst, plainRest⟩ := List.forall_mem_cons.mp plain
    rw [Entry.lookup, Style.Urls.lookup, ih plainRest, defines_of_modeEntry? env first plainFirst]

/-- Whether the expression is an object literal that gives the object its prototype. -/
def setsPrototype (e : Expr) : Bool :=
  match e.unwrap with
  | .object _ entries => entries.any Entry.setsPrototype
  | _ => false

theorem setsPrototype_unwrap : ∀ e : Expr, e.unwrap.setsPrototype = e.setsPrototype
  | .wrapped _ _ inner => setsPrototype_unwrap inner
  | .ident .. | .string .. | .boolean .. | .number .. | .template .. | .array .. | .object .. | .hole | .spread ..
  | .member .. | .call .. | .function _ | .arrow _ | .classExpr _ | .form .. => rfl

theorem eval_of_staticUrls? {urls : Style.Urls} (read : e.staticUrls? = some urls) (plain : e.setsPrototype = false) :
    e.eval env = urls.toValue := by
  unfold staticUrls? at read
  split at read
  · obtain ⟨texts, list, rfl⟩ := Option.map_eq_some_iff.mp read
    exact eval_of_staticStrings? env list
  · next span entries same =>
    obtain ⟨modes, each, rfl⟩ := Option.map_eq_some_iff.mp read
    rw [setsPrototype, same] at plain
    have notPrototype : ∀ entry ∈ entries, entry.setsPrototype = false := fun entry h => by
      simpa using List.any_eq_false.mp plain entry h
    rw [← eval_unwrap, same, eval, lookup_of_mapM env each notPrototype]
    rfl
  · cases read

end Expr
end ComponentHoist

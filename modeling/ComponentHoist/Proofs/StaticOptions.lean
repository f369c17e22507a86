import ComponentHoist.Proofs.Evaluation
import Mathlib.Data.List.Induction

/-!
# ComponentHoist.Proofs.StaticOptions — options that are known before the program is run

The options of a component are read off the properties of an object literal that have their names in the text.  Spreads
and other computed keys are passed over, although they may define an option as well when the literal is evaluated.

* `Options.given?`, `Options.value?`: the value of an option as it has been read, with its place and without.
* `OptionName.Settled`: what the members of the literal have to be for that value to be the one at run time.
* `Options.lookupAt_of_settled`, `OptionName.settled_of_lookupAt`: one direction each.
* `Decorator.static_iff_settled`: without refused properties, an option has the value that has been read, however the
  program is run, if and only if it is settled.
-/

namespace ComponentHoist

/-! ### The option that a member gives -/

/-- The option that a member of an object literal is read as. -/
def Entry.option? : Entry → Option OptionName
  | .property _ key _ _ => key.name?.bind OptionName.ofText?
  | .spread .. => none

namespace OptionName

/-- What the values of the option are. -/
@[reducible] def Content : OptionName → Type
  | tag | styleUrl | styles | assetsDir => String
  | shadow | scope => Bool
  | styleUrls => Style.Urls
  | assetsDirs => List String

theorem ofText?_text (name : OptionName) : ofText? name.text = some name := by
  cases name <;> decide

theorem ofText?_eq_some_iff {text : String} {name : OptionName} : ofText? text = some name ↔ text = name.text := by
  constructor
  · intro found
    have same := List.find?_some found
    exact (eq_of_beq same).symm
  · rintro rfl
    exact ofText?_text name

end OptionName

/-- A property that is read as an option has its name. -/
theorem Entry.name?_of_option? {span : Span} {key : Key} {form : PropertyForm} {value : Expr} {name : OptionName}
    (given : (Entry.property span key form value).option? = some name) : key.name? = some name.text := by
  obtain ⟨text, named, found⟩ := Option.bind_eq_some_iff.mp given
  rw [named, OptionName.ofText?_eq_some_iff.mp found]

/-! ### Reading one member -/

namespace Options

variable {o o' : Options} {name other : OptionName} {entry : Entry}

/-- The value of an option with its place. -/
def given? (o : Options) : (name : OptionName) → Option (Spanned name.Content)
  | .tag => o.tag
  | .shadow => o.shadow
  | .scope => o.scope
  | .styleUrl => o.styleUrl
  | .styleUrls => o.styleUrls
  | .styles => o.styles
  | .assetsDir => o.assetsDir
  | .assetsDirs => o.assetsDirs

/-- The value of an option as it has been read. -/
def value? (o : Options) : OptionName → Option Value
  | .tag => o.tag.map fun tag => .string tag.value
  | .shadow => o.shadow.map fun shadow => .boolean shadow.value
  | .scope => o.scope.map fun scope => .boolean scope.value
  | .styleUrl => o.styleUrl.map fun url => .string url.value
  | .styleUrls => o.styleUrls.map fun urls => urls.value.toValue
  | .styles => o.styles.map fun styles => .string styles.value
  | .assetsDir => o.assetsDir.map fun directory => .string directory.value
  | .assetsDirs => o.assetsDirs.map fun directories => .list (directories.value.map .string)

theorem value?_congr (same : o.given? name = o'.given? name) : o.value? name = o'.value? name := by
  cases name <;> exact congrArg (Option.map _) same

theorem given?_assign_of_ne (o : Options) (e : Expr) (ne : name ≠ other) :
    (o.assign other e).given? name = o.given? name := by
  cases name <;> cases other <;> first | rfl | exact absurd rfl ne

/-- An option that accepts an expression has the value of it in every environment. -/
theorem value?_assign (o : Options) {e : Expr} (accepted : name.accepts e = true)
    (plain : name = .styleUrls → e.setsPrototype = false) (env : Environment) :
    (o.assign name e).value? name = some (e.eval env) := by
  cases name with
  | tag | styleUrl | styles | assetsDir =>
    obtain ⟨text, read⟩ := Option.isSome_iff_exists.mp accepted
    rw [e.eval_of_staticString? env read]
    simp only [assign, value?, read]
    rfl
  | shadow | scope =>
    obtain ⟨value, read⟩ := Option.isSome_iff_exists.mp accepted
    rw [e.eval_of_staticBool? env read]
    simp only [assign, value?, read]
    rfl
  | styleUrls =>
    obtain ⟨urls, read⟩ := Option.isSome_iff_exists.mp accepted
    rw [e.eval_of_staticUrls? env read (plain rfl)]
    simp only [assign, value?, read]
    rfl
  | assetsDirs =>
    obtain ⟨texts, read⟩ := Option.isSome_iff_exists.mp accepted
    rw [e.eval_of_staticStrings? env read]
    simp only [assign, value?, read]
    rfl

theorem given?_refuse (o : Options) (name : OptionName) (e : Expr) : (o.refuse name e).given? = o.given? := by
  unfold refuse
  split <;> rfl

theorem value?_refuse (o : Options) (name other : OptionName) (e : Expr) :
    (o.refuse name e).value? other = o.value? other :=
  value?_congr (congrFun (o.given?_refuse name e) other)

theorem invalid_assign (o : Options) (name : OptionName) (e : Expr) : (o.assign name e).invalid = o.invalid := by
  cases name <;> rfl

/-- Nothing is refused of an expression only if it is accepted. -/
theorem accepts_of_refuse {e : Expr} (clean : (o.refuse name e).invalid = []) :
    name.accepts e = true ∧ o.invalid = [] := by
  unfold refuse at clean
  split at clean
  · next accepted => exact ⟨accepted, clean⟩
  · simp at clean

theorem put_of_option?_eq_none (none : entry.option? = none) : o.put entry = o := by
  cases entry with
  | spread span inner => rfl
  | property span key form value =>
    have unnamed : key.name?.bind OptionName.ofText? = Option.none := none
    rw [put, unnamed]

theorem put_of_option? {span : Span} {key : Key} {form : PropertyForm} {value : Expr}
    (given : (Entry.property span key form value).option? = some name) :
    o.put (.property span key form value) = (o.assign name value.unwrap).refuse name value.unwrap := by
  have named : key.name?.bind OptionName.ofText? = some name := given
  rw [put, named]

theorem invalid_of_put (clean : (o.put entry).invalid = []) : o.invalid = [] := by
  cases given : entry.option? with
  | none => rwa [put_of_option?_eq_none given] at clean
  | some name =>
    cases entry with
    | spread span inner => cases given
    | property span key form value =>
      rw [put_of_option? given] at clean
      exact (o.invalid_assign name value.unwrap).symm.trans (accepts_of_refuse clean).2

/-- A member that is read as another option, or as none, leaves the option as it is. -/
theorem given?_put_of_ne (ne : entry.option? ≠ some name) : (o.put entry).given? name = o.given? name := by
  cases given : entry.option? with
  | none => rw [put_of_option?_eq_none given]
  | some other =>
    have different : name ≠ other := fun same => ne (by rw [given, same])
    cases entry with
    | spread span inner => cases given
    | property span key form value =>
      rw [put_of_option? given, given?_refuse, given?_assign_of_ne o _ different]

end Options

/-- Whether a member is not read as modes from an object literal that gives the object its prototype. -/
def Entry.PlainModes : Entry → Prop
  | .property _ key _ value => key.name? = some "styleUrls" → value.setsPrototype = false
  | .spread .. => True

/-- A member that is read as the option and not refused defines it to be what has been read, in every environment. -/
theorem Options.value?_put {o : Options} {name : OptionName} {entry : Entry} (given : entry.option? = some name)
    (clean : (o.put entry).invalid = []) (plain : entry.setsPrototype = false) (modes : entry.PlainModes)
    (env : Environment) :
    ∃ value, entry.defines env name.text = some value ∧ (o.put entry).value? name = some value := by
  cases entry with
  | spread span inner => cases given
  | property span key form value =>
    rw [put_of_option? given] at clean
    have named : key.name? = some name.text := Entry.name?_of_option? given
    have plainModes : name = .styleUrls → value.unwrap.setsPrototype = false := by
      rintro rfl
      rw [Expr.setsPrototype_unwrap]
      exact modes named
    refine ⟨value.eval env, ?_, ?_⟩
    · rw [Entry.defines_property env plain, if_pos (key.nameIn_of_name? env named)]
    · rw [put_of_option? given, value?_refuse, value?_assign o (accepts_of_refuse clean).1 plainModes env,
        Expr.eval_unwrap]

/-! ### Evaluating all members -/

theorem Options.ofEntries_append_singleton (span : Span) (front : List Entry) (entry : Entry) :
    ofEntries span (front ++ [entry]) = (ofEntries span front).put entry := by
  rw [ofEntries, List.foldl_append]
  rfl

/-- Whether the members of an object literal leave no doubt about an option that has been read: each member that is
read as another option or none, and that is followed by none that surely defines this one, can define it to be what has
been read at most. -/
def OptionName.Settled (name : OptionName) (read : Option Value) (entries : List Entry) : Prop :=
  ∀ front member back, entries = front ++ member :: back →
    (∃ later ∈ back, ∀ env, later.defines env name.text ≠ none) ∨ member.option? = some name ∨
      ∀ env value, member.defines env name.text = some value → read = some value

/-- An option that is settled evaluates to what has been read, whatever the environments of the members are. -/
theorem Options.lookupAt_of_settled {span : Span} {entries : List Entry} {name : OptionName}
    (clean : (ofEntries span entries).invalid = []) (own : ∀ entry ∈ entries, entry.setsPrototype = false)
    (modes : ∀ entry ∈ entries, entry.PlainModes)
    (settled : name.Settled ((ofEntries span entries).value? name) entries) (moments : Nat → Environment) :
    Entry.lookupAt moments entries name.text = (ofEntries span entries).value? name := by
  -- The last member is looked at first.  What it does not define is left to those in front of it.
  induction entries using List.reverseRecOn with
  | nil => cases name <;> rfl
  | append_singleton front entry ih =>
    rw [ofEntries_append_singleton] at clean settled ⊢
    have last : Entry.lookupAt moments (front ++ [entry]) name.text =
        (entry.defines (moments front.length) name.text).or (Entry.lookupAt moments front name.text) := by
      rw [Entry.lookupAt_append, Entry.lookupAt, Entry.lookupAt, Option.none_or, Nat.zero_add]
    rw [last]
    have here : entry ∈ front ++ [entry] := List.mem_append_right _ List.mem_cons_self
    by_cases given : entry.option? = some name
    · obtain ⟨value, defined, read⟩ :=
        value?_put given clean (own entry here) (modes entry here) (moments front.length)
      rw [defined, read, Option.some_or]
    · have same := value?_congr (given?_put_of_ne (o := ofEntries span front) given)
      cases defined : entry.defines (moments front.length) name.text with
      | some value =>
        rw [Option.some_or]
        rcases settled front entry [] rfl with ⟨later, mem, -⟩ | given' | agrees
        · cases mem
        · exact absurd given' given
        · exact (agrees _ value defined).symm
      | none =>
        rw [Option.none_or, same]
        refine ih (invalid_of_put clean) (fun e h => own e (List.mem_append_left _ h))
          (fun e h => modes e (List.mem_append_left _ h)) fun before member back split => ?_
        rw [same] at settled
        rcases settled before member (back ++ [entry]) (by rw [split, List.append_assoc]; rfl) with
          ⟨later, mem, sure⟩ | other
        · rcases List.mem_append.mp mem with inner | outer
          · exact .inl ⟨later, inner, sure⟩
          · obtain rfl := List.mem_singleton.mp outer
            exact absurd defined (sure _)
        · exact .inr other

/-- Members that need not define a property can all leave it undefined together. -/
theorem Entry.exists_lookupAt_eq_none (start : Environment) {entries : List Entry} {name : String}
    (silent : ∀ entry ∈ entries, ∃ env, entry.defines env name = none) :
    ∃ moments, Entry.lookupAt moments entries name = none := by
  induction entries with
  | nil => exact ⟨fun _ => start, rfl⟩
  | cons entry entries ih =>
    obtain ⟨env, nothing⟩ := silent entry List.mem_cons_self
    obtain ⟨later, rest⟩ := ih fun x h => silent x (List.mem_cons_of_mem _ h)
    refine ⟨fun n => if n = 0 then env else later (n - 1), ?_⟩
    show (lookupAt later entries name).or (entry.defines env name) = none
    rw [rest, nothing, Option.or_none]

/-- An option that evaluates to what has been read, whatever the environments of the members are, is settled. -/
theorem OptionName.settled_of_lookupAt {name : OptionName} {read : Option Value} {entries : List Entry}
    (static : ∀ moments, Entry.lookupAt moments entries name.text = read) : name.Settled read entries := by
  intro front member back split
  by_cases sure : ∃ later ∈ back, ∀ env, later.defines env name.text ≠ none
  · exact .inl sure
  · refine .inr (.inr fun env value defined => ?_)
    have unsure : ∀ later ∈ back, ∃ env, later.defines env name.text = none := fun later mem =>
      Classical.not_forall_not.mp fun all => sure ⟨later, mem, all⟩
    -- The member is evaluated where it defines the value, and those behind it where they define none.
    obtain ⟨later, nothing⟩ := Entry.exists_lookupAt_eq_none env unsure
    let moments (n : Nat) : Environment := if n ≤ front.length then env else later (n - (front.length + 1))
    have here : moments (0 + front.length) = env := if_pos (Nat.le_of_eq (Nat.zero_add _))
    have behind : (fun n => moments (n + 1 + front.length)) = later := by
      funext n
      have past : ¬n + 1 + front.length ≤ front.length := by omega
      have place : n + 1 + front.length - (front.length + 1) = n := by omega
      show (if _ then _ else _) = _
      rw [if_neg past, place]
    have given : Entry.lookupAt moments entries name.text = some value := by
      rw [split, Entry.lookupAt_append, Entry.lookupAt, here, behind, nothing, defined, Option.none_or, Option.some_or]
    exact (static moments).symm.trans given

/-! ### The options of a decorator -/

namespace Decorator

/-- The object literal that a decorator is given, if it is called with one in the first place. -/
def optionEntries? (d : Decorator) : Option (Span × List Entry) :=
  match d.expr.unwrap with
  | .call _ _ _ (first :: _) =>
    match first.unwrap with
    | .object span entries => some (span, entries)
    | _ => none
  | _ => none

theorem options?_eq (d : Decorator) :
    d.options? = d.optionEntries?.map fun literal => Options.ofEntries literal.1 literal.2 := by
  unfold options? optionEntries?
  generalize d.expr.unwrap = called
  cases called with
  | call span callee typeArguments arguments =>
    cases arguments with
    | nil => rfl
    | cons first rest =>
      dsimp only
      generalize first.unwrap = object
      cases object <;> rfl
  | _ => rfl

/-- If no property of the object literal is refused, then an option evaluates to what has been read for it in every
environment if and only if it is settled.  No object literal is to give its object a prototype in place of a
property. -/
theorem static_iff_settled (d : Decorator) {span : Span} {entries : List Entry} {options : Options}
    (literal : d.optionEntries? = some (span, entries)) (read : d.options? = some options)
    (clean : options.invalid = []) (own : ∀ entry ∈ entries, entry.setsPrototype = false)
    (modes : ∀ entry ∈ entries, entry.PlainModes) (name : OptionName) :
    (∀ moments, Entry.lookupAt moments entries name.text = options.value? name) ↔
      ∀ front member back, entries = front ++ member :: back →
        (∃ later ∈ back, ∀ env, later.defines env name.text ≠ none) ∨ member.option? = some name ∨
          ∀ env value, member.defines env name.text = some value → options.value? name = some value := by
  rw [options?_eq, literal] at read
  obtain rfl := Option.some.inj read
  exact ⟨OptionName.settled_of_lookupAt, Options.lookupAt_of_settled clean own modes⟩

end Decorator

/-! ### A tag beside a spread -/

/-- A component decorator that is given the members, up to the end of its span. -/
def membersDecorator (stop : Nat) (entries : List Entry) : Decorator where
  span := ⟨0, stop⟩
  expr := .call ⟨1, stop⟩ (.ident ⟨1, 10⟩ "Component") [] [.object ⟨11, stop - 1⟩ entries]

/-- The tag at the position. -/
def tagEntry (start : Nat) : Entry :=
  .property ⟨start, start + 10⟩ (.label (.bare "tag")) .plain (.string ⟨start + 5, start + 10⟩ "a-b")

/-- The spread of a variable at the position. -/
def spreadEntry (start : Nat) : Entry :=
  .spread ⟨start, start + 7⟩ (.ident ⟨start + 3, start + 7⟩ "base")

namespace Decorator

/-- Behind the spread the tag is settled, but whether there is a shadow is not. -/
theorem static_behindSpread :
    let entries := [spreadEntry 13, tagEntry 22]
    let d := membersDecorator 35 entries
    d.optionEntries? = some (⟨11, 34⟩, entries) ∧
      ∃ options, d.options? = some options ∧ options.invalid = [] ∧
        (∀ moments, Entry.lookupAt moments entries "tag" = some (.string "a-b")) ∧
        ¬∀ moments, Entry.lookupAt moments entries "shadow" = options.value? .shadow := by
  intro entries d
  have literal : d.optionEntries? = some (⟨11, 34⟩, entries) := rfl
  have own : ∀ entry ∈ entries, entry.setsPrototype = false := by
    simp [entries, spreadEntry, tagEntry, Entry.setsPrototype, Label.text]
  have modes : ∀ entry ∈ entries, entry.PlainModes := by
    simp [entries, spreadEntry, tagEntry, Entry.PlainModes, Key.name?, Label.text]
  have static_iff := d.static_iff_settled literal rfl rfl own modes
  refine ⟨literal, _, rfl, rfl, (static_iff .tag).mpr fun front member back split => ?_, fun static => ?_⟩
  · rcases front with - | ⟨first, - | ⟨second, front⟩⟩
    · obtain ⟨rfl, rfl⟩ := List.cons.inj split
      exact .inl ⟨tagEntry 22, List.mem_cons_self, fun env => Option.some_ne_none _⟩
    · obtain ⟨rfl, -⟩ := List.cons.inj (List.cons.inj split).2
      exact .inr (.inl rfl)
    · have short := congrArg List.length split
      simp [entries] at short
  · rcases (static_iff .shadow).mp static [] (spreadEntry 13) [tagEntry 22] rfl with ⟨later, mem, sure⟩ | given | agrees
    · obtain rfl := List.mem_singleton.mp mem
      exact sure ⟨fun _ => .other 0, fun _ => [], fun _ => none⟩ rfl
    · cases given
    · let shadowed : Environment := ⟨fun _ => .object fun _ => some (.boolean true), fun _ => [], fun _ => none⟩
      cases agrees shadowed (.boolean true) rfl

/-- In front of the spread the tag is read without a refusal as well, and it can become another one. -/
theorem clean_beforeSpread :
    let entries := [tagEntry 13, spreadEntry 25]
    let d := membersDecorator 35 entries
    d.optionEntries? = some (⟨11, 34⟩, entries) ∧
      ∃ options, d.options? = some options ∧ options.invalid = [] ∧ options.value? .tag = some (.string "a-b") ∧
        ∃ moments, Entry.lookupAt moments entries "tag" = some (.string "c-d") := by
  intro entries d
  refine ⟨rfl, _, rfl, rfl, rfl, ?_⟩
  exact ⟨fun _ => ⟨fun _ => .object fun _ => some (.string "c-d"), fun _ => [], fun _ => none⟩, rfl⟩

end Decorator
end ComponentHoist

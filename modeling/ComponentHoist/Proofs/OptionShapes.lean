import ComponentHoist.Proofs.StaticOptions

/-!
# ComponentHoist.Proofs.OptionShapes — what the members of an object literal say as options

An option is given by the last property that has its name, if the value is a literal of the shape that the option
accepts.  Each property with a value of another shape is refused, also if a later one has the same name.

* `Expr.IsText` and its kin: the shapes of literals, apart from the functions that read them.
* `OptionName.IsLiteral`: the literals that an option accepts, each with its value.
* `Entry.Sets`, `OptionName.LastSetTo`: the properties with the name of an option, and the value of the last one.
* `Entry.refused?_eq_some_iff`: the properties that are refused.
* `Options.ofEntries_decodes`: the options and the refused properties of an object literal.
-/

namespace ComponentHoist

/-! ### Names in the text -/

/-- Whether a key has the name in the text: bare, quoted, or as a string in brackets. -/
inductive Key.IsNamed : Key → String → Prop
  | bare (name : String) : IsNamed (.label (.bare name)) name
  | quoted (name : String) : IsNamed (.label (.quoted name)) name
  | inBrackets (span : Span) (name : String) : IsNamed (.computed (.string span name)) name

theorem Key.name?_eq_some_iff {key : Key} {name : String} : key.name? = some name ↔ key.IsNamed name := by
  constructor
  · intro found
    unfold name? at found
    split at found
    · next label =>
      obtain rfl := Option.some.inj found
      cases label with
      | bare name => exact .bare name
      | quoted name => exact .quoted name
    · next span value =>
      obtain rfl := Option.some.inj found
      exact .inBrackets span value
    · cases found
  · intro named
    cases named <;> rfl

/-! ### Shapes of literals -/

namespace Expr

variable {e : Expr} {text : String} {flag : Bool} {texts : List String} {paths : Style.Paths}

theorem unwrap_unwrap : ∀ e : Expr, e.unwrap.unwrap = e.unwrap
  | .wrapped _ _ inner => by
    rw [unwrap]
    exact unwrap_unwrap inner
  | .ident .. | .string .. | .boolean .. | .number .. | .template .. | .array .. | .object .. | .hole | .spread ..
  | .member .. | .call .. | .function .. | .arrow .. | .classExpr .. | .form .. => rfl

/-- A string literal, or a template without insertions.  For none of the shapes it matters what the expression is
wrapped in. -/
inductive IsText (e : Expr) (text : String) : Prop
  | string {span : Span} (literal : e.unwrap = .string span text)
  | template {span : Span} {chunk : TemplateChunk} {chunks : List TemplateChunk}
    (literal : e.unwrap = .template span (chunk :: chunks) []) (cooked : chunk.cooked = some text)

/-- A Boolean literal. -/
inductive IsFlag (e : Expr) (flag : Bool) : Prop
  | boolean {span : Span} (literal : e.unwrap = .boolean span flag)

/-- An array in which each element is a text.  No element may be left out, and none may be spread. -/
inductive IsTexts (e : Expr) (texts : List String) : Prop
  | array {span : Span} {elements : List Expr} (literal : e.unwrap = .array span elements)
    (each : List.Forall₂ IsText elements texts)

/-- A text, or an array of texts. -/
inductive IsPaths (e : Expr) : Style.Paths → Prop
  | one {path : String} (given : e.IsText path) : IsPaths e (.one path)
  | many {paths : List String} (given : e.IsTexts paths) : IsPaths e (.many paths)

theorem staticString?_eq_some_iff : e.staticString? = some text ↔ e.IsText text := by
  constructor
  · intro read
    unfold staticString? at read
    split at read
    · next span value literal =>
      obtain rfl := Option.some.inj read
      exact .string literal
    · next span chunk chunks literal => exact .template literal read
    · cases read
  · rintro (literal | ⟨literal, cooked⟩)
    · rw [staticString?, literal]
    · rw [staticString?, literal]
      exact cooked

theorem staticBool?_eq_some_iff : e.staticBool? = some flag ↔ e.IsFlag flag := by
  constructor
  · intro read
    unfold staticBool? at read
    split at read
    · next span value literal =>
      obtain rfl := Option.some.inj read
      exact .boolean literal
    · cases read
  · rintro ⟨literal⟩
    rw [staticBool?, literal]

theorem staticStrings?_eq_some_iff : e.staticStrings? = some texts ↔ e.IsTexts texts := by
  constructor
  · intro read
    unfold staticStrings? at read
    split at read
    · next span elements literal =>
      exact .array literal ((mapM_eq_some_iff.mp read).imp fun _ _ => staticString?_eq_some_iff.mp)
    · cases read
  · rintro ⟨literal, each⟩
    rw [staticStrings?, literal]
    exact mapM_eq_some_iff.mpr (each.imp fun _ _ => staticString?_eq_some_iff.mpr)

/-- A text is no array. -/
theorem IsText.not_isTexts (given : e.IsText text) : ¬e.IsTexts texts := by
  rintro ⟨array, -⟩
  rcases given with literal | ⟨literal, -⟩
  · rw [literal] at array
    cases array
  · rw [literal] at array
    cases array

/-- Neither names nor functions are paths. -/
theorem IsPaths.unwrap_ne (given : e.IsPaths paths) :
    (∀ span name, e.unwrap ≠ .ident span name) ∧ ∀ func, e.unwrap ≠ .function func := by
  rcases given with (literal | ⟨literal, -⟩) | ⟨literal, -⟩
  all_goals
    rw [literal]
    exact ⟨nofun, nofun⟩

theorem staticPaths?_eq_some_iff : e.staticPaths? = some paths ↔ e.IsPaths paths := by
  constructor
  · intro read
    unfold staticPaths? at read
    split at read
    · next path given =>
      obtain rfl := Option.some.inj read
      exact .one (staticString?_eq_some_iff.mp given)
    · obtain ⟨texts, given, rfl⟩ := Option.map_eq_some_iff.mp read
      exact .many (staticStrings?_eq_some_iff.mp given)
  · intro given
    cases given with
    | one given => rw [staticPaths?, staticString?_eq_some_iff.mpr given]
    | many given =>
      have noText : e.staticString? = none := by
        rw [Option.eq_none_iff_forall_ne_some]
        exact fun text read => (staticString?_eq_some_iff.mp read).not_isTexts given
      rw [staticPaths?, noText, staticStrings?_eq_some_iff.mpr given]
      rfl

end Expr

/-- A member of an object of modes: the mode is its name, and the paths are its value. -/
inductive Entry.IsMode : Entry → String × Style.Paths → Prop
  | property {span : Span} {key : Key} {form : PropertyForm} {value : Expr} {mode : String} {paths : Style.Paths}
    (named : key.IsNamed mode) (given : value.IsPaths paths) : IsMode (.property span key form value) (mode, paths)

/-- Whether a member has a value of the kind that the way it is written asks for: the shorthand of a name has the name,
and methods and accessors have functions. -/
def Entry.FitsForm : Entry → Prop
  | .property _ _ .shorthand value => ∃ span name, value = .ident span name
  | .property _ _ .method value | .property _ _ .getter value | .property _ _ .setter value =>
    ∃ func, value = .function func
  | .property _ _ .plain _ | .spread .. => True

/-- Only plain properties are modes. -/
theorem Entry.IsMode.plain {entry : Entry} {mode : String × Style.Paths} (isMode : entry.IsMode mode)
    (fits : entry.FitsForm) : ∃ span key value, entry = .property span key .plain value := by
  cases isMode with
  | @property span key form value mode paths named given =>
    cases form with
    | plain => exact ⟨span, key, value, rfl⟩
    | shorthand =>
      obtain ⟨place, name, rfl⟩ := fits
      exact absurd rfl (given.unwrap_ne.1 place name)
    | method | getter | setter =>
      obtain ⟨func, rfl⟩ := fits
      exact absurd rfl (given.unwrap_ne.2 func)

namespace Expr

variable {e : Expr} {urls : Style.Urls}

/-- An array of texts, or an object in which each member is a mode. -/
inductive IsUrls (e : Expr) : Style.Urls → Prop
  | list {texts : List String} (given : e.IsTexts texts) : IsUrls e (.list texts)
  | modes {span : Span} {entries : List Entry} {modes : List (String × Style.Paths)}
    (literal : e.unwrap = .object span entries) (each : List.Forall₂ Entry.IsMode entries modes) :
    IsUrls e (.modes modes)

theorem modeEntry?_eq_some_iff {entry : Entry} {mode : String × Style.Paths} :
    modeEntry? entry = some mode ↔ entry.IsMode mode := by
  constructor
  · intro read
    cases entry with
    | spread span inner => cases read
    | property span key form value =>
      obtain ⟨name, named, read⟩ := Option.bind_eq_some_iff.mp read
      obtain ⟨paths, given, read⟩ := Option.bind_eq_some_iff.mp read
      obtain rfl := Option.some.inj read
      exact .property (Key.name?_eq_some_iff.mp named) (staticPaths?_eq_some_iff.mp given)
  · rintro ⟨named, given⟩
    rw [ modeEntry?, Key.name?_eq_some_iff.mpr named, staticPaths?_eq_some_iff.mpr given]
    rfl

theorem staticUrls?_eq_some_iff : e.staticUrls? = some urls ↔ e.IsUrls urls := by
  constructor
  · intro read
    unfold staticUrls? at read
    split at read
    · obtain ⟨texts, given, rfl⟩ := Option.map_eq_some_iff.mp read
      exact .list (staticStrings?_eq_some_iff.mp given)
    · next span entries literal =>
      obtain ⟨modes, given, rfl⟩ := Option.map_eq_some_iff.mp read
      exact .modes literal ((mapM_eq_some_iff.mp given).imp fun _ _ => modeEntry?_eq_some_iff.mp)
    · cases read
  · intro given
    cases given with
    | list given =>
      have read := staticStrings?_eq_some_iff.mpr given
      obtain ⟨literal, -⟩ := given
      rw [staticUrls?, literal]
      exact congrArg (Option.map Style.Urls.list) read
    | modes literal each =>
      have read := mapM_eq_some_iff.mpr (each.imp fun _ _ => modeEntry?_eq_some_iff.mpr)
      rw [staticUrls?, literal]
      exact congrArg (Option.map Style.Urls.modes) read

end Expr

/-! ### Options and their shapes -/

namespace OptionName

/-- Whether the expression is a literal of the shape that the option accepts, with the value. -/
def IsLiteral : (name : OptionName) → Expr → name.Content → Prop
  | tag | styleUrl | styles | assetsDir => Expr.IsText
  | shadow | scope => Expr.IsFlag
  | styleUrls => Expr.IsUrls
  | assetsDirs => Expr.IsTexts

/-- The value of an expression as one of the option. -/
def read? : (name : OptionName) → Expr → Option name.Content
  | tag | styleUrl | styles | assetsDir => Expr.staticString?
  | shadow | scope => Expr.staticBool?
  | styleUrls => Expr.staticUrls?
  | assetsDirs => Expr.staticStrings?

variable {name : OptionName} {e : Expr}

theorem read?_eq_some_iff {content : name.Content} : name.read? e = some content ↔ name.IsLiteral e content := by
  cases name with
  | tag | styleUrl | styles | assetsDir => exact Expr.staticString?_eq_some_iff
  | shadow | scope => exact Expr.staticBool?_eq_some_iff
  | styleUrls => exact Expr.staticUrls?_eq_some_iff
  | assetsDirs => exact Expr.staticStrings?_eq_some_iff

theorem read?_unwrap (name : OptionName) (e : Expr) : name.read? e.unwrap = name.read? e := by
  cases name <;>
    simp only [read?, Expr.staticString?, Expr.staticBool?, Expr.staticUrls?, Expr.staticStrings?, Expr.unwrap_unwrap]

theorem accepts_eq (name : OptionName) (e : Expr) : name.accepts e = (name.read? e).isSome := by
  cases name <;> rfl

/-- An option refuses what has no value for it. -/
theorem accepts_eq_false_iff : name.accepts e = false ↔ ∀ content, ¬name.IsLiteral e content := by
  simp only [accepts_eq, Option.isSome_eq_false_iff, Option.isNone_iff_eq_none, Option.eq_none_iff_forall_ne_some, Ne,
    read?_eq_some_iff]

end OptionName

/-! ### Members that give an option -/

/-- Whether a member is a property with the name of the option, and with the value. -/
inductive Entry.Sets : Entry → OptionName → Expr → Prop
  | property {span : Span} {key : Key} {form : PropertyForm} {value : Expr} {name : OptionName}
    (named : key.IsNamed name.text) : Sets (.property span key form value) name value

/-- A property that is refused, with the shape that it should have had. -/
def Entry.refused? : Entry → Option InvalidOption
  | .property span key form value =>
    (property span key form value).option?.bind fun name =>
      if name.accepts value then none else some ⟨name.text, name.expected, value.unwrap.span⟩
  | .spread .. => none

/-- Whether the last of the members with the name of the option has the value. -/
def OptionName.LastSetTo (name : OptionName) (entries : List Entry) (value : Expr) : Prop :=
  ∃ front member back, entries = front ++ member :: back ∧ member.Sets name value ∧
    ∀ later ∈ back, ∀ other, ¬later.Sets name other

namespace Entry

variable {entry : Entry} {name : OptionName} {value : Expr}

theorem option?_eq_some_iff : entry.option? = some name ↔ ∃ value, entry.Sets name value := by
  constructor
  · intro given
    cases entry with
    | spread span inner => cases given
    | property span key form value =>
      exact ⟨value, .property (Key.name?_eq_some_iff.mp (name?_of_option? given))⟩
  · rintro ⟨value, @⟨span, key, form, _, _, named⟩⟩
    show key.name?.bind OptionName.ofText? = some name
    rw [Key.name?_eq_some_iff.mpr named, Option.bind_some, name.ofText?_text]

theorem Sets.option? (sets : entry.Sets name value) : entry.option? = some name :=
  option?_eq_some_iff.mpr ⟨value, sets⟩

theorem Sets.value_unique {other : Expr} (sets : entry.Sets name value) (again : entry.Sets name other) :
    value = other := by
  cases sets
  cases again
  rfl

/-- A member is refused exactly if it has the name of an option that does not accept its value. -/
theorem refused?_eq_some_iff {refused : InvalidOption} :
    entry.refused? = some refused ↔
      ∃ name value, entry.Sets name value ∧ (∀ content, ¬name.IsLiteral value content) ∧
        refused = ⟨name.text, name.expected, value.unwrap.span⟩ := by
  constructor
  · intro found
    cases entry with
    | spread span inner => cases found
    | property span key form value =>
      obtain ⟨name, given, wrong⟩ := Option.bind_eq_some_iff.mp found
      have named : key.IsNamed name.text := Key.name?_eq_some_iff.mp (name?_of_option? given)
      split at wrong
      · cases wrong
      · next rejected =>
        obtain rfl := Option.some.inj wrong
        rw [Bool.not_eq_true] at rejected
        exact ⟨name, value, .property named, OptionName.accepts_eq_false_iff.mp rejected, rfl⟩
  · rintro ⟨name, value, sets, refuses, rfl⟩
    have given := sets.option?
    obtain ⟨named⟩ := sets
    rw [refused?, given, Option.bind_some, OptionName.accepts_eq_false_iff.mpr refuses]
    rfl

end Entry

namespace OptionName

variable {name : OptionName} {entry : Entry} {entries : List Entry} {value : Expr}

/-- A member behind the others decides if it has the name of the option, and leaves it to them otherwise. -/
theorem lastSetTo_append_singleton :
    name.LastSetTo (entries ++ [entry]) value ↔
      entry.Sets name value ∨ entry.option? ≠ some name ∧ name.LastSetTo entries value := by
  constructor
  · rintro ⟨front, member, back, split, sets, last⟩
    rcases List.eq_nil_or_concat back with rfl | ⟨back, final, rfl⟩
    · obtain ⟨rfl, same⟩ := List.append_inj' split rfl
      obtain rfl := List.singleton_inj.mp same
      exact .inl sets
    · rw [List.concat_eq_append, ← List.cons_append, ← List.append_assoc] at split
      obtain ⟨rfl, same⟩ := List.append_inj' split rfl
      obtain rfl := List.singleton_inj.mp same
      refine .inr ⟨fun given => ?_, front, member, back, rfl, sets, fun later mem => ?_⟩
      · obtain ⟨other, again⟩ := Entry.option?_eq_some_iff.mp given
        exact last entry (by simp) other again
      · exact last later (by simp [mem])
  · rintro (sets | ⟨silent, front, member, back, rfl, sets, last⟩)
    · exact ⟨entries, entry, [], rfl, sets, by simp⟩
    · refine ⟨front, member, back ++ [entry], by simp, sets, fun later mem other again => ?_⟩
      rcases List.mem_append.mp mem with inner | outer
      · exact last later inner other again
      · obtain rfl := List.mem_singleton.mp outer
        exact silent again.option?

end OptionName

/-! ### Reading all members -/

namespace Options

variable {o : Options} {name : OptionName} {entry : Entry} {value : Expr}

theorem given?_assign (o : Options) (name : OptionName) (e : Expr) :
    (o.assign name e).given? name = (name.read? e).map (⟨·, e.span⟩) := by
  cases name <;> rfl

theorem put_of_sets (sets : entry.Sets name value) :
    o.put entry = (o.assign name value.unwrap).refuse name value.unwrap := by
  have given := sets.option?
  obtain ⟨named⟩ := sets
  exact put_of_option? given

theorem given?_put (sets : entry.Sets name value) :
    (o.put entry).given? name = (name.read? value).map (⟨·, value.unwrap.span⟩) := by
  rw [put_of_sets sets, given?_refuse, given?_assign, OptionName.read?_unwrap]

theorem invalid_put (o : Options) (entry : Entry) :
    (o.put entry).invalid = o.invalid ++ entry.refused?.toList := by
  cases entry with
  | spread span inner => exact (List.append_nil _).symm
  | property span key form value =>
    cases given : (Entry.property span key form value).option? with
    | none =>
      rw [put_of_option?_eq_none given, Entry.refused?, given]
      exact (List.append_nil _).symm
    | some name =>
      rw [put_of_option? given, Entry.refused?, given, Option.bind_some, refuse, name.accepts_eq, name.read?_unwrap,
        ← name.accepts_eq]
      cases name.accepts value with
      | true => simp [invalid_assign]
      | false => simp [invalid_assign]

theorem span_put (o : Options) (entry : Entry) : (o.put entry).span = o.span := by
  cases given : entry.option? with
  | none => rw [put_of_option?_eq_none given]
  | some name =>
    obtain ⟨value, sets⟩ := Entry.option?_eq_some_iff.mp given
    rw [put_of_sets sets, refuse]
    split <;> cases name <;> rfl

/-- An option is what the last member with its name gives. -/
theorem given?_ofEntries (span : Span) (entries : List Entry) {content : name.Content} {place : Span} :
    (ofEntries span entries).given? name = some ⟨content, place⟩ ↔
      ∃ value, name.LastSetTo entries value ∧ name.IsLiteral value content ∧ place = value.unwrap.span := by
  -- The last member decides if it has the name of the option, and is passed over otherwise.
  induction entries using List.reverseRecOn with
  | nil =>
    constructor
    · intro given
      cases name <;> cases given
    · rintro ⟨value, ⟨front, member, back, split, -⟩, -⟩
      simp at split
  | append_singleton entries entry ih =>
    rw [ofEntries_append_singleton]
    simp only [OptionName.lastSetTo_append_singleton]
    by_cases given : entry.option? = some name
    · obtain ⟨value, sets⟩ := Entry.option?_eq_some_iff.mp given
      rw [given?_put sets]
      constructor
      · intro read
        obtain ⟨_, found, same⟩ := Option.map_eq_some_iff.mp read
        cases same
        exact ⟨value, .inl sets, OptionName.read?_eq_some_iff.mp found, rfl⟩
      · rintro ⟨other, again | ⟨silent, -⟩, literal, rfl⟩
        · obtain rfl := sets.value_unique again
          rw [OptionName.read?_eq_some_iff.mpr literal]
          rfl
        · exact absurd given silent
    · rw [given?_put_of_ne given, ih]
      refine exists_congr fun value => and_congr_left fun _ => ?_
      constructor
      · exact fun last => .inr ⟨given, last⟩
      · rintro (sets | ⟨-, last⟩)
        · exact absurd sets.option? given
        · exact last

/-- What is refused stays listed, whatever the later members are. -/
theorem invalid_ofEntries (span : Span) (entries : List Entry) :
    (ofEntries span entries).invalid = entries.filterMap Entry.refused? := by
  induction entries using List.reverseRecOn with
  | nil => rfl
  | append_singleton entries entry ih =>
    rw [ofEntries_append_singleton, invalid_put, ih, List.filterMap_append]
    cases refused : entry.refused? <;> simp [refused]

theorem span_ofEntries (span : Span) (entries : List Entry) : (ofEntries span entries).span = span := by
  induction entries using List.reverseRecOn with
  | nil => rfl
  | append_singleton entries entry ih => rw [ofEntries_append_singleton, span_put, ih]

/-- An option is given by the last member that has its name, with the place of the value inside what it is wrapped in,
if the value is a literal of the shape that the option accepts, and not at all otherwise.  The refused properties are
listed one by one in their order: those that have the name of an option and no such value, whatever stands behind them.
Of the members of an object of modes, which all have to be modes, none but plain properties are accepted. -/
theorem ofEntries_decodes (span : Span) (entries : List Entry) :
    let options := ofEntries span entries
    options.span = span ∧
      (∀ (name : OptionName) (content : name.Content) (place : Span),
        options.given? name = some ⟨content, place⟩ ↔
          ∃ value, name.LastSetTo entries value ∧ name.IsLiteral value content ∧ place = value.unwrap.span) ∧
      options.invalid = entries.filterMap Entry.refused? ∧
      (∀ (entry : Entry) (refused : InvalidOption), entry.refused? = some refused ↔
        ∃ name value, entry.Sets name value ∧ (∀ content, ¬name.IsLiteral value content) ∧
          refused = ⟨name.text, name.expected, value.unwrap.span⟩) ∧
      ∀ (entry : Entry) (mode : String × Style.Paths), entry.IsMode mode → entry.FitsForm →
        ∃ span key value, entry = .property span key .plain value :=
  ⟨span_ofEntries span entries, fun _ _ _ => given?_ofEntries span entries, invalid_ofEntries span entries,
    fun _ _ => Entry.refused?_eq_some_iff, fun _ _ => Entry.IsMode.plain⟩

/-- A later property takes an option away if it is refused, and both refused properties are listed. -/
example :
    ofEntries ⟨0, 50⟩ [tagEntry 2, .property ⟨14, 22⟩ (.label (.quoted "tag")) .plain (.ident ⟨21, 22⟩ "t"),
        .property ⟨24, 39⟩ (.label (.bare "assetsDirs")) .plain (.array ⟨36, 39⟩ [.hole]), spreadEntry 41] =
      { invalid := [⟨"tag", "a string", ⟨21, 22⟩⟩, ⟨"assetsDirs", "a list of strings", ⟨36, 39⟩⟩]
        span := ⟨0, 50⟩ } := by
  decide

end Options
end ComponentHoist

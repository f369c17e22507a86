import ComponentHoist.Proofs.ModeMap
import ComponentHoist.Proofs.Outcome
import Mathlib.Data.List.DropRight

/-!
# ComponentHoist.Proofs.Canonical — the one form in which a component is declared

Options can be given in several shapes, and some of what is given says nothing.  A declaration that comes out of the
pass holds each fact in one form.

* `Declaration.Canonical`: what that form asks, as a relation between a declaration and the options.
* `Declaration.canonical_ofOptions`: options that break no rule on options have a canonical declaration.
* `Program.output_canonical`: so have all components of a module.
-/

namespace ComponentHoist

/-! ### Texts without white space at their ends -/

namespace Text

theorem trimChars_eq_rdropWhile (cs : List Char) : trimChars cs = (cs.dropWhile isSpace).rdropWhile isSpace := rfl

theorem trimChars_trimChars (cs : List Char) : trimChars (trimChars cs) = trimChars cs := by
  -- What is left begins like the text without the white space in front of it, so nothing more goes from there.
  have front : (trimChars cs).dropWhile isSpace = trimChars cs := by
    rw [List.dropWhile_eq_self_iff]
    intro long
    have begins : trimChars cs <+: cs.dropWhile isSpace := List.rdropWhile_prefix isSpace _
    have first := begins.getElem long
    have settled := List.dropWhile_idempotent isSpace cs
    rw [List.dropWhile_eq_self_iff] at settled
    rw [first]
    exact settled (Nat.lt_of_lt_of_le long begins.length_le)
  rw [trimChars_eq_rdropWhile (trimChars cs), front, trimChars_eq_rdropWhile, List.rdropWhile_idempotent]

theorem trim_trim (s : String) : trim (trim s) = trim s := by
  rw [trim_eq_self_iff, toList_trim, trimChars_trimChars]

/-- A text is blank if nothing is left of it. -/
theorem isBlank_iff_trim (s : String) : isBlank s = true ↔ trim s = "" := by
  rw [← String.toList_inj, toList_trim, trimChars_eq_rdropWhile, isBlank, List.all_eq_true]
  constructor
  · intro blank
    rw [List.dropWhile_eq_nil_iff.mpr blank]
    rfl
  · intro nothing
    have inside := List.rdropWhile_eq_nil_iff.mp nothing
    exact List.dropWhile_eq_nil_iff.mp (by
      rw [← List.dropWhile_idempotent]
      exact List.dropWhile_eq_nil_iff.mpr inside)

end Text

namespace Declaration

/-! ### Canonical declarations -/

/-- Whether a declaration says what the options say, in the one form for it. -/
structure Canonical (o : Options) (d : Declaration) : Prop where
  /-- The tag is that of the options without the white space around it, and a valid name. -/
  tag : o.trimmedTag? = some d.tag
  tag_ne_empty : d.tag ≠ ""
  tag_valid : Tag.IsValid d.tag
  shadow : d.encapsulation = some .shadow ↔ o.isShadow = true
  scope : d.encapsulation = some .scope ↔ o.isScoped = true
  exclusive : ¬(o.isShadow = true ∧ o.isScoped = true)
  /-- No mode is listed twice and none without a path. -/
  modes_nodup : d.originalStyleUrls.modes.Nodup
  paths_ne_nil : ∀ entry ∈ d.originalStyleUrls.entries, entry.2 ≠ []
  /-- The compiled sheets stand side by side with their sources. -/
  compiled : List.Forall₂
    (fun source sheet => sheet.1 = source.1 ∧
      List.Forall₂ (fun path path' => path' = Style.compiledPath path) source.2 sheet.2)
    d.originalStyleUrls.entries d.styleUrls.entries
  /-- The single directory comes behind the list, and blank ones are left out. -/
  assetsDirs : d.assetsDirs =
    ((o.assetsDirs.map Spanned.value).getD [] ++ (o.assetsDir.map Spanned.value).toList).filter fun directory =>
      Text.trim directory ≠ ""
  assetsDirs_ne_blank : ∀ directory ∈ d.assetsDirs, Text.trim directory ≠ ""
  /-- Styles have no white space around them and are not empty. -/
  styles : ∀ styles, d.styles = some styles → styles ≠ "" ∧ Text.trim styles = styles

variable {config : Config} {exports : List ExportedSymbol} {options : Options} {cls : Class} {index : Nat}

theorem encapsulation_ofOptions (className : Option String)
    (exclusive : ¬(options.isShadow = true ∧ options.isScoped = true)) :
    ((ofOptions className options).encapsulation = some .shadow ↔ options.isShadow = true) ∧
      ((ofOptions className options).encapsulation = some .scope ↔ options.isScoped = true) := by
  cases shadow : options.isShadow <;> cases scope : options.isScoped <;>
    simp_all [ofOptions]

theorem assetsDirs_ofOptions (className : Option String) (options : Options) :
    (ofOptions className options).assetsDirs =
      ((options.assetsDirs.map Spanned.value).getD [] ++ (options.assetsDir.map Spanned.value).toList).filter
        fun directory => Text.trim directory ≠ "" := by
  refine List.filter_congr fun directory _ => ?_
  cases blank : Text.isBlank directory with
  | true => simp [(Text.isBlank_iff_trim directory).mp blank]
  | false =>
    have something : Text.trim directory ≠ "" := fun nothing => by
      rw [(Text.isBlank_iff_trim directory).mpr nothing] at blank
      cases blank
    simp [something]

theorem styles_ofOptions {className : Option String} {styles : String}
    (h : (ofOptions className options).styles = some styles) : styles ≠ "" ∧ Text.trim styles = styles := by
  obtain ⟨trimmed, nonempty⟩ := Option.filter_eq_some_iff.mp h
  obtain ⟨given, -, rfl⟩ := Option.map_eq_some_iff.mp trimmed
  exact ⟨by simpa using nonempty, Text.trim_trim given.value⟩

/-- Options that break no rule on options have a canonical declaration. -/
theorem canonical_ofOptions (className : Option String)
    (encapsulation : Class.Meets config exports options cls index .encapsulation)
    (present : Class.Meets config exports options cls index .tagMissing)
    (valid : Class.Meets config exports options cls index .tagInvalid) :
    Canonical options (ofOptions className options) := by
  obtain ⟨tag, given, named⟩ := present
  have same : (ofOptions className options).tag = tag := by simp [ofOptions, given]
  have urls := ModeMap.wellFormed_ofSources (options.styleUrl.map Spanned.value)
    (options.styleUrls.map Spanned.value)
  obtain ⟨shadow, scope⟩ := encapsulation_ofOptions className encapsulation
  have directories := assetsDirs_ofOptions className options
  exact
    { tag := by rw [same, given]
      tag_ne_empty := by rwa [same]
      tag_valid := by
        rw [same]
        exact valid tag given named
      shadow
      scope
      exclusive := encapsulation
      modes_nodup := urls.nodup
      paths_ne_nil := urls.nonempty
      compiled := ModeMap.forall₂_compiled _
      assetsDirs := directories
      assetsDirs_ne_blank := by
        intro directory h
        rw [directories] at h
        simpa using List.of_mem_filter h
      styles := fun _ h => styles_ofOptions h }

end Declaration

/-- Every component of a module is the declaration of one of its classes.  It is the canonical form of the options that
the component decorator of the class is given. -/
theorem Program.output_canonical (config : Config) (path source : String) (p : Program) {declaration : Declaration}
    (h : declaration ∈ (p.output config path source).components) :
    ∃ cls ∈ p.classes, ∃ decorator options, cls.componentDecorator? config = some decorator ∧
      decorator.options? = some options ∧ declaration.className = cls.head.name ∧ declaration.Canonical options := by
  rw [components_output] at h
  obtain ⟨cls, visited, hoisted⟩ := List.mem_filterMap.mp h
  obtain ⟨decorator, options, index, found, given, rfl, met⟩ := Class.exists_options_of_hoisted? hoisted
  have canonical : (Declaration.ofOptions cls.head.name options).Canonical options :=
    Declaration.canonical_ofOptions cls.head.name (met .encapsulation) (met .tagMissing) (met .tagInvalid)
  exact ⟨cls, (p.reached_sublist _).subset visited, decorator, options, found, given, rfl, canonical⟩

/-! ### A component that is given more than it needs -/

/-- A component whose tag and styles have white space around them, with a mode without paths and a blank directory. -/
def card : Class where
  head := { span := ⟨165, 180⟩, name := some "MyCard" }
  decorators := [⟨⟨0, 157⟩, .call ⟨1, 157⟩ (.ident ⟨1, 10⟩ "Component") []
    [.object ⟨11, 156⟩ [
      .property ⟨13, 29⟩ (.label (.bare "tag")) .plain (.string ⟨18, 29⟩ " my-card "),
      .property ⟨31, 43⟩ (.label (.bare "shadow")) .plain (.boolean ⟨39, 43⟩ true),
      .property ⟨45, 84⟩ (.label (.bare "styleUrls")) .plain (.object ⟨56, 84⟩ [
        .property ⟨58, 65⟩ (.label (.bare "ios")) .plain (.array ⟨63, 65⟩ []),
        .property ⟨67, 82⟩ (.label (.bare "md")) .plain (.string ⟨71, 82⟩ "card.scss")]),
      .property ⟨86, 110⟩ (.label (.bare "assetsDirs")) .plain
        (.array ⟨98, 110⟩ [.string ⟨99, 102⟩ " ", .string ⟨104, 109⟩ "img"]),
      .property ⟨112, 128⟩ (.label (.bare "assetsDir")) .plain (.string ⟨123, 128⟩ "res"),
      .property ⟨130, 154⟩ (.label (.bare "styles")) .plain (.string ⟨138, 154⟩ " a { top: 0 } ")]]⟩]
  generics := []
  superclass := none
  superArguments := []
  interfaces := []
  members := []

/-- The module that exports it. -/
def cardModule : Program where
  statements := [.exportDecl ⟨158, 180⟩ false (.classDecl card)]

/-- What it is declared as. -/
def cardDeclaration : Declaration where
  className := some "MyCard"
  tag := "my-card"
  encapsulation := some .shadow
  originalStyleUrls := ⟨[("md", ["card.scss"])]⟩
  styleUrls := ⟨[("md", ["card.css"])]⟩
  assetsDirs := ["img", "res"]
  styles := some "a { top: 0 }"

/-- The declaration is canonical. -/
theorem Program.output_cardModule :
    cardDeclaration ∈ (cardModule.output {} "card.ts" "").components ∧
      ∃ cls ∈ cardModule.classes, ∃ decorator options, cls.componentDecorator? {} = some decorator ∧
        decorator.options? = some options ∧ cardDeclaration.className = cls.head.name ∧
        cardDeclaration.Canonical options := by
  have hoisted : (cardModule.output {} "card.ts" "").components = [cardDeclaration] := by
    have visited : cardModule.visited {} = [card] := visited_of_outer rfl rfl
    rw [components_output, visited]
    decide
  have collected : cardDeclaration ∈ (cardModule.output {} "card.ts" "").components := by simp [hoisted]
  exact ⟨collected, output_canonical {} "card.ts" "" cardModule collected⟩

end ComponentHoist

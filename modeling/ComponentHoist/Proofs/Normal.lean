import ComponentHoist.Proofs.Canonical

/-!
# ComponentHoist.Proofs.Normal — declarations written as options again

A declaration says in one form what options can say in many.  That form can be written as options once more, and
nothing of it moves when these are read.

* `Declaration.Normal`: the form of each field, said without the options that it comes from.
* `Declaration.normal_ofOptions`: all declarations that come from options have it, also from options that are refused.
* `Options.Writes`: options that say what a declaration says, and `Declaration.toOptions`, a way to write them.
* `Declaration.ofOptions_of_writes`: such options give a normal declaration back.
* `Declaration.ofOptions_idempotent`: so a second pass over what the first one leaves changes nothing.
-/

namespace ComponentHoist

attribute [ext] Declaration

/-! ### The form of each field -/

/-- Whether each field has the form that options are brought into. -/
structure Declaration.Normal (d : Declaration) : Prop where
  /-- There is no white space around the tag, which may be empty. -/
  tag : Text.trim d.tag = d.tag
  urls : d.originalStyleUrls.WellFormed
  compiled : d.styleUrls = d.originalStyleUrls.compiled
  assetsDirs : ∀ directory ∈ d.assetsDirs, Text.isBlank directory = false
  styles : ∀ styles, d.styles = some styles → styles ≠ "" ∧ Text.trim styles = styles

namespace Declaration

/-- Options give a normal declaration, whether or not they break a rule. -/
theorem normal_ofOptions (className : Option String) (o : Options) : (ofOptions className o).Normal where
  tag := by
    cases given : o.tag with
    | none =>
      have empty : (ofOptions className o).tag = "" := by simp [ofOptions, Options.trimmedTag?, given]
      rw [empty]
      rfl
    | some tag =>
      have trimmed : (ofOptions className o).tag = Text.trim tag.value := by
        simp [ofOptions, Options.trimmedTag?, given]
      rw [trimmed, Text.trim_trim]
  urls := ModeMap.wellFormed_ofSources _ _
  compiled := rfl
  assetsDirs directory h := by simpa using List.of_mem_filter h
  styles _ h := styles_ofOptions h

end Declaration

/-! ### Options that write a declaration -/

/-- Whether the options say what the declaration says: its tag, its encapsulation, its style sources by mode, its
directories in one list and its styles.  Where a value stands does not matter, nor whether an option that is not set is
left out or given as false. -/
structure Options.Writes (o : Options) (d : Declaration) : Prop where
  tag : o.tag.map Spanned.value = some d.tag
  shadow : o.isShadow = true ↔ d.encapsulation = some .shadow
  scope : o.isScoped = true ↔ d.encapsulation = some .scope
  styleUrl : o.styleUrl = none
  styleUrls : o.styleUrls.map Spanned.value = some (.ofModeMap d.originalStyleUrls)
  assetsDir : o.assetsDir = none
  assetsDirs : o.assetsDirs.map Spanned.value = some d.assetsDirs
  styles : o.styles.map Spanned.value = d.styles

namespace Declaration

/-- Options that write the declaration, each at its place. -/
def toOptions (place : OptionName → Span) (d : Declaration) : Options where
  tag := some ⟨d.tag, place .tag⟩
  shadow := some ⟨d.encapsulation = some .shadow, place .shadow⟩
  scope := some ⟨d.encapsulation = some .scope, place .scope⟩
  styleUrls := some ⟨.ofModeMap d.originalStyleUrls, place .styleUrls⟩
  styles := d.styles.map fun styles => ⟨styles, place .styles⟩
  assetsDirs := some ⟨d.assetsDirs, place .assetsDirs⟩

theorem writes_toOptions (place : OptionName → Span) (d : Declaration) : (d.toOptions place).Writes d where
  tag := rfl
  shadow := by simp [toOptions, Options.isShadow]
  scope := by simp [toOptions, Options.isScoped]
  styleUrl := rfl
  styleUrls := rfl
  assetsDir := rfl
  assetsDirs := rfl
  styles := by simp [toOptions, Function.comp_def]

/-- A normal declaration comes back from all options that write it. -/
theorem ofOptions_of_writes {d : Declaration} {o : Options} (normal : d.Normal) (written : o.Writes d) :
    ofOptions d.className o = d := by
  have tag : (ofOptions d.className o).tag = d.tag := by
    obtain ⟨given, option, value⟩ := Option.map_eq_some_iff.mp written.tag
    have trimmed : o.trimmedTag? = some (Text.trim d.tag) := by rw [Options.trimmedTag?, option, ← value]; rfl
    rw [ofOptions, trimmed, normal.tag]
    rfl
  have encapsulation : (ofOptions d.className o).encapsulation = d.encapsulation := by
    show (if o.isShadow then some .shadow else if o.isScoped then some .scope else none) = d.encapsulation
    simp only [written.shadow, written.scope]
    rcases d.encapsulation with - | - | - <;> rfl
  -- With no single path the sources by mode are all there is, and a well-formed map comes back from its entries.
  have urls : (ofOptions d.className o).originalStyleUrls = d.originalStyleUrls := by
    show ModeMap.ofSources _ _ = _
    rw [written.styleUrl, written.styleUrls]
    exact ModeMap.ofSources_ofModeMap normal.urls
  have compiled : (ofOptions d.className o).styleUrls = d.styleUrls := by
    rw [normal.compiled, ← urls]
    rfl
  have directories : (ofOptions d.className o).assetsDirs = d.assetsDirs := by
    show List.filter _ (_ ++ _) = _
    rw [written.assetsDir, written.assetsDirs]
    show List.filter _ (d.assetsDirs ++ []) = _
    rw [List.append_nil, List.filter_eq_self]
    intro directory h
    rw [normal.assetsDirs directory h]
    rfl
  have styles : (ofOptions d.className o).styles = d.styles := by
    have trimmed : (ofOptions d.className o).styles =
        (d.styles.map Text.trim).filter fun styles => !styles.isEmpty := by
      rw [← written.styles, Option.map_map]
      rfl
    rw [trimmed]
    cases given : d.styles with
    | none => rfl
    | some styles =>
      obtain ⟨nonempty, trim⟩ := normal.styles styles given
      rw [Option.map_some, trim, Option.filter_some, if_pos (by simpa using nonempty)]
  exact Declaration.ext rfl tag encapsulation urls compiled directories styles

/-- Bringing options into the one form is idempotent: all options that write the declaration give it again, and there
are such options, with their values in any places. -/
theorem ofOptions_idempotent (className : Option String) (o : Options) :
    let d := ofOptions className o
    (∀ place, (d.toOptions place).Writes d) ∧ ∀ o' : Options, o'.Writes d → ofOptions className o' = d := by
  intro d
  have normal : d.Normal := normal_ofOptions className o
  exact ⟨fun place => writes_toOptions place d, fun _ written => ofOptions_of_writes normal written⟩

end Declaration

/-- Options with paths for the default mode in three places, a mode without paths, a blank directory, and white space
around the tag and the styles. -/
def untidyOptions : Options where
  tag := some ⟨" my-card\u00a0", ⟨18, 30⟩⟩
  scope := some ⟨true, ⟨40, 44⟩⟩
  styleUrl := some ⟨"card.scss", ⟨56, 67⟩⟩
  styleUrls := some
    ⟨.modes [("md", .many []), ("ios", .one "ios.scss"), ("$", .one "base.scss"), ("ios", .many ["a/b.css"]),
      ("$", .many ["last.scss"])], ⟨80, 160⟩⟩
  assetsDir := some ⟨"res", ⟨173, 178⟩⟩
  assetsDirs := some ⟨["\u2003", "img"], ⟨192, 206⟩⟩
  styles := some ⟨"\n a ", ⟨216, 222⟩⟩

/-- What is left of them when each fact is said once. -/
def tidyOptions : Options where
  tag := some ⟨"my-card", ⟨1, 2⟩⟩
  shadow := some ⟨false, ⟨3, 4⟩⟩
  scope := some ⟨true, ⟨5, 6⟩⟩
  styleUrls := some
    ⟨.modes [("ios", .many ["ios.scss", "a/b.css"]), ("$", .many ["card.scss", "base.scss", "last.scss"])], ⟨7, 8⟩⟩
  assetsDirs := some ⟨["img", "res"], ⟨9, 10⟩⟩
  styles := some ⟨"a", ⟨11, 12⟩⟩

/-- The default mode stays behind the other one, and the single path in front of its list. -/
theorem Declaration.ofOptions_idempotent_untidyOptions :
    tidyOptions.Writes (ofOptions (some "MyCard") untidyOptions) ∧
      ofOptions (some "MyCard") tidyOptions = ofOptions (some "MyCard") untidyOptions := by
  have written : tidyOptions.Writes (ofOptions (some "MyCard") untidyOptions) :=
    ⟨by decide, by decide, by decide, by decide, by decide, by decide, by decide, by decide⟩
  exact ⟨written, (ofOptions_idempotent (some "MyCard") untidyOptions).2 tidyOptions written⟩

end ComponentHoist

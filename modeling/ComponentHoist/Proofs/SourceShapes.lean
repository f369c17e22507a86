import ComponentHoist.Proofs.Members
import ComponentHoist.Proofs.PathsByMode

/-!
# ComponentHoist.Proofs.SourceShapes — one path in any of the shapes

A single style source can be given in four shapes.  They come to the same, but for a blank path, which is left out in
one of them only.

* `Style.Shape`, `Options.withSource`: the shapes, and options in which a path is given in one of them.
* `Style.Shape.Keeps`: whether a path that is given in the shape is kept.
* `ModeMap.ofSources_shape`: the map of a source that is given in the shape.
* `Declaration.ofOptions_withSource`: what the shapes have in common, and when.
-/

namespace ComponentHoist

/-! ### Shapes -/

namespace Style

/-- The shapes in which a single style source can be given. -/
inductive Shape where
  /-- As the single path. -/
  | single
  /-- As a list of one path. -/
  | list
  /-- As the path of the default mode. -/
  | mode
  /-- As the list of one path of the default mode. -/
  | modeList
deriving DecidableEq, Repr

namespace Shape

/-- The single path, if the path is given as one. -/
def url (path : String) : Shape → Option String
  | single => some path
  | list | mode | modeList => none

/-- The list or the modes, if the path is given in one of them. -/
def urls (path : String) : Shape → Option Urls
  | single => none
  | list => some (.list [path])
  | mode => some (.modes [(defaultMode, .one path)])
  | modeList => some (.modes [(defaultMode, .many [path])])

/-- Whether the path is kept when it is given in the shape.  A blank one is not if it is the single path. -/
def Keeps (path : String) (shape : Shape) : Prop :=
  shape = single → Text.isBlank path = false

instance (path : String) (shape : Shape) : Decidable (shape.Keeps path) :=
  inferInstanceAs (Decidable (_ → _))

end Shape

end Style

/-- The options with the path as their only style source, given in the shape at a place. -/
def Options.withSource (o : Options) (place : Span) (shape : Style.Shape) (path : String) : Options :=
  { o with
    styleUrl := (shape.url path).map (⟨·, place⟩)
    styleUrls := (shape.urls path).map (⟨·, place⟩) }

/-! ### What a shape comes to -/

/-- The map of the source has nothing but the path, if that is kept. -/
theorem ModeMap.ofSources_shape (path : String) (shape : Style.Shape) :
    ofSources (shape.url path) (shape.urls path) =
      if shape.Keeps path then ⟨[(Style.defaultMode, [path])]⟩ else ∅ := by
  rw [ofSources_eq_prepend]
  cases shape with
  | single =>
    show (∅ : ModeMap).prepend Style.defaultMode (Style.single (some path)) = _
    cases blank : Text.isBlank path with
    | true =>
      have dropped : ¬Style.Shape.Keeps path .single := by simp [Style.Shape.Keeps, blank]
      rw [Style.single_of_isBlank blank, if_neg dropped]
      rfl
    | false =>
      have kept : Style.Shape.Keeps path .single := fun _ => blank
      rw [Style.single_of_visible blank, if_pos kept]
      rfl
  | list => rfl
  | mode => rfl
  | modeList => rfl

theorem ModeMap.isEmpty_compiled (m : ModeMap) : m.compiled.isEmpty = m.isEmpty := by
  simp [isEmpty, compiled, mapPaths]

namespace Declaration

variable {className : Option String} {o : Options} {place place' : Span} {path : String} {shape shape' : Style.Shape}

theorem originalStyleUrls_withSource :
    (ofOptions className (o.withSource place shape path)).originalStyleUrls =
      if shape.Keeps path then ⟨[(Style.defaultMode, [path])]⟩ else ∅ := by
  rw [← ModeMap.ofSources_shape]
  show ModeMap.ofSources _ _ = _
  simp [Options.withSource, Function.comp_def]

/-- The path is kept if the map of the sources has any. -/
theorem isEmpty_originalStyleUrls_withSource :
    (ofOptions className (o.withSource place shape path)).originalStyleUrls.isEmpty = false ↔ shape.Keeps path := by
  rw [originalStyleUrls_withSource]
  by_cases kept : shape.Keeps path
  · rw [if_pos kept]
    exact iff_of_true rfl kept
  · rw [if_neg kept]
    exact iff_of_false (by decide) kept

/-- There is a member for the sources if there are any. -/
theorem isSome_value?_originalStyleUrls (d : Declaration) :
    (d.value? .originalStyleUrls).isSome = !d.originalStyleUrls.isEmpty := by
  rw [value?]
  cases d.originalStyleUrls.isEmpty <;> rfl

/-- A source comes to the same in two shapes if it is kept in both of them or in none. -/
theorem ofOptions_withSource_congr (kept : shape.Keeps path ↔ shape'.Keeps path) :
    ofOptions className (o.withSource place shape path) = ofOptions className (o.withSource place' shape' path) := by
  have sources : (ofOptions className (o.withSource place shape path)).originalStyleUrls =
      (ofOptions className (o.withSource place' shape' path)).originalStyleUrls := by
    rw [originalStyleUrls_withSource, originalStyleUrls_withSource]
    simp only [kept]
  exact Declaration.ext rfl rfl rfl sources (congrArg ModeMap.compiled sources) rfl rfl

/-- A single directory is left out if it is blank. -/
theorem assetsDirs_of_single (given : o.assetsDir = some ⟨path, place⟩) (alone : o.assetsDirs = none) :
    (ofOptions className o).assetsDirs = if Text.isBlank path then [] else [path] := by
  show List.filter _ (_ ++ _) = _
  rw [given, alone]
  show List.filter _ [path] = _
  cases blank : Text.isBlank path with
  | true => simp [blank]
  | false => simp [blank]

/-- A single path, a list of it, and either of them for the default mode come to the map that has the path for the
default mode, and so to the same sheets, declaration and members.  Only a blank path is left out if it is the single
one, and kept in the other shapes.  A directory of assets comes to the same as a list of it, and is left out of both if
it is blank. -/
theorem ofOptions_withSource (className : Option String) (o : Options) (place place' : Span) (path : String)
    (shape shape' : Style.Shape) :
    let d := ofOptions className (o.withSource place shape path)
    let d' := ofOptions className (o.withSource place' shape' path)
    let alike : Prop := shape.Keeps path ↔ shape'.Keeps path
    d.originalStyleUrls = (if shape.Keeps path then ⟨[(Style.defaultMode, [path])]⟩ else ∅) ∧
      (d.originalStyleUrls = d'.originalStyleUrls ↔ alike) ∧ (d.styleUrls = d'.styleUrls ↔ alike) ∧
      (d = d' ↔ alike) ∧ (d.members = d'.members ↔ alike) ∧
      (let d := ofOptions className { o with assetsDir := some ⟨path, place⟩, assetsDirs := none }
      let d' := ofOptions className { o with assetsDir := none, assetsDirs := some ⟨[path], place'⟩ }
      d = d' ∧ d.assetsDirs = if Text.isBlank path then [] else [path]) := by
  intro d d' alike
  have same_of_alike : alike → d = d' := ofOptions_withSource_congr
  -- Whatever the two have in common, it tells whether there is a source in both of them or in none.
  have alike_of_isEmpty (same : d.originalStyleUrls.isEmpty = d'.originalStyleUrls.isEmpty) : alike := by
    show shape.Keeps path ↔ _
    rw [← isEmpty_originalStyleUrls_withSource, same]
    exact isEmpty_originalStyleUrls_withSource
  refine ⟨originalStyleUrls_withSource, ?_, ?_, ?_, ?_, rfl, assetsDirs_of_single rfl rfl⟩
  · constructor
    · intro same
      exact alike_of_isEmpty (congrArg ModeMap.isEmpty same)
    · intro both
      rw [same_of_alike both]
  · constructor
    · intro same
      have sheets : d.originalStyleUrls.compiled.isEmpty = d'.originalStyleUrls.compiled.isEmpty :=
        congrArg ModeMap.isEmpty same
      rw [ModeMap.isEmpty_compiled, ModeMap.isEmpty_compiled] at sheets
      exact alike_of_isEmpty sheets
    · intro both
      rw [same_of_alike both]
  · constructor
    · intro same
      exact alike_of_isEmpty (by rw [same])
    · exact same_of_alike
  · constructor
    · intro same
      have value := congrArg Option.isSome (value?_eq_of_members same .originalStyleUrls)
      rw [isSome_value?_originalStyleUrls, isSome_value?_originalStyleUrls, Bool.not_inj_iff] at value
      exact alike_of_isEmpty value
    · intro both
      rw [same_of_alike both]

/-- A blank path is left out if it is the single one.  In a list it is kept, and compiled to a sheet with a
blank base name. -/
theorem blankSource_kept :
    (ofOptions none (Options.withSource {} ⟨0, 3⟩ .single " ")).originalStyleUrls = ∅ ∧
      (ofOptions none (Options.withSource {} ⟨0, 3⟩ .list " ")).originalStyleUrls = ⟨[("$", [" "])]⟩ ∧
      (ofOptions none (Options.withSource {} ⟨0, 3⟩ .list " ")).styleUrls = ⟨[("$", [" .css"])]⟩ := by
  decide

end Declaration
end ComponentHoist

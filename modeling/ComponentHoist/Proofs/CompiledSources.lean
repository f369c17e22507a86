import ComponentHoist.Proofs.PathsByMode
import ComponentHoist.Proofs.SheetPath

/-!
# ComponentHoist.Proofs.CompiledSources — sources that are compiled before they are put together

It is the same whether the map of all style sources is compiled, or each source is compiled where it is written and the
map is put together from the sheets.

* `Style.Urls.map`: style sources in the same shape with each path replaced.
* `ModeMap.mapPaths_alter`: replacing all paths goes along with altering one mode.
* `ModeMap.mapPaths_ofEntries`: so it goes along with putting a map together.
* `ModeMap.mapPaths_ofSources_iff`: the single path is the only one that has to be looked at.
* `ModeMap.compiled_ofSources`: what follows for sheets.
-/

namespace ComponentHoist

/-! ### Style sources with each path replaced -/

namespace Style

/-- What is given for one mode, with each path replaced. -/
def Paths.map (g : String → String) : Paths → Paths
  | .one path => .one (g path)
  | .many paths => .many (paths.map g)

/-- Style sources in the same shape, with each path replaced. -/
def Urls.map (g : String → String) : Urls → Urls
  | .list paths => .list (paths.map g)
  | .modes entries => .modes (entries.map fun entry => (entry.1, entry.2.map g))

theorem Paths.toList_map (g : String → String) (paths : Paths) : (paths.map g).toList = paths.toList.map g := by
  cases paths with
  | one path => rfl
  | many paths => rfl

theorem byMode_map (g : String → String) (urls : Option Urls) :
    byMode (urls.map (Urls.map g)) = (byMode urls).map fun entry => (entry.1, entry.2.map g) := by
  rcases urls with - | paths | entries
  · rfl
  · rfl
  · rfl

/-- A sheet has a name, so its path is never blank. -/
theorem isBlank_compiledPath (path : String) : Text.isBlank (compiledPath path) = false := by
  obtain ⟨directory, stem, lies⟩ := exists_liesAt path
  have visible : Text.isSpace 's' = false := by decide
  have last : 's' ∈ (compiledPath path).toList := by
    rw [lies.compiled.whole]
    exact List.mem_append_right _ (List.mem_append_right _ (by decide))
  rw [Text.isBlank, List.all_eq_false]
  exact ⟨'s', last, by rw [visible]; exact Bool.false_ne_true⟩

end Style

namespace ModeMap

variable {m : ModeMap} {mode : String} {paths : List String} {f f' : List String → List String} {g : String → String}

/-! ### Operations on one mode -/

theorem map_alterEntries (alike : ∀ old, (f old).map g = f' (old.map g)) (entries : List (String × List String)) :
    (alterEntries mode f entries).map (fun entry => (entry.1, entry.2.map g)) =
      alterEntries mode f' (entries.map fun entry => (entry.1, entry.2.map g)) := by
  induction entries with
  | nil =>
    show [(mode, (f []).map g)] = [(mode, f' [])]
    rw [alike, List.map_nil]
  | cons entry rest ih =>
    obtain ⟨first, old⟩ := entry
    rw [alterEntries, List.map_cons, alterEntries]
    by_cases found : first = mode
    · rw [if_pos found, if_pos found, List.map_cons, alike]
    · rw [if_neg found, if_neg found, List.map_cons, ih]

/-- Replacing all paths goes along with altering one mode, if it goes along with what its paths are altered to. -/
theorem mapPaths_alter (alike : ∀ old, (f old).map g = f' (old.map g)) :
    (m.alter mode f).mapPaths g = (m.mapPaths g).alter mode f' := by
  have idle : f' [] = [] ↔ f [] = [] := by
    have start : (f []).map g = f' [] := alike []
    rw [← start, List.map_eq_nil_iff]
  unfold alter
  by_cases nothing : f [] = []
  · rw [if_pos nothing, if_pos (idle.mpr nothing)]
  · rw [if_neg nothing, if_neg fun h => nothing (idle.mp h)]
    exact congrArg ModeMap.mk (map_alterEntries alike m.entries)

theorem mapPaths_append : (m.append mode paths).mapPaths g = (m.mapPaths g).append mode (paths.map g) := by
  rw [append_eq_alter, append_eq_alter]
  exact mapPaths_alter fun old => List.map_append

theorem mapPaths_prepend : (m.prepend mode paths).mapPaths g = (m.mapPaths g).prepend mode (paths.map g) := by
  rw [prepend_eq_alter, prepend_eq_alter]
  exact mapPaths_alter fun old => List.map_append

/-- Only when nothing is put in front, the map stays as it is. -/
theorem prepend_eq_self_iff : m.prepend mode paths = m ↔ paths = [] := by
  constructor
  · intro same
    have gained := (perm_prepend m mode paths).length_eq
    rw [same, List.length_append] at gained
    exact List.eq_nil_of_length_eq_zero (by omega)
  · rintro rfl
    exact prepend_nil m mode

/-! ### Maps of style sources -/

theorem mapPaths_ofEntries (g : String → String) (entries : List (String × Style.Paths)) :
    (ofEntries entries).mapPaths g = ofEntries (entries.map fun entry => (entry.1, entry.2.map g)) := by
  induction entries using List.reverseRecOn with
  | nil => rfl
  | append_singleton entries entry ih =>
    rw [ofEntries_append_singleton, mapPaths_append, ih, List.map_append, List.map_singleton,
      ofEntries_append_singleton, Style.Paths.toList_map]

/-- Where each path is replaced by one that is not blank, it is the same to do so before or after the sources are put
together, if and only if the single path is not a blank one.  A blank one would be left out if it is not replaced. -/
theorem mapPaths_ofSources_iff (visible : ∀ path, Text.isBlank (g path) = false) (url : Option String)
    (urls : Option Style.Urls) :
    (ofSources url urls).mapPaths g = ofSources (url.map g) (urls.map (Style.Urls.map g)) ↔
      ∀ path ∈ url, Text.isBlank path = false := by
  rw [ofSources_eq_prepend, ofSources_eq_prepend, mapPaths_prepend, mapPaths_ofEntries, Style.byMode_map]
  cases url with
  | none => exact iff_of_true rfl fun _ h => absurd h (Option.not_mem_none _)
  | some path =>
    rw [Option.map_some, Style.single_of_visible (visible path)]
    cases blank : Text.isBlank path with
    | true =>
      rw [Style.single_of_isBlank blank, List.map_nil, prepend_nil, eq_comm, prepend_eq_self_iff]
      refine iff_of_false (List.cons_ne_nil _ _) fun given => ?_
      rw [given path rfl] at blank
      cases blank
    | false =>
      rw [Style.single_of_visible blank, List.map_singleton]
      refine iff_of_true rfl ?_
      rintro _ ⟨⟩
      exact blank

/-- The compiled map of some sources is the map of the compiled sources, unless there is a single path and it is blank.
It has the modes of its source in their order, and the sheet at any place among those of a mode is that of the source at
the same place. -/
theorem compiled_ofSources (url : Option String) (urls : Option Style.Urls) :
    let sources := ofSources url urls
    let sheets := sources.compiled
    (sheets = ofSources (url.map Style.compiledPath) (urls.map (Style.Urls.map Style.compiledPath)) ↔
        ∀ path ∈ url, Text.isBlank path = false) ∧
      sheets.modes = sources.modes ∧
      ∀ (mode : String) (k : Nat), (sheets.pathsOf mode)[k]? = (sources.pathsOf mode)[k]?.map Style.compiledPath := by
  intro sources sheets
  refine ⟨mapPaths_ofSources_iff Style.isBlank_compiledPath url urls, modes_mapPaths _ _, fun mode k => ?_⟩
  have side : sheets.pathsOf mode = (sources.pathsOf mode).map Style.compiledPath := pathsOf_mapPaths _ _ mode
  rw [side, List.getElem?_map]

end ModeMap
end ComponentHoist

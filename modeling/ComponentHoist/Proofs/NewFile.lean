import ComponentHoist.Proofs.Discovery
import ComponentHoist.Proofs.PathPlace
import Mathlib.Data.List.Basic

/-!
# ComponentHoist.Proofs.NewFile — one file more

Two runs are compared, of which the second one has one file more to look at.

* `AddsFile`, `addsFile_of_insertFile`: one file system has a file below a root in addition to those of the other one.
  It comes about where a file is put at a free place.
* `findSources_of_addsFile`: the paths of the sources are the same ones, with that of the file among them if it is a
  source.
* `transformDirectory_of_addsFile`: so are the outputs, with that for the file at its place if there is one.
-/

namespace ComponentHoist

/-- Whether the second file system is the first one with a file in addition, as far as it is seen from the root. -/
structure AddsFile (root : PathName) (place : List Name) (content : ByteArray) (fs fs' : FileSystem) : Prop where
  absent : contentAt? root place fs = none
  added : contentAt? root place fs' = some content
  kept : ∀ other, other ≠ place → contentAt? root other fs' = contentAt? root other fs

section

variable {root : PathName} {place : List Name} {content : ByteArray} {fs fs' : FileSystem} {found : FileTree}

/-- What is at a place below a root is told from the place of the root. -/
theorem contentAt?_eq (leads : fs.resolve root = .ok found) (place : List Name) :
    contentAt? root place fs = fs.root.content? (fs.place root ++ place) := by
  rw [contentAt?, leads, FileTree.content?_append (FileSystem.entryAt?_place leads)]

/-- Putting a file at a free place below a root adds it, however the path of the root is written. -/
theorem addsFile_of_insertFile {whole : List Name} (leads : fs.resolve root = .ok found)
    (below : whole = fs.place root ++ place) (free : FileTree.IsFree whole (some fs.root)) (content : ByteArray) :
    AddsFile root place content fs (fs.insertFile whole content) := by
  subst below
  obtain ⟨found', leads'⟩ := FileSystem.exists_resolve_insertFile free content leads
  have now : ∀ other, contentAt? root other (fs.insertFile (fs.place root ++ place) content) =
      if other = place then some content else contentAt? root other fs := by
    intro other
    rw [contentAt?_eq leads, contentAt?_eq leads', FileSystem.place_insertFile, FileSystem.insertFile,
      FileTree.content?_insertFile free]
    simp only [List.append_cancel_left_eq]
  refine ⟨?_, (now place).trans (if_pos rfl), fun other differs => (now other).trans (if_neg differs)⟩
  rw [contentAt?_eq leads]
  exact FileTree.content?_of_isFree free

/-! ### The sources -/

theorem mem_sourcePlaces_of_addsFile (proper : fs.root.IsProper) (proper' : fs'.root.IsProper)
    (adds : AddsFile root place content fs fs') (other : List Name) :
    other ∈ sourcePlaces root fs' ↔ other ∈ sourcePlaces root fs ∨ other = place ∧ IsSource (rootName root) place := by
  rw [mem_sourcePlaces_iff proper, mem_sourcePlaces_iff proper']
  by_cases same : other = place
  · subst same
    simp [adds.absent, adds.added]
  · simp [adds.kept other same, same]

/-- A file that is no source leaves the sources alone. -/
theorem findSources_of_not_isSource (proper : fs.root.IsProper) (proper' : fs'.root.IsProper)
    (adds : AddsFile root place content fs fs') (ignored : ¬IsSource (rootName root) place) :
    findSources root fs' = findSources root fs := by
  rw [findSources_eq, findSources_eq]
  have sorted := pairwise_sourcePlaces proper root
  have sorted' := pairwise_sourcePlaces proper' root
  refine congrArg _ (sorted'.eq_of_mem_iff sorted fun other => ?_)
  rw [mem_sourcePlaces_of_addsFile proper proper' adds]
  simp [ignored]

/-- The place of a source comes in addition. -/
theorem sourcePlaces_of_addsFile (proper : fs.root.IsProper) (proper' : fs'.root.IsProper)
    (adds : AddsFile root place content fs fs') (source : IsSource (rootName root) place) :
    ∃ before after, sourcePlaces root fs = before ++ after ∧ sourcePlaces root fs' = before ++ place :: after := by
  have mem : place ∈ sourcePlaces root fs' :=
    (mem_sourcePlaces_of_addsFile proper proper' adds place).mpr (.inr ⟨rfl, source⟩)
  have sorted := pairwise_sourcePlaces proper root
  have sorted' := pairwise_sourcePlaces proper' root
  obtain ⟨before, after, split⟩ := List.append_of_mem mem
  refine ⟨before, after, ?_, split⟩
  have rest : (before ++ after).Pairwise (· < ·) := by
    rw [split] at sorted'
    exact sorted'.sublist ((List.Sublist.refl before).append (List.sublist_cons_self place after))
  have distinct : place ∉ before ++ after := by
    rw [split] at sorted'
    exact (List.nodup_middle.mp sorted'.nodup).notMem
  have missing : place ∉ sourcePlaces root fs := by
    rw [mem_sourcePlaces_iff proper, adds.absent]
    rintro ⟨-, content, held⟩
    cases held
  refine sorted.eq_of_mem_iff rest fun other => ?_
  by_cases same : other = place
  · rw [same]
    exact iff_of_false missing distinct
  · have either := mem_sourcePlaces_of_addsFile proper proper' adds other
    rw [split, List.mem_append, List.mem_cons] at either
    simpa [same] using either.symm

/-- The path of a source comes in addition, in the order of the paths. -/
theorem findSources_of_addsFile (proper : fs.root.IsProper) (proper' : fs'.root.IsProper)
    (adds : AddsFile root place content fs fs') (source : IsSource (rootName root) place) :
    ∃ before after, findSources root fs = before ++ after ∧ findSources root fs' = before ++ root.join place :: after ∧
      (∀ path ∈ before, path.Precedes (root.join place)) ∧ (∀ path ∈ after, (root.join place).Precedes path) := by
  obtain ⟨before, after, split, split'⟩ := sourcePlaces_of_addsFile proper proper' adds source
  have sorted := pairwise_precedes_sourcePlaces proper' root
  rw [split', List.pairwise_append, List.pairwise_cons] at sorted
  obtain ⟨-, ⟨later, -⟩, earlier⟩ := sorted
  refine ⟨before.map root.join, after.map root.join, ?_, ?_, ?_, ?_⟩
  · rw [findSources_eq, split, List.map_append]
  · rw [findSources_eq, split', List.map_append, List.map_cons]
  · exact List.forall_mem_map.mpr fun other mem => earlier other mem place List.mem_cons_self
  · exact List.forall_mem_map.mpr later

/-! ### The outputs -/

/-- The output for a file with the content, if there is one. -/
def outputFor? (parse : Parser) (config : Config) (path : String) (content : ByteArray) : Option Output :=
  (String.fromUTF8? content).bind fun text => (parse (allowsMarkup path) text).map fun p => p.output config path text

/-- The output for a file depends on its path and on what is in it only. -/
theorem toOption_transformFile (parse : Parser) (config : Config) (proper : fs.root.IsProper)
    (held : contentAt? root place fs = some content) :
    (transformFile parse config (root.join place) fs).toOption =
      outputFor? parse config (root.join place).shown content := by
  have leads := resolve_join_of_contentAt? proper held
  rw [transformFile, outputFor?]
  cases decoded : String.fromUTF8? content with
  | none =>
    have read : readText (root.join place) fs = .error .invalidText := by
      simp only [readText, leads, decoded]
    rw [read]
    rfl
  | some text =>
    have read : readText (root.join place) fs = .ok text := by
      simp only [readText, leads, decoded]
    rw [read]
    show (transformSource parse config (root.join place).shown text).toOption = _
    rw [transformSource, Option.bind_some]
    cases parse (allowsMarkup (root.join place).shown) text <;> rfl

/-- The outputs for the files at the paths.  Files that cannot be read or parsed are passed over. -/
def outputsAt (parse : Parser) (config : Config) (fs : FileSystem) (paths : List PathName) : List Output :=
  paths.filterMap fun path => (transformFile parse config path fs).toOption

theorem transformDirectory_eq (parse : Parser) (config : Config) (root : PathName) (fs : FileSystem) :
    transformDirectory parse config root fs = outputsAt parse config fs (findSources root fs) :=
  rfl

theorem outputsAt_append (parse : Parser) (config : Config) (fs : FileSystem) (paths later : List PathName) :
    outputsAt parse config fs (paths ++ later) = outputsAt parse config fs paths ++ outputsAt parse config fs later :=
  List.filterMap_append

/-- The outputs for other files do not change. -/
theorem outputsAt_of_addsFile (parse : Parser) (config : Config) (proper : fs.root.IsProper)
    (proper' : fs'.root.IsProper) (adds : AddsFile root place content fs fs') {paths : List PathName}
    (files : ∀ path ∈ paths, path ∈ findSources root fs) :
    outputsAt parse config fs' paths = outputsAt parse config fs paths := by
  refine List.filterMap_congr fun path mem => ?_
  have listed := files path mem
  rw [findSources_eq] at listed
  obtain ⟨other, source, rfl⟩ := List.mem_map.mp listed
  obtain ⟨-, inside, held⟩ := (mem_sourcePlaces_iff proper).mp source
  have differs : other ≠ place := by
    rintro rfl
    rw [adds.absent] at held
    cases held
  have held' : contentAt? root other fs' = some inside := (adds.kept other differs).trans held
  rw [toOption_transformFile parse config proper held, toOption_transformFile parse config proper' held']

theorem transformDirectory_of_not_isSource (parse : Parser) (config : Config) (proper : fs.root.IsProper)
    (proper' : fs'.root.IsProper) (adds : AddsFile root place content fs fs')
    (ignored : ¬IsSource (rootName root) place) :
    transformDirectory parse config root fs' = transformDirectory parse config root fs := by
  rw [transformDirectory_eq, transformDirectory_eq, findSources_of_not_isSource proper proper' adds ignored]
  exact outputsAt_of_addsFile parse config proper proper' adds fun _ mem => mem

/-- The output for a source comes at the place of its path, if there is one. -/
theorem transformDirectory_of_isSource (parse : Parser) (config : Config) (proper : fs.root.IsProper)
    (proper' : fs'.root.IsProper) (adds : AddsFile root place content fs fs')
    {before after : List PathName} (split : findSources root fs = before ++ after)
    (split' : findSources root fs' = before ++ root.join place :: after) :
    transformDirectory parse config root fs = outputsAt parse config fs before ++ outputsAt parse config fs after ∧
    transformDirectory parse config root fs' = outputsAt parse config fs before ++
      ((outputFor? parse config (root.join place).shown content).toList ++ outputsAt parse config fs after) := by
  have files_before : ∀ path ∈ before, path ∈ findSources root fs := by
    rw [split]
    exact fun _ => List.mem_append_left after
  have files_after : ∀ path ∈ after, path ∈ findSources root fs := by
    rw [split]
    exact fun _ => List.mem_append_right before
  have alone : outputsAt parse config fs' [root.join place] =
      (outputFor? parse config (root.join place).shown content).toList := by
    rw [outputsAt, List.filterMap_cons, toOption_transformFile parse config proper' adds.added]
    cases outputFor? parse config (root.join place).shown content <;> rfl
  constructor
  · rw [transformDirectory_eq, split, outputsAt_append]
  · rw [transformDirectory_eq, split', outputsAt_append, ← List.singleton_append, outputsAt_append, alone,
      outputsAt_of_addsFile parse config proper proper' adds files_before,
      outputsAt_of_addsFile parse config proper proper' adds files_after]

end

/-- What a new file changes.  If it is no source below the root, or its bytes are no text, or its text cannot be parsed,
there is nothing new.  Otherwise there is one output more.  It stands where the path of the file comes in the order of
the paths, and it is the one for the file in any file system in which the place has the same content. -/
theorem transformDirectory_of_addsFile (parse : Parser) (config : Config) {root : PathName} {place : List Name}
    {content : ByteArray} {fs fs' : FileSystem} (proper : fs.root.IsProper) (proper' : fs'.root.IsProper)
    (adds : AddsFile root place content fs fs') :
    let path := root.join place
    ((¬IsSource (rootName root) place ∨ String.fromUTF8? content = none ∨
        ∃ text, String.fromUTF8? content = some text ∧ parse (allowsMarkup path.shown) text = none) →
      transformDirectory parse config root fs' = transformDirectory parse config root fs) ∧
    (∀ text p, IsSource (rootName root) place → String.fromUTF8? content = some text →
      parse (allowsMarkup path.shown) text = some p →
      ∃ output before after,
        (∀ alone : FileSystem, alone.root.IsProper → contentAt? root place alone = some content →
          transformFile parse config path alone = .ok output) ∧
        output.filePath = path.shown ∧
        findSources root fs = before ++ after ∧
        findSources root fs' = before ++ path :: after ∧
        (∀ other ∈ before, other.Precedes path) ∧
        (∀ other ∈ after, path.Precedes other) ∧
        transformDirectory parse config root fs = outputsAt parse config fs before ++ outputsAt parse config fs after ∧
        transformDirectory parse config root fs' =
          outputsAt parse config fs before ++ output :: outputsAt parse config fs after) := by
  intro path
  constructor
  · intro nothing
    by_cases source : IsSource (rootName root) place
    · have none_made : outputFor? parse config path.shown content = none := by
        rcases nothing with ignored | undecoded | ⟨text, decoded, unparsed⟩
        · exact absurd source ignored
        · rw [outputFor?, undecoded, Option.bind_none]
        · rw [outputFor?, decoded, Option.bind_some, unparsed, Option.map_none]
      obtain ⟨before, after, split, split', -, -⟩ := findSources_of_addsFile proper proper' adds source
      obtain ⟨outputs, outputs'⟩ := transformDirectory_of_isSource parse config proper proper' adds split split'
      rw [outputs, outputs', none_made]
      rfl
    · exact transformDirectory_of_not_isSource parse config proper proper' adds source
  · intro text p source decoded parsed
    have made : outputFor? parse config path.shown content = some (p.output config path.shown text) := by
      rw [outputFor?, decoded, Option.bind_some, parsed, Option.map_some]
    obtain ⟨before, after, split, split', earlier, later⟩ := findSources_of_addsFile proper proper' adds source
    obtain ⟨outputs, outputs'⟩ := transformDirectory_of_isSource parse config proper proper' adds split split'
    rw [made] at outputs'
    refine ⟨_, before, after, fun alone properAlone held => ?_, rfl, split, split', earlier, later, outputs, outputs'⟩
    have gives := toOption_transformFile parse config properAlone held
    rw [made] at gives
    cases run : transformFile parse config (root.join place) alone with
    | ok output =>
      rw [run] at gives
      exact congrArg Except.ok (Option.some.inj gives)
    | error failure =>
      rw [run] at gives
      cases gives

/-- A parser that knows the empty module only. -/
def parseEmpty : Parser :=
  fun _ text => if text = "" then some { statements := [] } else none

/-- An empty source comes in addition, a file of another kind does not, however the root is written. -/
theorem transformDirectory_of_addsFile_mixedRoots :
    let other := mixedSystem.insertFile ["home", "src", "notes.md"] ⟨#[]⟩
    let more := mixedSystem.insertFile ["home", "src", "b.ts"] ⟨#[]⟩
    mixedSystem.root.IsProper ∧ other.root.IsProper ∧ more.root.IsProper ∧
    ∀ root ∈ mixedRoots,
      AddsFile root ["notes.md"] ⟨#[]⟩ mixedSystem other ∧ AddsFile root ["b.ts"] ⟨#[]⟩ mixedSystem more ∧
      transformDirectory parseEmpty {} root other = transformDirectory parseEmpty {} root mixedSystem ∧
      ∃ output before after, output.filePath = (root.join ["b.ts"]).shown ∧
        transformDirectory parseEmpty {} root mixedSystem = before ++ after ∧
        transformDirectory parseEmpty {} root more = before ++ output :: after := by
  intro other more
  have proper : other.root.IsProper := isProper_mixedSystem.insertFile (by decide) _
  have proper' : more.root.IsProper := isProper_mixedSystem.insertFile (by decide) _
  have roots : ∀ root ∈ mixedRoots, mixedSystem.place root = (["home", "src"] : List Name) ∧
      contentAt? root ["a-b.ts"] mixedSystem = some ⟨#[]⟩ ∧ ¬IsSource (rootName root) ["notes.md"] ∧
      IsSource (rootName root) ["b.ts"] := by
    decide
  refine ⟨isProper_mixedSystem, proper, proper', fun root written => ?_⟩
  obtain ⟨place, held, ignored, source⟩ := roots root written
  obtain ⟨found, leads, -⟩ := resolve_of_contentAt? held
  have adds : AddsFile root ["notes.md"] ⟨#[]⟩ mixedSystem other :=
    addsFile_of_insertFile leads (by rw [place]; rfl) (by trivial) _
  have adds' : AddsFile root ["b.ts"] ⟨#[]⟩ mixedSystem more :=
    addsFile_of_insertFile leads (by rw [place]; rfl) (by trivial) _
  refine ⟨adds, adds', ?_, ?_⟩
  · exact (transformDirectory_of_addsFile parseEmpty {} isProper_mixedSystem proper adds).1 (.inl ignored)
  · obtain ⟨output, before, after, -, path, -, -, -, -, outputs, outputs'⟩ :=
      (transformDirectory_of_addsFile parseEmpty {} isProper_mixedSystem proper' adds').2 "" { statements := [] }
        source (by decide) rfl
    exact ⟨output, _, _, path, outputs, outputs'⟩

/-- A new file in a directory of installed packages is not always without an effect.  It has an output where the path of
the root leads to that directory but does not end in its name. -/
theorem transformDirectory_packagesSystem_ne :
    let root : PathName := "node_modules/lib/.."
    let more := packagesSystem.insertFile ["home", "node_modules", "c.ts"] ⟨#[]⟩
    packagesSystem.root.IsProper ∧ more.root.IsProper ∧
    packagesSystem.resolve root = packagesSystem.resolve "node_modules" ∧
    AddsFile root ["c.ts"] ⟨#[]⟩ packagesSystem more ∧
    transformDirectory parseEmpty {} root more ≠ transformDirectory parseEmpty {} root packagesSystem := by
  intro root more
  have proper := isProper_packagesSystem
  have proper' : more.root.IsProper := proper.insertFile (by decide) _
  have held : contentAt? root ["a.ts"] packagesSystem = some ⟨#[]⟩ := by decide
  obtain ⟨found, leads, -⟩ := resolve_of_contentAt? held
  have adds : AddsFile root ["c.ts"] ⟨#[]⟩ packagesSystem more :=
    addsFile_of_insertFile leads (by decide) (by trivial) _
  refine ⟨proper, proper', rfl, adds, fun same => ?_⟩
  obtain ⟨before, after, split, split', -, -⟩ := findSources_of_addsFile proper proper' adds (by decide)
  obtain ⟨outputs, outputs'⟩ := transformDirectory_of_isSource parseEmpty {} proper proper' adds split split'
  obtain ⟨output, made⟩ : ∃ output, outputFor? parseEmpty {} (root.join ["c.ts"]).shown ⟨#[]⟩ = some output := ⟨_, rfl⟩
  rw [outputs, outputs', made] at same
  have lengths := congrArg List.length same
  simp at lengths

end ComponentHoist

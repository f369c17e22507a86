import ComponentHoist.Discovery
import ComponentHoist.Proofs.FileName
import ComponentHoist.Proofs.FileTree
import Mathlib.Data.List.Sort

/-!
# ComponentHoist.Proofs.Discovery — which sources are found, and in which order

* `IsSourceName`, `IsSource`: which names sources have, and which places below a root are looked at.
* `FileTree.mem_sources_iff`, `FileTree.nodup_sources`: a walk through a tree lists the sources in it, each one once.
* `findSources_exact`: what is found below a root is exactly the sources there, in the order of their paths.
-/

namespace ComponentHoist

/-! ### Names of sources -/

/-- Whether the name has the extension: it follows the last dot, and the name does not begin with that dot. -/
def HasExtension (name extension : Name) : Prop :=
  ∃ base, base ≠ [] ∧ name = base ++ FileName.dotByte :: extension ∧ FileName.dotByte ∉ extension

/-- Whether a file of the name is a source of components. -/
structure IsSourceName (name : Name) : Prop where
  isText : ∃ text, name = Text.utf8 text
  notDeclaration : ¬Text.utf8 ".d.ts" <:+ name
  extension : HasExtension name "ts" ∨ HasExtension name "tsx"

theorem hasExtension_iff {name extension : Name} (nonempty : extension ≠ []) :
    HasExtension name extension ↔ FileName.extension? name = some extension :=
  (FileName.snd_split_eq_some_iff nonempty).symm

theorem isSourceName_iff {name : Name} : isSourceName name = true ↔ IsSourceName name := by
  have decided : isSourceName name = true ↔ (Text.ofUtf8? name).isSome ∧ ¬Text.utf8 ".d.ts" <:+ name ∧
      (FileName.extension? name = some (Text.utf8 "ts") ∨ FileName.extension? name = some (Text.utf8 "tsx")) := by
    rw [← List.isSuffixOf_iff_suffix, Bool.not_eq_true]
    simp [isSourceName, and_assoc]
  rw [decided, ← hasExtension_iff (by decide), ← hasExtension_iff (by decide), Option.isSome_iff_exists]
  simp only [Text.ofUtf8?_eq_some_iff]
  exact ⟨fun ⟨text, plain, extension⟩ => ⟨text, plain, extension⟩,
    fun ⟨text, plain, extension⟩ => ⟨text, plain, extension⟩⟩

/-! ### Sources in a tree -/

/-- Whether the place below a root of the given name is one of a source: no directory on the way to it, the root
included, is one of installed packages, and it has the name of a source. -/
structure IsSource (root : Name) (place : List Name) : Prop where
  entered : packagesDirectory ∉ (root :: place).dropLast
  named : IsSourceName ((root :: place).getLast (List.cons_ne_nil root place))

theorem isSource_nil {root : Name} : IsSource root [] ↔ isSourceName root = true := by
  rw [isSourceName_iff]
  exact ⟨fun source => source.named, fun named => ⟨List.not_mem_nil, named⟩⟩

theorem isSource_cons {root name : Name} {place : List Name} :
    IsSource root (name :: place) ↔ root ≠ packagesDirectory ∧ IsSource name place := by
  have ways : packagesDirectory ∉ (root :: name :: place).dropLast ↔
      root ≠ packagesDirectory ∧ packagesDirectory ∉ (name :: place).dropLast := by
    rw [List.dropLast_cons_cons, List.mem_cons, not_or, ne_comm]
  constructor
  · rintro ⟨entered, named⟩
    obtain ⟨other, entered⟩ := ways.mp entered
    exact ⟨other, entered, named⟩
  · rintro ⟨other, entered, named⟩
    exact ⟨ways.mpr ⟨other, entered⟩, named⟩

instance decidableIsSource (root : Name) : (place : List Name) → Decidable (IsSource root place)
  | [] => decidable_of_iff _ isSource_nil.symm
  | name :: place =>
    have := decidableIsSource name place
    decidable_of_iff _ isSource_cons.symm

namespace FileTree

variable {t : FileTree} {name : Name} {place : List Name} {entries : List (Name × FileTree)}

theorem entrySources_eq_flatMap (entries : List (Name × FileTree)) :
    entrySources entries = entries.flatMap fun entry => (sources entry.1 entry.2).map (entry.1 :: ·) := by
  induction entries with
  | nil => rfl
  | cons entry rest ih => rw [entrySources, ih, List.flatMap_cons]

theorem nil_notMem_entrySources : [] ∉ entrySources entries := by
  intro mem
  rw [entrySources_eq_flatMap, List.mem_flatMap] at mem
  obtain ⟨entry, -, mem⟩ := mem
  obtain ⟨below, -, same⟩ := List.mem_map.mp mem
  cases same

theorem cons_mem_entrySources (nodup : (entries.map Prod.fst).Nodup) :
    name :: place ∈ entrySources entries ↔ ∃ t, entries.lookup name = some t ∧ place ∈ t.sources name := by
  simp only [entrySources_eq_flatMap, List.mem_flatMap, List.mem_map, lookup_eq_some_iff_mem nodup]
  constructor
  · rintro ⟨⟨name, t⟩, mem, place, source, ⟨⟩⟩
    exact ⟨t, mem, source⟩
  · rintro ⟨t, mem, source⟩
    exact ⟨(name, t), mem, place, source, rfl⟩

/-- The walk lists the places of the files that are sources. -/
theorem mem_sources_iff (proper : t.IsProper) :
    place ∈ t.sources name ↔ IsSource name place ∧ ∃ content, t.content? place = some content := by
  induction proper generalizing name place with
  | file content =>
    rw [sources]
    cases place with
    | nil =>
      rw [isSource_nil]
      split_ifs with named
      · exact ⟨fun _ => ⟨named, content, rfl⟩, fun _ => List.mem_singleton_self []⟩
      · exact ⟨fun mem => absurd mem List.not_mem_nil, fun source => absurd source.1 named⟩
    | cons first rest =>
      have elsewhere : first :: rest ∉ if isSourceName name then [[]] else [] := by
        split_ifs <;> simp
      exact ⟨fun mem => absurd mem elsewhere, fun ⟨_, _, missing⟩ => nomatch missing⟩
  | directory nodup names below ih =>
    rename_i entries
    rw [sources]
    cases place with
    | nil =>
      have elsewhere : [] ∉ if name = packagesDirectory then [] else entrySources entries := by
        split_ifs
        · exact List.not_mem_nil
        · exact nil_notMem_entrySources
      exact ⟨fun mem => absurd mem elsewhere, fun ⟨_, _, missing⟩ => nomatch missing⟩
    | cons first rest =>
      rw [isSource_cons, content?_cons_directory]
      split_ifs with packages
      · exact ⟨fun mem => absurd mem List.not_mem_nil, fun source => absurd packages source.1.1⟩
      · rw [cons_mem_entrySources nodup]
        constructor
        · rintro ⟨t, listed, mem⟩
          obtain ⟨source, content, found⟩ := (ih _ (mem_of_lookup listed)).mp mem
          exact ⟨⟨packages, source⟩, content, by rw [listed, Option.bind_some, found]⟩
        · rintro ⟨⟨-, source⟩, content, found⟩
          obtain ⟨t, listed, found⟩ := Option.bind_eq_some_iff.mp found
          exact ⟨t, listed, (ih _ (mem_of_lookup listed)).mpr ⟨source, content, found⟩⟩

/-- The walk lists no place twice. -/
theorem nodup_sources (proper : t.IsProper) (name : Name) : (t.sources name).Nodup := by
  induction proper generalizing name with
  | file content =>
    rw [sources]
    split_ifs
    · exact List.nodup_singleton []
    · exact List.nodup_nil
  | directory nodup names below ih =>
    rw [sources]
    split_ifs
    · exact List.nodup_nil
    · rw [entrySources_eq_flatMap, List.nodup_flatMap]
      constructor
      · intro entry mem
        exact (ih entry mem entry.1).map List.cons_injective
      · -- The places in two entries differ in their first names.
        refine (List.pairwise_map.mp nodup).imp fun {entry entry'} differ place mem mem' => differ ?_
        obtain ⟨below, -, rfl⟩ := List.mem_map.mp mem
        obtain ⟨below', -, same⟩ := List.mem_map.mp mem'
        exact (List.cons.inj same).1.symm

end FileTree

/-! ### What is found below a root -/

/-- What is in the file at a place below a root, if there is one. -/
def contentAt? (root : PathName) (place : List Name) (fs : FileSystem) : Option ByteArray :=
  match fs.resolve root with
  | .ok found => found.content? place
  | .error _ => none

/-- The places of the sources below a root, in their order. -/
def sourcePlaces (root : PathName) (fs : FileSystem) : List (List Name) :=
  match fs.resolve root with
  | .ok found => (found.sources (rootName root)).mergeSort fun a b => !decide (b < a)
  | .error _ => []

theorem findSources_eq (root : PathName) (fs : FileSystem) :
    findSources root fs = (sourcePlaces root fs).map root.join := by
  rw [findSources, sourcePlaces]
  cases fs.resolve root <;> rfl

section

variable {root : PathName} {fs : FileSystem} {place : List Name} {content : ByteArray}

theorem resolve_of_contentAt? (held : contentAt? root place fs = some content) :
    ∃ found, fs.resolve root = .ok found ∧ found.content? place = some content := by
  rw [contentAt?] at held
  cases leads : fs.resolve root with
  | ok found =>
    rw [leads] at held
    exact ⟨found, rfl, held⟩
  | error failure =>
    rw [leads] at held
    cases held

theorem isName_of_contentAt? (proper : fs.root.IsProper) (held : contentAt? root place fs = some content) :
    ∀ name ∈ place, PathName.IsName name := by
  obtain ⟨found, leads, held⟩ := resolve_of_contentAt? held
  exact (FileSystem.isProper_of_resolve proper leads).isName_of_entryAt? (FileTree.content?_eq_some_iff.mp held)

theorem bytes_ne_nil_of_contentAt? (held : contentAt? root place fs = some content) : root.bytes ≠ [] := by
  obtain ⟨found, leads, -⟩ := resolve_of_contentAt? held
  exact FileSystem.bytes_ne_nil_of_resolve leads

/-- The path of a place leads to the file there. -/
theorem resolve_join_of_contentAt? (proper : fs.root.IsProper) (held : contentAt? root place fs = some content) :
    fs.resolve (root.join place) = .ok (.file content) := by
  have names := isName_of_contentAt? proper held
  obtain ⟨found, leads, held⟩ := resolve_of_contentAt? held
  exact FileSystem.resolve_join leads names (FileTree.content?_eq_some_iff.mp held)

theorem lt_or_eq_of_not_lt {place place' : List Name} (notLess : ¬place' < place) :
    place < place' ∨ place = place' := by
  by_cases less : place < place'
  · exact .inl less
  · exact .inr (List.le_antisymm notLess less)

/-- Sorting puts different places in their strict order. -/
theorem pairwise_lt_mergeSort {places : List (List Name)} (nodup : places.Nodup) :
    (places.mergeSort fun a b => !decide (b < a)).Pairwise (· < ·) := by
  have sorted : (places.mergeSort fun a b => !decide (b < a)).Pairwise fun a b => !decide (b < a) := by
    refine List.pairwise_mergeSort ?_ ?_ places
    · intro a b c
      simp only [Bool.not_eq_true', decide_eq_false_iff_not]
      intro ab bc
      rcases lt_or_eq_of_not_lt ab with ab | rfl
      · rcases lt_or_eq_of_not_lt bc with bc | rfl
        · exact List.lt_asymm (List.lt_trans ab bc)
        · exact List.lt_asymm ab
      · exact bc
    · intro a b
      by_cases less : b < a
      · simp [List.lt_asymm less]
      · simp [less]
  have distinct : (places.mergeSort fun a b => !decide (b < a)).Nodup := (List.mergeSort_perm _ _).nodup_iff.mpr nodup
  refine (sorted.and distinct).imp fun {a b} ⟨notLess, differ⟩ => ?_
  exact (lt_or_eq_of_not_lt (by simpa using notLess)).resolve_right differ

/-- The places of the sources are those of the files with the right names. -/
theorem mem_sourcePlaces_iff (proper : fs.root.IsProper) :
    place ∈ sourcePlaces root fs ↔
      IsSource (rootName root) place ∧ ∃ content, contentAt? root place fs = some content := by
  rw [sourcePlaces, contentAt?]
  cases leads : fs.resolve root with
  | ok found =>
    rw [List.mem_mergeSort]
    exact FileTree.mem_sources_iff (FileSystem.isProper_of_resolve proper leads)
  | error failure => simp

/-- They are in order. -/
theorem pairwise_sourcePlaces (proper : fs.root.IsProper) (root : PathName) :
    (sourcePlaces root fs).Pairwise (· < ·) := by
  rw [sourcePlaces]
  cases leads : fs.resolve root with
  | ok found => exact pairwise_lt_mergeSort (FileTree.nodup_sources (FileSystem.isProper_of_resolve proper leads) _)
  | error failure => exact .nil

/-- So their paths are in order, too. -/
theorem pairwise_precedes_sourcePlaces (proper : fs.root.IsProper) (root : PathName) :
    (sourcePlaces root fs).Pairwise fun place later =>
      PathName.Precedes (root.join place) (root.join later) := by
  refine (pairwise_sourcePlaces proper root).imp_of_mem fun {place later} mem mem' less => ?_
  obtain ⟨-, content, held⟩ := (mem_sourcePlaces_iff proper).mp mem
  obtain ⟨-, content', held'⟩ := (mem_sourcePlaces_iff proper).mp mem'
  exact PathName.precedes_join (bytes_ne_nil_of_contentAt? held) (isName_of_contentAt? proper held)
    (isName_of_contentAt? proper held') less

theorem join_injOn_files (proper : fs.root.IsProper) {place' : List Name} {content' : ByteArray}
    (held : contentAt? root place fs = some content) (held' : contentAt? root place' fs = some content')
    (same : root.join place = root.join place') : place = place' :=
  PathName.join_injOn (bytes_ne_nil_of_contentAt? held) (isName_of_contentAt? proper held)
    (isName_of_contentAt? proper held') same

theorem nodup_findSources (proper : fs.root.IsProper) (root : PathName) : (findSources root fs).Nodup := by
  rw [findSources_eq]
  refine List.Nodup.map_on ?_ (pairwise_sourcePlaces proper root).nodup
  intro place mem place' mem' same
  obtain ⟨-, content, held⟩ := (mem_sourcePlaces_iff proper).mp mem
  obtain ⟨-, content', held'⟩ := (mem_sourcePlaces_iff proper).mp mem'
  exact join_injOn_files proper held held' same

/-- The path of a file is found if the file is a source. -/
theorem join_mem_findSources_iff (proper : fs.root.IsProper) (held : contentAt? root place fs = some content) :
    root.join place ∈ findSources root fs ↔ IsSource (rootName root) place := by
  rw [findSources_eq, List.mem_map]
  constructor
  · rintro ⟨place', mem, same⟩
    obtain ⟨source, content', held'⟩ := (mem_sourcePlaces_iff proper).mp mem
    rwa [join_injOn_files proper held held' same.symm]
  · intro source
    exact ⟨place, (mem_sourcePlaces_iff proper).mpr ⟨source, content, held⟩, rfl⟩

end

/-- What is found at and below a root.  A root that is missing has nothing.  A file is found once if it is a source,
and else not at all.  Each path that is found is that of one file, and the paths are in their strict order. -/
theorem findSources_exact {fs : FileSystem} (proper : fs.root.IsProper) (root : PathName) :
    (∀ failure, fs.resolve root = .error failure → findSources root fs = []) ∧
    (∀ place content, contentAt? root place fs = some content →
      (IsSource (rootName root) place → (findSources root fs).count (root.join place) = 1) ∧
      (¬IsSource (rootName root) place → root.join place ∉ findSources root fs)) ∧
    (∀ path ∈ findSources root fs, ∃! place, path = root.join place ∧
      ∃ content, contentAt? root place fs = some content ∧ fs.resolve path = .ok (.file content)) ∧
    (findSources root fs).Pairwise PathName.Precedes := by
  refine ⟨?_, ?_, ?_, ?_⟩
  · intro failure missing
    rw [findSources, missing]
  · intro place content held
    rw [← join_mem_findSources_iff proper held]
    exact ⟨List.count_eq_one_of_mem (nodup_findSources proper root), id⟩
  · intro path mem
    rw [findSources_eq] at mem
    obtain ⟨place, source, rfl⟩ := List.mem_map.mp mem
    obtain ⟨-, content, held⟩ := (mem_sourcePlaces_iff proper).mp source
    refine ⟨place, ⟨rfl, content, held, resolve_join_of_contentAt? proper held⟩, ?_⟩
    rintro place' ⟨same, content', held', -⟩
    exact (join_injOn_files proper held held' same).symm
  · rw [findSources_eq, List.pairwise_map]
    exact pairwise_precedes_sourcePlaces proper root

/-! ### File systems of empty files -/

/-- A file system with empty files at the places, in which the directory `home` is worked in. -/
def FileSystem.ofPlaces (places : List (List Name)) : FileSystem where
  root := places.foldl (fun t place => t.insertFile place ⟨#[]⟩) ∅
  working := ["home"]

theorem isProper_ofPlaces {places : List (List Name)} (names : ∀ place ∈ places, ∀ name ∈ place, PathName.IsName name) :
    (FileSystem.ofPlaces places).root.IsProper :=
  List.foldlRecOn places _ FileTree.isProper_empty fun _ proper place mem => proper.insertFile (names place mem) _

/-- A name that ends as that of a source does, but is no text. -/
def oddName : Name :=
  [0xFF, 0x2E, 0x74, 0x73]

/-- The places of files whose names would do for directories, and of some below directories whose names would do for
files or are no texts. -/
def mixedPlaces : List (List Name) :=
  [["home", "src", "a-b.ts"], ["home", "src", "a", "z.ts"], ["home", "src", ".ts"], ["home", "src", "x.d.ts"],
    ["home", "src", "a.d.tsx"], ["home", "src", "x.ts", "in.tsx"], ["home", "src", "lib", "node_modules"],
    ["home", "src", "node_modules", "dep.ts"], ["home", "src", oddName], ["home", "src", [0xFF], "in.ts"]]

/-- A file system of files at these places. -/
def mixedSystem : FileSystem :=
  .ofPlaces mixedPlaces

theorem isProper_mixedSystem : mixedSystem.root.IsProper :=
  isProper_ofPlaces (by decide)

/-- Paths of one directory in it. -/
def mixedRoots : List PathName :=
  ["src", "/home/src", "src/lib/..", "/../home//src/"]

/-- The whole names count, those of files differently from those of directories, and however the root is written. -/
theorem findSources_exact_mixedSystem :
    mixedSystem.root.IsProper ∧
    (∀ root ∈ mixedRoots, ∀ place ∈ ([["a-b.ts"], ["a", "z.ts"], ["a.d.tsx"], ["x.ts", "in.tsx"], [[0xFF], "in.ts"]] :
      List (List Name)), (findSources root mixedSystem).count (root.join place) = 1) ∧
    (∀ root ∈ mixedRoots, ∀ place ∈ ([[".ts"], ["x.d.ts"], ["lib", "node_modules"], ["node_modules", "dep.ts"],
      [oddName]] : List (List Name)), root.join place ∉ findSources root mixedSystem) ∧
    findSources "/src" mixedSystem = [] := by
  have held : ∀ root ∈ mixedRoots, ∀ place ∈ mixedPlaces.map (List.drop 2),
      contentAt? root place mixedSystem = some ⟨#[]⟩ := by
    decide
  refine ⟨isProper_mixedSystem, ?_, ?_, (findSources_exact isProper_mixedSystem "/src").1 .missing rfl⟩
  · have sources : ∀ root ∈ mixedRoots, ∀ place ∈ ([["a-b.ts"], ["a", "z.ts"], ["a.d.tsx"], ["x.ts", "in.tsx"],
        [[0xFF], "in.ts"]] : List (List Name)),
        place ∈ mixedPlaces.map (List.drop 2) ∧ IsSource (rootName root) place := by
      decide
    intro root written place mem
    obtain ⟨file, source⟩ := sources root written place mem
    exact ((findSources_exact isProper_mixedSystem root).2.1 place _ (held root written place file)).1 source
  · have others : ∀ root ∈ mixedRoots, ∀ place ∈ ([[".ts"], ["x.d.ts"], ["lib", "node_modules"],
        ["node_modules", "dep.ts"], [oddName]] : List (List Name)),
        place ∈ mixedPlaces.map (List.drop 2) ∧ ¬IsSource (rootName root) place := by
      decide
    intro root written place mem
    obtain ⟨file, other⟩ := others root written place mem
    exact ((findSources_exact isProper_mixedSystem root).2.1 place _ (held root written place file)).2 other

/-- A file system with a file in the working directory whose name is no text, and with installed packages. -/
def packagesSystem : FileSystem :=
  .ofPlaces [["home", oddName], ["home", "node_modules", "a.ts"], ["home", "node_modules", "lib", "b.ts"]]

theorem isProper_packagesSystem : packagesSystem.root.IsProper :=
  isProper_ofPlaces (by decide)

/-- The extension of a file and the names of the directories above it do not decide.  A file is not found if its name is
no text, and a directory of installed packages is entered where the path of the root does not end in its name. -/
theorem mem_findSources_packagesSystem :
    packagesSystem.root.IsProper ∧
    (contentAt? "." [oddName] packagesSystem = some ⟨#[]⟩ ∧ HasExtension oddName "ts" ∧
      ¬Text.utf8 ".d.ts" <:+ oddName ∧ PathName.join "." [oddName] ∉ findSources "." packagesSystem) ∧
    (contentAt? "node_modules/lib/.." ["a.ts"] packagesSystem = some ⟨#[]⟩ ∧
      packagesSystem.resolve "node_modules/lib/.." = packagesSystem.resolve "node_modules" ∧
      PathName.join "node_modules/lib/.." ["a.ts"] ∈ findSources "node_modules/lib/.." packagesSystem) := by
  have proper := isProper_packagesSystem
  have odd : contentAt? "." [oddName] packagesSystem = some ⟨#[]⟩ := by decide
  have package : contentAt? "node_modules/lib/.." ["a.ts"] packagesSystem = some ⟨#[]⟩ := by decide
  refine ⟨proper, ⟨odd, (hasExtension_iff (by decide)).mpr (by decide), by decide, ?_⟩, package, rfl, ?_⟩
  · rw [join_mem_findSources_iff proper odd]
    decide
  · rw [join_mem_findSources_iff proper package]
    decide

end ComponentHoist

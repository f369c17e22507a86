import ComponentHoist.Proofs.PathsByMode
import ComponentHoist.Proofs.SheetPath

/-!
# ComponentHoist.Proofs.CompiledTwice — sheets that are compiled again

* `Style.NamesFile`: paths that do not end where a name should begin.
* `Style.compiledPath_twice_iff`: those are the sources whose sheets are compiled to themselves.
* `Style.compiledPath_eq_self_iff`: which paths are sheets already.
* `ModeMap.mapPaths_eq_iff`: when two functions make the same of all paths of a map.
* `ModeMap.compiled_stable`: which maps are the same when they are compiled twice.
-/

namespace ComponentHoist
namespace Style

variable {path : String} {directory name stem : List Char}

/-! ### One path -/

/-- Whether the path is not empty and does not end in a separator. -/
def NamesFile (path : String) : Prop :=
  path ≠ "" ∧ path.toList.getLast? ≠ some '/' ∧ path.toList.getLast? ≠ some '\\'

theorem namesFile_iff : NamesFile path ↔ path ≠ "" ∧ ∀ c ∈ path.toList.getLast?, isSeparator c = false := by
  have plain (c : Char) : isSeparator c = false ↔ c ≠ '/' ∧ c ≠ '\\' := by
    rw [← Bool.not_eq_true, isSeparator_iff, not_or]
  simp only [NamesFile, plain]
  cases path.toList.getLast? <;> simp

/-- A path names a file if the name in its directory is not empty. -/
theorem Divides.namesFile_iff (divides : Divides path.toList directory name) : NamesFile path ↔ name ≠ [] := by
  rw [Style.namesFile_iff]
  constructor
  · rintro ⟨nonempty, last⟩ nothing
    have whole : path.toList = directory := by rw [divides.whole, nothing, List.append_nil]
    cases found : directory.getLast? with
    | none =>
      rw [List.getLast?_eq_none_iff.mp found] at whole
      exact nonempty (String.toList_eq_nil_iff.mp whole)
    | some c =>
      have separator : isSeparator c = true := divides.closed c found
      rw [last c (whole ▸ found)] at separator
      cases separator
  · intro given
    refine ⟨?_, fun c h => ?_⟩
    · rintro rfl
      exact given (List.append_eq_nil_iff.mp divides.whole.symm).2
    · rw [divides.whole, List.getLast?_append_of_ne_nil directory given] at h
      exact divides.plain c (List.mem_of_getLast? h)

theorem LiesAt.namesFile_iff (lies : LiesAt path directory stem) : NamesFile path ↔ stem ≠ [] := by
  obtain ⟨name, divides, has⟩ := lies
  rw [divides.namesFile_iff]
  exact has.eq_nil_iff.not.symm

/-- The name of a sheet is taken apart where it has been put together, unless there is nothing before the extension. -/
theorem base_sheet (given : stem ≠ []) : FileName.base (stem ++ ".css".toList) = stem :=
  FileName.base_append_extension given (by decide) (by decide)

/-- The sheet of a source is compiled to itself if and only if the source names a file.  The sheet of any other source
has a name that begins with its only dot, and that is its base name as a whole. -/
theorem compiledPath_twice_iff : compiledPath (compiledPath path) = compiledPath path ↔ NamesFile path := by
  obtain ⟨directory, stem, lies⟩ := exists_liesAt path
  rw [lies.namesFile_iff, ← String.toList_inj, lies.compiled.compiled.whole, lies.compiled.whole,
    List.append_cancel_left_eq, List.append_cancel_right_eq]
  constructor
  · intro same nothing
    rw [nothing] at same
    exact absurd same (by decide)
  · exact base_sheet

/-- A path is that of its own sheet if and only if its name has the extension of a sheet and something before it. -/
theorem compiledPath_eq_self_iff :
    compiledPath path = path ↔
      ∃ directory stem, stem ≠ [] ∧ Divides path.toList directory (stem ++ ".css".toList) := by
  constructor
  · intro same
    obtain ⟨directory, stem, lies⟩ := exists_liesAt path
    have twice : compiledPath (compiledPath path) = compiledPath path := by rw [same, same]
    have given : stem ≠ [] := lies.namesFile_iff.mp (compiledPath_twice_iff.mp twice)
    have sheet := lies.compiled
    rw [same] at sheet
    exact ⟨directory, stem, given, sheet⟩
  · rintro ⟨directory, stem, given, divides⟩
    rw [← String.toList_inj, divides.compiled.whole, base_sheet given, divides.whole]

end Style

/-! ### All paths of a map -/

namespace ModeMap

theorem compiled_compiled (m : ModeMap) :
    m.compiled.compiled = m.mapPaths fun path => Style.compiledPath (Style.compiledPath path) := by
  simp [compiled, mapPaths, Function.comp_def]

/-- Two functions make the same of a map if they make the same of all its paths. -/
theorem mapPaths_eq_iff {m : ModeMap} {f g : String → String} :
    m.mapPaths f = m.mapPaths g ↔ ∀ path ∈ m.allPaths, f path = g path := by
  simp only [mapPaths, ModeMap.mk.injEq, List.map_inj_left, Prod.mk.injEq, true_and, allPaths, List.mem_flatMap]
  constructor
  · rintro same path ⟨entry, listed, mem⟩
    exact same entry listed path mem
  · intro same entry listed path mem
    exact same path ⟨entry, listed, mem⟩

/-- A sheet is compiled to itself if and only if the path of its source is not empty and does not end in a separator.
So compiling a map twice is the same as compiling it once exactly if all its paths name files.  A path stays as it is
from the beginning if its name has the extension of a sheet and something before it, and only then. -/
theorem compiled_stable :
    (∀ path, Style.compiledPath (Style.compiledPath path) = Style.compiledPath path ↔ Style.NamesFile path) ∧
      (∀ m : ModeMap, m.compiled.compiled = m.compiled ↔ ∀ path ∈ m.allPaths, Style.NamesFile path) ∧
      ∀ path, Style.compiledPath path = path ↔
        ∃ directory stem, stem ≠ [] ∧ Style.Divides path.toList directory (stem ++ ".css".toList) := by
  refine ⟨fun path => Style.compiledPath_twice_iff, fun m => ?_, fun path => Style.compiledPath_eq_self_iff⟩
  have once : m.compiled = m.mapPaths Style.compiledPath := rfl
  rw [compiled_compiled, once, mapPaths_eq_iff]
  exact forall₂_congr fun path _ => Style.compiledPath_twice_iff

end ModeMap
end ComponentHoist

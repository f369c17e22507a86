import ComponentHoist.Proofs.FileName
import ComponentHoist.Style.Path
import Mathlib.Logic.ExistsUnique

/-!
# ComponentHoist.Proofs.SheetPath — which sources are compiled to the same sheet

* `Style.Divides`: a path as that of a name in a directory.
* `Style.divides_iff`: each path is divided in one way.
* `Style.LiesAt`: the directory of a path and the base name in it.
* `Style.Divides.compiled`: the sheet lies in the directory of its source.
* `Style.compiledPath_eq_iff`: of a source its sheet keeps the directory and the base name, and nothing else.
-/

namespace ComponentHoist
namespace Style

variable {path path' : String} {chars directory directory' name name' stem stem' : List Char}

/-! ### Names in directories -/

/-- Whether the characters of a path are those of the name in the directory: the directory is empty or ends in a
separator, and there is no separator in the name. -/
structure Divides (chars directory name : List Char) : Prop where
  whole : chars = directory ++ name
  closed : ∀ c ∈ directory.getLast?, isSeparator c = true
  plain : ∀ c ∈ name, isSeparator c = false

theorem isSeparator_iff {c : Char} : isSeparator c = true ↔ c = '/' ∨ c = '\\' := by
  simp [isSeparator]

theorem splitDirectory_cons (c : Char) (cs : List Char) :
    splitDirectory (c :: cs) =
      if (splitDirectory cs).1 = [] ∧ isSeparator c = false then ([], c :: (splitDirectory cs).2)
      else (c :: (splitDirectory cs).1, (splitDirectory cs).2) := by
  rw [splitDirectory]
  obtain ⟨directory, name⟩ := splitDirectory cs
  cases directory with
  | nil => cases isSeparator c <;> rfl
  | cons d ds => rfl

/-- A character in front belongs to the name if that has begun with the path and the character is no separator, and else
to the directory. -/
theorem Divides.cons (divides : Divides chars directory name) (c : Char) :
    if directory = [] ∧ isSeparator c = false then Divides (c :: chars) [] (c :: name)
    else Divides (c :: chars) (c :: directory) name := by
  by_cases inName : directory = [] ∧ isSeparator c = false
  · obtain ⟨rfl, plain⟩ := inName
    rw [if_pos ⟨rfl, plain⟩]
    exact
      { whole := congrArg (c :: ·) divides.whole
        closed := divides.closed
        plain := List.forall_mem_cons.mpr ⟨plain, divides.plain⟩ }
  · rw [if_neg inName]
    refine { whole := congrArg (c :: ·) divides.whole, closed := ?_, plain := divides.plain }
    cases directory with
    | nil =>
      have separator : isSeparator c = true := by
        rw [← Bool.not_eq_false]
        exact fun plain => inName ⟨rfl, plain⟩
      rintro last ⟨⟩
      exact separator
    | cons d ds =>
      rw [List.getLast?_cons_cons]
      exact divides.closed

theorem divides_splitDirectory (chars : List Char) :
    Divides chars (splitDirectory chars).1 (splitDirectory chars).2 := by
  induction chars with
  | nil =>
    exact
      { whole := rfl
        closed := fun _ h => absurd h (Option.not_mem_none _)
        plain := fun _ h => absurd h List.not_mem_nil }
  | cons c cs ih =>
    have longer := ih.cons c
    rw [splitDirectory_cons]
    split_ifs at longer ⊢ with inName
    · exact longer
    · exact longer

/-- What ends in a separator is not continued by plain characters. -/
theorem eq_nil_of_closed {front more : List Char} (closed : ∀ c ∈ (front ++ more).getLast?, isSeparator c = true)
    (plain : ∀ c ∈ more, isSeparator c = false) : more = [] := by
  by_contra nonempty
  have last : more.getLast nonempty ∈ (front ++ more).getLast? := by
    rw [List.getLast?_append_of_ne_nil front nonempty, List.getLast?_eq_some_getLast nonempty]
    exact Option.mem_some_self _
  have separator := closed _ last
  rw [plain _ (List.getLast_mem nonempty)] at separator
  cases separator

/-- The directory of a path holds all that can be taken for one. -/
theorem Divides.directory_prefix (divides : Divides chars directory name)
    (divides' : Divides chars directory' name') : directory' <+: directory := by
  have same : directory ++ name = directory' ++ name' := divides.whole.symm.trans divides'.whole
  rcases List.append_eq_append_iff.mp same with ⟨more, longer, rest⟩ | ⟨more, shorter, -⟩
  · have plain : ∀ c ∈ more, isSeparator c = false := fun c h =>
      divides.plain c (rest ▸ List.mem_append_left name' h)
    have nothing : more = [] := eq_nil_of_closed (longer ▸ divides'.closed) plain
    have whole : directory' = directory := by rw [longer, nothing, List.append_nil]
    exact whole ▸ List.prefix_rfl
  · rw [shorter]
    exact List.prefix_append directory' more

/-- A path is divided in one way only. -/
theorem Divides.unique (divides : Divides chars directory name) (divides' : Divides chars directory' name') :
    directory = directory' ∧ name = name' := by
  have within := divides'.directory_prefix divides
  have same : directory = directory' := within.eq_of_length_le (divides.directory_prefix divides').length_le
  have whole : directory ++ name = directory' ++ name' := divides.whole.symm.trans divides'.whole
  rw [same] at whole
  exact ⟨same, List.append_cancel_left whole⟩

theorem divides_iff : Divides chars directory name ↔ splitDirectory chars = (directory, name) := by
  have divides := divides_splitDirectory chars
  constructor
  · intro divides'
    obtain ⟨front, back⟩ := divides.unique divides'
    exact Prod.ext front back
  · intro split
    rwa [split] at divides

/-! ### Sheets -/

/-- Whether a path is that of a name with the given base name in the directory. -/
def LiesAt (path : String) (directory stem : List Char) : Prop :=
  ∃ name, Divides path.toList directory name ∧ FileName.HasBase name stem

/-- Whether a path is that of a name in the directory. -/
def IsIn (path : String) (directory : List Char) : Prop :=
  ∃ name, Divides path.toList directory name

theorem exists_liesAt (path : String) : ∃ directory stem, LiesAt path directory stem :=
  ⟨_, _, _, divides_splitDirectory path.toList, FileName.hasBase_base _⟩

theorem LiesAt.unique (lies : LiesAt path directory stem) (lies' : LiesAt path directory' stem') :
    directory = directory' ∧ stem = stem' := by
  obtain ⟨name, divides, base⟩ := lies
  obtain ⟨name', divides', base'⟩ := lies'
  obtain ⟨sameDirectory, rfl⟩ := divides.unique divides'
  exact ⟨sameDirectory, (FileName.hasBase_iff.mp base).symm.trans (FileName.hasBase_iff.mp base')⟩

theorem Divides.toList_compiledPath (divides : Divides path.toList directory name) :
    (compiledPath path).toList = directory ++ (FileName.base name ++ ".css".toList) := by
  rw [compiledPath, divides_iff.mp divides]
  simp

/-- The sheet lies in the directory of its source. -/
theorem Divides.compiled (divides : Divides path.toList directory name) :
    Divides (compiledPath path).toList directory (FileName.base name ++ ".css".toList) where
  whole := divides.toList_compiledPath
  closed := divides.closed
  plain c h := by
    have extension : ".css".toList.any isSeparator = false := by decide
    rcases List.mem_append.mp h with inBase | inExtension
    · have begins : FileName.base name <+: name := (FileName.hasBase_base name).isPrefix
      exact divides.plain c (begins.subset inBase)
    · simpa using List.any_eq_false.mp extension c inExtension

theorem LiesAt.compiled (lies : LiesAt path directory stem) :
    Divides (compiledPath path).toList directory (stem ++ ".css".toList) := by
  obtain ⟨name, divides, base⟩ := lies
  rw [← FileName.hasBase_iff.mp base]
  exact divides.compiled

theorem isIn_compiledPath_iff : IsIn (compiledPath path) directory ↔ IsIn path directory := by
  have divides := divides_splitDirectory path.toList
  constructor
  · rintro ⟨name, divides'⟩
    obtain ⟨rfl, -⟩ := divides.compiled.unique divides'
    exact ⟨_, divides⟩
  · rintro ⟨name, divides'⟩
    exact ⟨_, divides'.compiled⟩

/-- Each path has one directory and one base name in it.  Two sources are compiled to the same sheet if and only if they
have both in common, so they differ at most in their extensions, and no sheet lies in another directory than its
source. -/
theorem compiledPath_eq_iff (path path' : String) :
    (∃! place : List Char × List Char, LiesAt path place.1 place.2) ∧
      (compiledPath path = compiledPath path' ↔
        ∃ directory stem, LiesAt path directory stem ∧ LiesAt path' directory stem) ∧
      ∀ directory, IsIn (compiledPath path) directory ↔ IsIn path directory := by
  obtain ⟨directory, stem, lies⟩ := exists_liesAt path
  obtain ⟨directory', stem', lies'⟩ := exists_liesAt path'
  refine ⟨⟨(directory, stem), lies, fun place other => ?_⟩, ?_, fun _ => isIn_compiledPath_iff⟩
  · obtain ⟨front, back⟩ := lies.unique other
    exact Prod.ext front.symm back.symm
  · constructor
    · intro same
      -- The sheet tells where its name begins, and the name all of the base name.
      have sheet : Divides (compiledPath path).toList directory' (stem' ++ ".css".toList) := by
        rw [same]
        exact lies'.compiled
      obtain ⟨rfl, sameName⟩ := lies.compiled.unique sheet
      obtain rfl : stem = stem' := List.append_cancel_right sameName
      exact ⟨directory, stem, lies, lies'⟩
    · rintro ⟨directory, stem, lies, lies'⟩
      rw [← String.toList_inj, lies.compiled.whole, lies'.compiled.whole]

example : compiledPath "a\\b/.x.less" = compiledPath "a\\b/.x" := by decide

end Style
end ComponentHoist

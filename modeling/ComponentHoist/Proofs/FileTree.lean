import ComponentHoist.FileTree
import ComponentHoist.Proofs.ModeMap
import ComponentHoist.Proofs.PathOrder
import Mathlib.Data.List.Nodup

/-!
# ComponentHoist.Proofs.FileTree — trees, places and paths

* `FileTree.IsProper`: what holds of every tree on a disk: the names in a directory are names and differ.
* `FileTree.entryAt?`, `FileTree.content?`: what is at a place, and what is in the file there.
* `FileTree.Step`, `FileTree.exists_step_of_follow`: what one component of a path does.
* `FileTree.content?_insertFile`: a file that is put where nothing is comes in addition to the others.
* `FileSystem.resolve_join`: the path of a place below a directory leads to what is at that place.
* `FileSystem.isProper_of_resolve`: a path in a proper tree leads to a proper tree.
-/

namespace ComponentHoist
namespace FileTree

open PathName (IsName)

/-! ### Proper trees and places in them -/

/-- Whether each directory of the tree has entries of different names only, none of which stands for something else. -/
inductive IsProper : FileTree → Prop where
  | file (content : ByteArray) : IsProper (.file content)
  | directory {entries : List (Name × FileTree)} (nodup : (entries.map Prod.fst).Nodup)
      (names : ∀ entry ∈ entries, IsName entry.1) (below : ∀ entry ∈ entries, IsProper entry.2) :
      IsProper (.directory entries)

/-- What is at a place, given by the names that lead there. -/
def entryAt? : List Name → FileTree → Option FileTree
  | [], t => some t
  | name :: names, directory entries => (entries.lookup name).bind (entryAt? names)
  | _ :: _, file _ => none

/-- What is in the file at a place, if there is one. -/
def content? (place : List Name) (t : FileTree) : Option ByteArray :=
  match entryAt? place t with
  | some (file content) => some content
  | _ => none

variable {t here next found entry : FileTree} {name : Name} {place names : List Name} {content : ByteArray}
  {entries : List (Name × FileTree)} {parents above : List FileTree}

theorem content?_eq_some_iff : content? place t = some content ↔ entryAt? place t = some (file content) := by
  rw [content?]
  split
  · next found =>
    rw [found]
    constructor
    · rintro ⟨⟩
      rfl
    · rintro ⟨⟩
      rfl
  · next other =>
    constructor
    · rintro ⟨⟩
    · intro found
      exact absurd found (other content)

theorem content?_cons_directory :
    content? (name :: names) (directory entries) = (entries.lookup name).bind (content? names) := by
  rw [content?, entryAt?]
  cases entries.lookup name <;> rfl

theorem IsProper.isName_of_entryAt? (proper : t.IsProper) (found : entryAt? place t = some entry) :
    ∀ name ∈ place, IsName name := by
  induction place generalizing t with
  | nil => exact fun _ h => absurd h List.not_mem_nil
  | cons first rest ih =>
    cases proper with
    | file content => cases found
    | directory nodup names below =>
      obtain ⟨next, listed, later⟩ := Option.bind_eq_some_iff.mp found
      have mem := mem_of_lookup listed
      exact List.forall_mem_cons.mpr ⟨names _ mem, ih (below _ mem) later⟩

/-! ### Following a path -/

theorem follow_cons_directory (parents : List FileTree) (entries : List (Name × FileTree)) (name : Name)
    (names : List Name) :
    follow parents (directory entries) (name :: names) =
      if name = [] ∨ name = Name.here then follow parents (directory entries) names
      else if name = Name.parent then
        match parents with
        | parent :: parents => follow parents parent names
        | [] => follow [] (directory entries) names
      else
        match entries.lookup name with
        | some next => follow (directory entries :: parents) next names
        | none => .error .missing :=
  follow.eq_def parents (directory entries) (name :: names)

/-- What one component of a path does: from a tree with its parents it leads to another one. -/
inductive Step : List FileTree → FileTree → Name → List FileTree → FileTree → Prop where
  | stay {parents : List FileTree} {entries : List (Name × FileTree)} {name : Name}
      (stays : name = [] ∨ name = Name.here) : Step parents (.directory entries) name parents (.directory entries)
  | up {parents : List FileTree} {parent : FileTree} {entries : List (Name × FileTree)} :
      Step (parent :: parents) (.directory entries) Name.parent parents parent
  | top {entries : List (Name × FileTree)} : Step [] (.directory entries) Name.parent [] (.directory entries)
  | down {parents : List FileTree} {entries : List (Name × FileTree)} {name : Name} {next : FileTree}
      (moves : ¬(name = [] ∨ name = Name.here)) (below : name ≠ Name.parent)
      (listed : entries.lookup name = some next) :
      Step parents (.directory entries) name (.directory entries :: parents) next

theorem Step.follow_cons (step : Step parents here name above next) (names : List Name) :
    follow parents here (name :: names) = follow above next names := by
  have moves : ¬(Name.parent = [] ∨ Name.parent = Name.here) := by decide
  cases step with
  | stay stays => rw [follow_cons_directory, if_pos stays]
  | up => rw [follow_cons_directory, if_neg moves, if_pos rfl]
  | top => rw [follow_cons_directory, if_neg moves, if_pos rfl]
  | down moves below listed => rw [follow_cons_directory, if_neg moves, if_neg below, listed]

/-- A component does a step, or no path with it in front leads anywhere. -/
theorem step_or_error (parents : List FileTree) (here : FileTree) (name : Name) :
    (∃ above next, Step parents here name above next) ∨
      ∃ failure, ∀ names, follow parents here (name :: names) = .error failure := by
  cases here with
  | file content => exact .inr ⟨.throughFile, fun _ => rfl⟩
  | directory entries =>
    by_cases stays : name = [] ∨ name = Name.here
    · exact .inl ⟨_, _, .stay stays⟩
    · by_cases up : name = Name.parent
      · subst up
        cases parents with
        | nil => exact .inl ⟨_, _, .top⟩
        | cons parent parents => exact .inl ⟨_, _, .up⟩
      · cases listed : entries.lookup name with
        | none =>
          refine .inr ⟨.missing, fun names => ?_⟩
          rw [follow_cons_directory, if_neg stays, if_neg up, listed]
        | some next => exact .inl ⟨_, _, .down stays up listed⟩

theorem exists_step_of_follow (leads : follow parents here (name :: names) = .ok found) :
    ∃ above next, Step parents here name above next ∧ follow above next names = .ok found := by
  rcases step_or_error parents here name with ⟨above, next, step⟩ | ⟨failure, fails⟩
  · exact ⟨above, next, step, (step.follow_cons names).symm.trans leads⟩
  · rw [fails] at leads
    cases leads

/-- Where a path leads, its continuation begins. -/
theorem exists_follow_append (leads : follow parents here names = .ok found) :
    ∃ above, ∀ more, follow parents here (names ++ more) = follow above found more := by
  induction names generalizing parents here with
  | nil =>
    obtain rfl : here = found := Except.ok.inj leads
    exact ⟨parents, fun _ => rfl⟩
  | cons name names ih =>
    obtain ⟨_, _, step, leads⟩ := exists_step_of_follow leads
    obtain ⟨above, continues⟩ := ih leads
    exact ⟨above, fun more => (step.follow_cons (names ++ more)).trans (continues more)⟩

/-- Names lead to what is at the place that they give. -/
theorem follow_of_entryAt? (parents : List FileTree) (isName : ∀ name ∈ place, IsName name)
    (found : entryAt? place here = some entry) : follow parents here place = .ok entry := by
  induction place generalizing parents here with
  | nil => exact congrArg Except.ok (Option.some.inj found)
  | cons name names ih =>
    obtain ⟨first, later⟩ := List.forall_mem_cons.mp isName
    cases here with
    | file content => cases found
    | directory entries =>
      obtain ⟨next, listed, found⟩ := Option.bind_eq_some_iff.mp found
      have moves : ¬(name = [] ∨ name = Name.here) := by simpa [PathName.isStep] using first.isStep
      rw [(Step.down moves first.notParent listed).follow_cons]
      exact ih _ later found

/-- An empty component in front of another one changes nothing. -/
theorem follow_append_empty (parents : List FileTree) (here : FileTree) (names : List Name) {more : List Name}
    (nonempty : more ≠ []) : follow parents here (names ++ [] :: more) = follow parents here (names ++ more) := by
  induction names generalizing parents here with
  | nil =>
    cases here with
    | file content =>
      obtain ⟨next, rest, rfl⟩ := List.exists_cons_of_ne_nil nonempty
      rfl
    | directory entries => exact (Step.stay (.inl rfl)).follow_cons more
  | cons name names ih =>
    rw [List.cons_append, List.cons_append]
    rcases step_or_error parents here name with ⟨above, next, step⟩ | ⟨failure, fails⟩
    · rw [step.follow_cons, step.follow_cons, ih]
    · rw [fails, fails]

theorem isProper_empty : (∅ : FileTree).IsProper :=
  .directory List.nodup_nil (fun _ h => absurd h List.not_mem_nil) fun _ h => absurd h List.not_mem_nil

theorem Step.isProper (step : Step parents here name above next) (properAbove : ∀ parent ∈ parents, parent.IsProper)
    (proper : here.IsProper) : (∀ parent ∈ above, parent.IsProper) ∧ next.IsProper := by
  cases step with
  | stay stays => exact ⟨properAbove, proper⟩
  | up =>
    obtain ⟨nearest, farther⟩ := List.forall_mem_cons.mp properAbove
    exact ⟨farther, nearest⟩
  | top => exact ⟨properAbove, proper⟩
  | down moves below listed =>
    refine ⟨List.forall_mem_cons.mpr ⟨proper, properAbove⟩, ?_⟩
    cases proper with
    | directory nodup isName below => exact below _ (mem_of_lookup listed)

theorem isProper_of_follow (properAbove : ∀ parent ∈ parents, parent.IsProper) (proper : here.IsProper)
    (leads : follow parents here names = .ok found) : found.IsProper := by
  induction names generalizing parents here with
  | nil => exact Except.ok.inj leads ▸ proper
  | cons name names ih =>
    obtain ⟨_, _, step, leads⟩ := exists_step_of_follow leads
    obtain ⟨properAbove, proper⟩ := step.isProper properAbove proper
    exact ih properAbove proper leads

/-! ### Putting a file in a tree -/

theorem lookup_alterEntries (key name : Name) (f : Option FileTree → FileTree)
    (entries : List (Name × FileTree)) :
    (alterEntries key f entries).lookup name =
      if name = key then some (f (entries.lookup key)) else entries.lookup name := by
  induction entries with
  | nil =>
    by_cases same : name = key
    · rw [if_pos same, same]
      exact List.lookup_cons_self
    · rw [if_neg same]
      exact lookup_cons_of_ne same
  | cons entry rest ih =>
    obtain ⟨first, t⟩ := entry
    rw [alterEntries]
    by_cases here : first = key
    · subst here
      rw [if_pos rfl]
      by_cases same : name = first
      · subst same
        rw [if_pos rfl, List.lookup_cons_self, List.lookup_cons_self]
      · rw [if_neg same, lookup_cons_of_ne same, lookup_cons_of_ne same]
    · rw [if_neg here, lookup_cons_of_ne (Ne.symm here)]
      by_cases same : name = first
      · subst same
        rw [if_neg here, List.lookup_cons_self, List.lookup_cons_self]
      · rw [lookup_cons_of_ne same, lookup_cons_of_ne same, ih]

/-- Whether a file can be put at the place: there is nothing, and no file on the way. -/
def IsFree : List Name → Option FileTree → Prop
  | _, none => True
  | name :: names, some (directory entries) => IsFree names (entries.lookup name)
  | _, some _ => False

theorem isFree_none (place : List Name) : IsFree place none := by
  cases place <;> trivial

theorem content?_of_isFree (free : IsFree place (some t)) : content? place t = none := by
  induction place generalizing t with
  | nil =>
    cases t with
    | file content => exact absurd free id
    | directory entries => rfl
  | cons name names ih =>
    cases t with
    | file content => exact absurd free id
    | directory entries =>
      rw [content?_cons_directory]
      cases listed : entries.lookup name with
      | none => rfl
      | some next =>
        rw [IsFree, listed] at free
        exact ih free

/-- What is at the places of an altered tree.  What was there before may be nothing, as it is below new directories. -/
theorem content?_alter (content : ByteArray) (other : List Name) {old : Option FileTree} (free : IsFree place old) :
    content? other (alter (fun _ => file content) place old) =
      if other = place then some content else old.bind (content? other) := by
  induction place generalizing other old with
  | nil =>
    cases old with
    | none => cases other <;> rfl
    | some t => cases t <;> exact absurd free id
  | cons name names ih =>
    cases old with
    | none =>
      cases other with
      | nil => rfl
      | cons next later =>
        have made : alter (fun _ => file content) (name :: names) none =
            directory [(name, alter (fun _ => file content) names none)] := by
          rw [alter.eq_def]
        rw [made, content?_cons_directory]
        by_cases same : next = name
        · subst same
          rw [List.lookup_cons_self, Option.bind_some, ih later (isFree_none names)]
          simp
        · rw [lookup_cons_of_ne same]
          simp [same]
    | some t =>
      cases t with
      | file content => exact absurd free id
      | directory entries =>
        cases other with
        | nil => rfl
        | cons next later =>
          rw [alter, content?_cons_directory, lookup_alterEntries, Option.bind_some, content?_cons_directory]
          by_cases same : next = name
          · subst same
            rw [if_pos rfl, Option.bind_some, ih later free]
            simp
          · simp [same]

/-- A file that is put at a free place comes in addition to the others. -/
theorem content?_insertFile (free : IsFree place (some t)) (content : ByteArray) (other : List Name) :
    content? other (t.insertFile place content) = if other = place then some content else content? other t :=
  content?_alter content other free

theorem map_fst_alterEntries (key : Name) (f : Option FileTree → FileTree) (entries : List (Name × FileTree)) :
    (alterEntries key f entries).map Prod.fst =
      if key ∈ entries.map Prod.fst then entries.map Prod.fst else entries.map Prod.fst ++ [key] := by
  induction entries with
  | nil => rfl
  | cons entry rest ih =>
    obtain ⟨first, t⟩ := entry
    rw [alterEntries]
    by_cases here : first = key
    · simp [here]
    · rw [if_neg here, List.map_cons, ih, List.map_cons]
      by_cases known : key ∈ rest.map Prod.fst
      · rw [if_pos known, if_pos (List.mem_cons_of_mem _ known)]
      · rw [if_neg known, if_neg fun mem => (List.mem_cons.mp mem).elim (fun same => here same.symm) known]
        rfl

theorem nodup_alterEntries {key : Name} {f : Option FileTree → FileTree}
    (nodup : (entries.map Prod.fst).Nodup) : ((alterEntries key f entries).map Prod.fst).Nodup := by
  rw [map_fst_alterEntries]
  split_ifs with known
  · exact nodup
  · exact List.nodup_append_comm.mp (List.nodup_cons.mpr ⟨known, nodup⟩)

/-- An entry of an altered directory was there before, or it is the altered one. -/
theorem mem_alterEntries {key : Name} {f : Option FileTree → FileTree} {entry : Name × FileTree}
    (mem : entry ∈ alterEntries key f entries) :
    entry ∈ entries ∨ entry = (key, f none) ∨ ∃ t, (key, t) ∈ entries ∧ entry = (key, f (some t)) := by
  induction entries with
  | nil => exact .inr (.inl (List.mem_singleton.mp mem))
  | cons head rest ih =>
    obtain ⟨first, t⟩ := head
    rw [alterEntries] at mem
    by_cases here : first = key
    · subst here
      rw [if_pos rfl] at mem
      rcases List.mem_cons.mp mem with rfl | mem
      · exact .inr (.inr ⟨t, List.mem_cons_self, rfl⟩)
      · exact .inl (List.mem_cons_of_mem _ mem)
    · rw [if_neg here] at mem
      rcases List.mem_cons.mp mem with rfl | mem
      · exact .inl List.mem_cons_self
      · rcases ih mem with old | new | ⟨t, old, same⟩
        · exact .inl (List.mem_cons_of_mem _ old)
        · exact .inr (.inl new)
        · exact .inr (.inr ⟨t, List.mem_cons_of_mem _ old, same⟩)

theorem isProper_alter (content : ByteArray) (names : ∀ name ∈ place, IsName name) {old : Option FileTree}
    (proper : ∀ t ∈ old, t.IsProper) : (alter (fun _ => file content) place old).IsProper := by
  induction place generalizing old with
  | nil => exact .file content
  | cons name rest ih =>
    obtain ⟨isName, names⟩ := List.forall_mem_cons.mp names
    have fresh : (alter (fun _ => file content) rest none).IsProper := ih names fun _ h => nomatch h
    have alone : (directory [(name, alter (fun _ => file content) rest none)]).IsProper :=
      .directory (List.nodup_singleton name) (List.forall_mem_singleton.mpr isName)
        (List.forall_mem_singleton.mpr fresh)
    cases old with
    | none =>
      rw [alter.eq_def]
      exact alone
    | some t =>
      cases proper t rfl with
      | file other =>
        rw [alter.eq_def]
        exact alone
      | directory nodup isNames below =>
        rw [alter]
        refine .directory (nodup_alterEntries nodup) ?_ ?_
        · intro entry mem
          rcases mem_alterEntries mem with before | rfl | ⟨t, -, rfl⟩
          · exact isNames entry before
          · exact isName
          · exact isName
        · intro entry mem
          rcases mem_alterEntries mem with before | rfl | ⟨t, before, rfl⟩
          · exact below entry before
          · exact fresh
          · exact ih names fun _ h => Option.some.inj h ▸ below _ before

theorem IsProper.insertFile (proper : t.IsProper) (names : ∀ name ∈ place, IsName name) (content : ByteArray) :
    (t.insertFile place content).IsProper :=
  isProper_alter content names fun _ h => Option.some.inj h ▸ proper

end FileTree

/-! ### Paths in a file system -/

namespace FileSystem

open PathName (IsName)

variable {fs : FileSystem} {path root : PathName} {here found entry : FileTree} {place : List Name}

theorem bytes_ne_nil_of_resolve (leads : fs.resolve path = .ok found) : path.bytes ≠ [] := by
  intro empty
  rw [resolve, if_pos empty] at leads
  cases leads

theorem resolve_eq_follow (nonempty : path.bytes ≠ []) (fs : FileSystem) :
    fs.resolve path = fs.root.follow [] (fs.start path ++ path.components) :=
  if_neg nonempty

/-- The path of a place below a directory begins as that of the directory does. -/
theorem head?_bytes_join (nonempty : root.bytes ≠ []) (place : List Name) :
    (root.join place).bytes.head? = root.bytes.head? := by
  by_cases below : place = []
  · rw [below]
    rfl
  · obtain ⟨b, bs, bytes⟩ := List.exists_cons_of_ne_nil nonempty
    rw [PathName.bytes_join below, bytes]
    rfl

/-- The path of a place below a directory leads to what is there. -/
theorem resolve_join (leads : fs.resolve root = .ok here) (isName : ∀ name ∈ place, IsName name)
    (found : here.entryAt? place = some entry) : fs.resolve (root.join place) = .ok entry := by
  by_cases below : place = []
  · subst below
    rw [← Option.some.inj found]
    exact leads
  · have nonempty := bytes_ne_nil_of_resolve leads
    have begins := head?_bytes_join nonempty place
    have nonempty' : (root.join place).bytes ≠ [] := by
      rwa [Ne, ← List.head?_eq_none_iff, begins, List.head?_eq_none_iff]
    have start : fs.start (root.join place) = fs.start root := by rw [FileSystem.start, begins, FileSystem.start]
    rw [resolve_eq_follow nonempty] at leads
    rw [resolve_eq_follow nonempty', start]
    obtain ⟨front, -, slashed, joined⟩ := PathName.components_join root isName below
    obtain ⟨parents, continues⟩ := FileTree.exists_follow_append leads
    have whole : fs.root.follow [] (fs.start root ++ root.components ++ place) = .ok entry := by
      rw [continues, FileTree.follow_of_entryAt? parents isName found]
    rw [joined, ← List.append_assoc]
    rcases slashed with same | same
    · rwa [same] at whole
    · rwa [same, List.append_assoc, List.append_assoc, List.singleton_append, ← List.append_assoc,
        FileTree.follow_append_empty _ _ _ below] at whole

/-- A path in a proper tree leads to a proper tree. -/
theorem isProper_of_resolve (proper : fs.root.IsProper) (leads : fs.resolve path = .ok found) : found.IsProper := by
  rw [resolve_eq_follow (bytes_ne_nil_of_resolve leads)] at leads
  exact FileTree.isProper_of_follow (fun _ h => absurd h List.not_mem_nil) proper leads

end FileSystem
end ComponentHoist

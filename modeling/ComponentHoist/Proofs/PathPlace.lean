import ComponentHoist.Proofs.FileTree

/-!
# ComponentHoist.Proofs.PathPlace — the place that a path leads to

Where a path leads can be told from its components and the working directory, and what is there from the tree.  So a
path still leads to the same place in a tree that has more files.

* `FileTree.Way`, `FileTree.Step.continues`: the names and the directories on a way down into a tree, and how a step
  continues it.
* `FileSystem.place`, `FileSystem.entryAt?_place`: the place that a path leads to.
* `FileTree.Grows`, `FileTree.Step.exists_of_grows`: one tree has something at all places at which the other one has,
  so that every step in the other one is a step in it, too.
* `FileSystem.exists_resolve_insertFile`: a path that leads somewhere does so after a file has come in.
-/

namespace ComponentHoist
namespace FileTree

variable {t t' here here' next found entry : FileTree} {name : Name} {way place names : List Name}
  {parents parents' above : List FileTree}

theorem entryAt?_append (place names : List Name) (t : FileTree) :
    entryAt? (place ++ names) t = (entryAt? place t).bind (entryAt? names) := by
  induction place generalizing t with
  | nil => rfl
  | cons name place ih =>
    cases t with
    | file content => rfl
    | directory entries =>
      rw [List.cons_append, entryAt?, entryAt?, Option.bind_assoc]
      exact congrArg _ (funext fun next => ih next)

theorem content?_append (found : entryAt? place t = some entry) (names : List Name) :
    content? (place ++ names) t = content? names entry := by
  rw [content?, entryAt?_append, found]
  rfl

/-! ### Ways into a tree -/

/-- Whether the names, the last one first, lead down from the top of the tree through the given directories, the
nearest one first. -/
inductive Way (t : FileTree) : List Name → List FileTree → FileTree → Prop where
  | top : Way t [] [] t
  | down {way : List Name} {parents : List FileTree} {entries : List (Name × FileTree)} {name : Name}
      {next : FileTree} (before : Way t way parents (.directory entries)) (listed : entries.lookup name = some next) :
      Way t (name :: way) (.directory entries :: parents) next

theorem Way.entryAt?_reverse (leads : Way t way parents here) : entryAt? way.reverse t = some here := by
  induction leads with
  | top => rfl
  | down before listed ih =>
    rw [List.reverse_cons, entryAt?_append, ih, Option.bind_some, entryAt?, listed]
    rfl

/-- The way after one more component. -/
def wayAfter (way : List Name) (name : Name) : List Name :=
  if name = [] ∨ name = Name.here then way else if name = Name.parent then way.tail else name :: way

theorem Step.continues (step : Step parents here name above next) (walked : Way t way parents here) :
    Way t (wayAfter way name) above next := by
  cases step with
  | stay stays =>
    rw [wayAfter, if_pos stays]
    exact walked
  | up =>
    cases walked with
    | down before listed => exact before
  | top =>
    cases walked
    exact .top
  | down moves below listed =>
    rw [wayAfter, if_neg moves, if_neg below]
    exact walked.down listed

theorem exists_way_of_follow (walked : Way t way parents here) (leads : follow parents here names = .ok found) :
    ∃ above, Way t (names.foldl wayAfter way) above found := by
  induction names generalizing way parents here with
  | nil =>
    obtain rfl : here = found := Except.ok.inj leads
    exact ⟨parents, walked⟩
  | cons name names ih =>
    obtain ⟨_, _, step, leads⟩ := exists_step_of_follow leads
    exact ih (step.continues walked) leads

/-! ### Trees that grow -/

/-- Whether the tree is a directory. -/
def IsDirectory : FileTree → Prop
  | file _ => False
  | directory _ => True

/-- Whether the second tree has something at every place at which the first one has, and directories for directories. -/
def Grows (t t' : FileTree) : Prop :=
  ∀ place entry, entryAt? place t = some entry →
    ∃ entry', entryAt? place t' = some entry' ∧ (entry.IsDirectory → entry'.IsDirectory)

/-- A tree grows by a file at a free place. -/
theorem grows_insertFile (free : IsFree place (some t)) (content : ByteArray) :
    t.Grows (t.insertFile place content) := by
  induction place generalizing t with
  | nil => cases t <;> exact absurd free id
  | cons name names ih =>
    cases t with
    | file other => exact absurd free id
    | directory entries =>
      intro other entry found
      rw [insertFile, alter]
      cases other with
      | nil => exact ⟨_, rfl, fun _ => trivial⟩
      | cons next later =>
        obtain ⟨below, listed, found⟩ := Option.bind_eq_some_iff.mp found
        by_cases same : next = name
        · subst same
          rw [IsFree, listed] at free
          obtain ⟨entry', found', directory⟩ := ih free later entry found
          refine ⟨entry', ?_, directory⟩
          rwa [entryAt?, lookup_alterEntries, if_pos rfl, listed]
        · refine ⟨entry, ?_, id⟩
          rwa [entryAt?, lookup_alterEntries, if_neg same, listed]

/-- A step in a tree is one in a tree that has grown. -/
theorem Step.exists_of_grows (step : Step parents here name above next) (grows : t.Grows t')
    (walked : Way t way parents here) (walked' : Way t' way parents' here')
    (directory : here.IsDirectory → here'.IsDirectory) :
    ∃ above' next', Step parents' here' name above' next' ∧ (next.IsDirectory → next'.IsDirectory) := by
  cases here' with
  | file content => cases step <;> exact absurd (directory trivial) id
  | directory entries' =>
    cases step with
    | stay stays => exact ⟨_, _, .stay stays, directory⟩
    | up =>
      cases walked with
      | down before listed =>
        cases walked' with
        | down before' listed' => exact ⟨_, _, .up, fun _ => trivial⟩
    | top =>
      cases walked
      cases walked'
      exact ⟨_, _, .top, directory⟩
    | down moves below listed =>
      -- The way to `next` is the one walked so far with a name more, so the greater tree has an entry of that name.
      obtain ⟨next', found', directory'⟩ := grows _ _ (walked.down listed).entryAt?_reverse
      rw [List.reverse_cons, entryAt?_append, walked'.entryAt?_reverse, Option.bind_some, entryAt?] at found'
      obtain ⟨_, listed', ⟨⟩⟩ := Option.bind_eq_some_iff.mp found'
      exact ⟨_, _, .down moves below listed', directory'⟩

/-- What leads somewhere still does so in a tree that has grown. -/
theorem exists_follow_of_grows (grows : t.Grows t') (walked : Way t way parents here)
    (walked' : Way t' way parents' here') (directory : here.IsDirectory → here'.IsDirectory)
    (leads : follow parents here names = .ok found) : ∃ found', follow parents' here' names = .ok found' := by
  induction names generalizing way parents parents' here here' with
  | nil => exact ⟨here', rfl⟩
  | cons name names ih =>
    obtain ⟨_, _, step, leads⟩ := exists_step_of_follow leads
    obtain ⟨_, _, step', directory'⟩ := step.exists_of_grows grows walked walked' directory
    rw [step'.follow_cons]
    exact ih (step.continues walked) (step'.continues walked') directory' leads

end FileTree

namespace FileSystem

variable {fs : FileSystem} {path : PathName} {found : FileTree}

/-- The place that a path leads to, by its components alone. -/
def place (path : PathName) (fs : FileSystem) : List Name :=
  ((fs.start path ++ path.components).foldl FileTree.wayAfter []).reverse

/-- Puts a file at a place. -/
def insertFile (place : List Name) (content : ByteArray) (fs : FileSystem) : FileSystem :=
  { fs with root := fs.root.insertFile place content }

/-- What a path leads to is at its place. -/
theorem entryAt?_place (leads : fs.resolve path = .ok found) : fs.root.entryAt? (fs.place path) = some found := by
  rw [resolve_eq_follow (bytes_ne_nil_of_resolve leads)] at leads
  obtain ⟨parents, way⟩ := FileTree.exists_way_of_follow .top leads
  exact way.entryAt?_reverse

@[simp] theorem place_insertFile (path : PathName) (place : List Name) (content : ByteArray) (fs : FileSystem) :
    (fs.insertFile place content).place path = fs.place path := rfl

/-- A path that leads somewhere still does so after a file has been put at a free place. -/
theorem exists_resolve_insertFile {place : List Name} (free : FileTree.IsFree place (some fs.root))
    (content : ByteArray) (leads : fs.resolve path = .ok found) :
    ∃ found', (fs.insertFile place content).resolve path = .ok found' := by
  have grows := FileTree.grows_insertFile free content
  obtain ⟨_, ⟨⟩, directory⟩ := grows [] fs.root rfl
  have nonempty := bytes_ne_nil_of_resolve leads
  rw [resolve_eq_follow nonempty] at leads ⊢
  exact FileTree.exists_follow_of_grows grows .top .top directory leads

end FileSystem
end ComponentHoist

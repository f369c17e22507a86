import ComponentHoist.Proofs.ModeMapRuns
import Mathlib.Logic.Function.Iterate

/-!
# ComponentHoist.Proofs.PathsByMode — which paths a mode has, and which mode comes first

Each mode is a queue with two ends, and the map a list of such queues.  What an operation does to a map is told by what
it does to the paths of each mode and to the list of modes.

* `ModeMap.pathsOf`: the paths of a mode, whether it is listed or not.
* `ModeMap.alter`: what both operations are, the paths of one mode made into others.
* `ModeMap.pathsOf_append`, `ModeMap.modes_append` and their kin: what one operation does to the paths and the modes.
* `ModeMap.perm_alter`: if what is altered only gains paths, then no path is lost or doubled.
* `ModeMap.added`: what the steps of a run bring to one end of a mode, each path compiled as often as a later step
  compiles.
* `ModeMap.run_queues`: what a run leaves in each mode, and in which order the modes stand.
* `ModeMap.ofSources_collects`: the same of the map that style sources make up.
-/

namespace ComponentHoist
namespace ModeMap

variable {m : ModeMap} {mode other : String} {paths : List String} {f : List String → List String}

/-! ### The paths of a mode -/

/-- The paths of a mode.  A mode that is not listed has none. -/
def pathsOf (m : ModeMap) (mode : String) : List String :=
  (m.get? mode).getD []

/-- A list of paths, if there is any in it. -/
def nonempty? (paths : List String) : Option (List String) :=
  if paths = [] then none else some paths

theorem isSome_nonempty?_iff : (nonempty? paths).isSome = true ↔ paths ≠ [] := by
  unfold nonempty?
  by_cases nothing : paths = []
  · simp [nothing]
  · simp [nothing]

theorem nonempty?_injective : Function.Injective nonempty? := by
  intro paths paths' same
  unfold nonempty? at same
  by_cases left : paths = [] <;> by_cases right : paths' = []
  · rw [left, right]
  · rw [if_pos left, if_neg right] at same
    cases same
  · rw [if_neg left, if_pos right] at same
    cases same
  · rw [if_neg left, if_neg right] at same
    exact Option.some.inj same

/-- In a well-formed map a mode is listed exactly if it has paths. -/
theorem WellFormed.get?_eq (h : m.WellFormed) (mode : String) : m.get? mode = nonempty? (m.pathsOf mode) := by
  unfold pathsOf
  cases found : m.get? mode with
  | none => rfl
  | some paths =>
    have given : paths ≠ [] := h.nonempty (mode, paths) (h.get?_eq_some_iff.mp found)
    exact (if_neg given).symm

theorem pathsOf_mapPaths (m : ModeMap) (g : String → String) (mode : String) :
    (m.mapPaths g).pathsOf mode = (m.pathsOf mode).map g := by
  obtain ⟨entries⟩ := m
  show ((entries.map fun entry => (entry.1, entry.2.map g)).lookup mode).getD [] =
    ((entries.lookup mode).getD []).map g
  induction entries with
  | nil => rfl
  | cons entry rest ih =>
    rw [List.map_cons, List.lookup_cons, List.lookup_cons]
    cases mode == entry.1 with
    | true => rfl
    | false => exact ih

/-! ### Altering one mode -/

/-- The paths of all modes. -/
def allPaths (m : ModeMap) : List String :=
  m.entries.flatMap Prod.snd

/-- A list of modes with one more behind it, unless it is there already. -/
def enlist (modes : List String) (mode : String) : List String :=
  if mode ∈ modes then modes else modes ++ [mode]

/-- The mode, if it is given any paths. -/
def filledMode? (mode : String) (paths : List String) : Option String :=
  if paths = [] then none else some mode

/-- The map with the paths of one mode altered, unless a new mode would get none. -/
def alter (m : ModeMap) (mode : String) (f : List String → List String) : ModeMap :=
  if f [] = [] then m else ⟨alterEntries mode f m.entries⟩

theorem append_eq_alter (m : ModeMap) (mode : String) (paths : List String) :
    m.append mode paths = m.alter mode (· ++ paths) := by
  show _ = if [] ++ paths = [] then m else _
  rw [append, List.nil_append]
  simp only [List.isEmpty_iff]

theorem prepend_eq_alter (m : ModeMap) (mode : String) (paths : List String) :
    m.prepend mode paths = m.alter mode (paths ++ ·) := by
  show _ = if paths ++ [] = [] then m else _
  rw [prepend, List.append_nil]
  simp only [List.isEmpty_iff]

theorem lookup_alterEntries (mode other : String) (f : List String → List String)
    (entries : List (String × List String)) :
    (alterEntries mode f entries).lookup other =
      if other = mode then some (f ((entries.lookup mode).getD [])) else entries.lookup other := by
  induction entries with
  | nil =>
    unfold alterEntries
    by_cases same : other = mode
    · rw [if_pos same, same]
      exact List.lookup_cons_self
    · rw [if_neg same]
      exact lookup_cons_of_ne same
  | cons entry rest ih =>
    obtain ⟨first, paths⟩ := entry
    unfold alterEntries
    by_cases found : first = mode
    · subst found
      rw [if_pos rfl]
      by_cases same : other = first
      · subst same
        rw [if_pos rfl, List.lookup_cons_self, List.lookup_cons_self]
        rfl
      · rw [if_neg same, lookup_cons_of_ne same, lookup_cons_of_ne same]
    · rw [if_neg found, lookup_cons_of_ne (Ne.symm found)]
      by_cases here : other = first
      · subst here
        rw [if_neg found, List.lookup_cons_self, List.lookup_cons_self]
      · rw [lookup_cons_of_ne here, lookup_cons_of_ne here, ih]

/-- Altering one mode leaves the others alone. -/
theorem get?_alter_of_ne (differ : mode ≠ other) : (m.alter mode f).get? other = m.get? other := by
  unfold alter
  by_cases nothing : f [] = []
  · rw [if_pos nothing]
  · rw [if_neg nothing]
    exact (lookup_alterEntries mode other f m.entries).trans (if_neg differ.symm)

theorem pathsOf_alter_self (idle : f [] = [] → ∀ old, f old = old) :
    (m.alter mode f).pathsOf mode = f (m.pathsOf mode) := by
  unfold alter
  by_cases nothing : f [] = []
  · rw [if_pos nothing, idle nothing]
  · have found : (⟨alterEntries mode f m.entries⟩ : ModeMap).get? mode = some (f (m.pathsOf mode)) :=
      (lookup_alterEntries mode mode f m.entries).trans (if_pos rfl)
    rw [if_neg nothing, pathsOf, found, Option.getD_some]

theorem modes_alter : (m.alter mode f).modes = (filledMode? mode (f [])).elim m.modes (enlist m.modes) := by
  unfold alter filledMode?
  by_cases nothing : f [] = []
  · rw [if_pos nothing, if_pos nothing]
    rfl
  · rw [if_neg nothing, if_neg nothing]
    exact map_fst_alterEntries m.entries

/-- If a mode gains some paths by each alteration of its entry, then the map gains them. -/
theorem perm_alterEntries (gains : ∀ old, (f old).Perm (old ++ paths)) (entries : List (String × List String)) :
    ((alterEntries mode f entries).flatMap Prod.snd).Perm (entries.flatMap Prod.snd ++ paths) := by
  induction entries with
  | nil =>
    have only : ((alterEntries mode f []).flatMap Prod.snd) = f [] := List.append_nil _
    rw [only]
    exact gains []
  | cons entry rest ih =>
    obtain ⟨first, old⟩ := entry
    unfold alterEntries
    by_cases found : first = mode
    · rw [if_pos found, List.flatMap_cons, List.flatMap_cons]
      have swapped : (old ++ paths ++ rest.flatMap Prod.snd).Perm (old ++ rest.flatMap Prod.snd ++ paths) := by
        rw [List.append_assoc, List.append_assoc]
        exact List.perm_append_comm.append_left old
      exact ((gains old).append_right _).trans swapped
    · rw [if_neg found, List.flatMap_cons, List.flatMap_cons, List.append_assoc]
      exact ih.append_left old

theorem perm_alter (gains : ∀ old, (f old).Perm (old ++ f [])) :
    (m.alter mode f).allPaths.Perm (m.allPaths ++ f []) := by
  unfold alter
  by_cases nothing : f [] = []
  · rw [if_pos nothing, nothing, List.append_nil]
  · rw [if_neg nothing]
    exact perm_alterEntries gains m.entries

/-! ### Adding paths at either end -/

theorem append_nil (m : ModeMap) (mode : String) : m.append mode [] = m :=
  rfl

theorem prepend_nil (m : ModeMap) (mode : String) : m.prepend mode [] = m :=
  rfl

theorem append_of_ne_nil (given : paths ≠ []) :
    m.append mode paths = ⟨alterEntries mode (· ++ paths) m.entries⟩ :=
  (append_eq_alter m mode paths).trans (if_neg given)

theorem prepend_of_ne_nil (given : paths ≠ []) :
    m.prepend mode paths = ⟨alterEntries mode (paths ++ ·) m.entries⟩ := by
  have filled : paths ++ [] ≠ [] := by rwa [List.append_nil]
  exact (prepend_eq_alter m mode paths).trans (if_neg filled)

/-- An operation on one mode leaves the others alone. -/
theorem get?_append_of_ne (differ : mode ≠ other) : (m.append mode paths).get? other = m.get? other := by
  rw [append_eq_alter, get?_alter_of_ne differ]

theorem get?_prepend_of_ne (differ : mode ≠ other) : (m.prepend mode paths).get? other = m.get? other := by
  rw [prepend_eq_alter, get?_alter_of_ne differ]

theorem pathsOf_append (m : ModeMap) (mode : String) (paths : List String) (other : String) :
    (m.append mode paths).pathsOf other = m.pathsOf other ++ if mode = other then paths else [] := by
  by_cases same : mode = other
  · subst same
    have idle : [] ++ paths = [] → ∀ old, old ++ paths = old := by
      rintro nothing old
      rw [List.nil_append] at nothing
      rw [nothing, List.append_nil]
    rw [if_pos rfl, append_eq_alter, pathsOf_alter_self idle]
  · rw [if_neg same, List.append_nil, pathsOf, get?_append_of_ne same]
    rfl

theorem pathsOf_prepend (m : ModeMap) (mode : String) (paths : List String) (other : String) :
    (m.prepend mode paths).pathsOf other = (if mode = other then paths else []) ++ m.pathsOf other := by
  by_cases same : mode = other
  · subst same
    have idle : paths ++ [] = [] → ∀ old, paths ++ old = old := by
      rintro nothing old
      rw [List.append_nil] at nothing
      rw [nothing, List.nil_append]
    rw [if_pos rfl, prepend_eq_alter, pathsOf_alter_self idle]
  · rw [if_neg same, List.nil_append, pathsOf, get?_prepend_of_ne same]
    rfl

theorem modes_append (m : ModeMap) (mode : String) (paths : List String) :
    (m.append mode paths).modes = (filledMode? mode paths).elim m.modes (enlist m.modes) := by
  rw [append_eq_alter, modes_alter, List.nil_append]

theorem modes_prepend (m : ModeMap) (mode : String) (paths : List String) :
    (m.prepend mode paths).modes = (filledMode? mode paths).elim m.modes (enlist m.modes) := by
  rw [prepend_eq_alter, modes_alter, List.append_nil]

theorem perm_append (m : ModeMap) (mode : String) (paths : List String) :
    (m.append mode paths).allPaths.Perm (m.allPaths ++ paths) := by
  rw [append_eq_alter]
  exact perm_alter fun _ => .refl _

theorem perm_prepend (m : ModeMap) (mode : String) (paths : List String) :
    (m.prepend mode paths).allPaths.Perm (paths ++ m.allPaths) := by
  have gains (old : List String) : (paths ++ old).Perm (old ++ (paths ++ [])) := by
    rw [List.append_nil]
    exact List.perm_append_comm
  have gained : (m.prepend mode paths).allPaths.Perm (m.allPaths ++ paths) := by
    rw [prepend_eq_alter]
    exact (perm_alter gains).trans (.of_eq (congrArg (m.allPaths ++ ·) (List.append_nil paths)))
  exact gained.trans List.perm_append_comm

/-! ### The order of modes -/

theorem filterMap_concat {α : Type} (given : α → Option String) (items : List α) (item : α) :
    (items ++ [item]).filterMap given = items.filterMap given ++ (given item).toList := by
  rw [List.filterMap_append, List.filterMap_cons]
  cases given item <;> rfl

/-- Where only the first of several equal modes is kept, one more at the end is kept if it is new. -/
theorem eraseDups_append_toList (modes : List String) (last : Option String) :
    (modes ++ last.toList).eraseDups = last.elim modes.eraseDups (enlist modes.eraseDups) := by
  rcases last with - | mode
  · rw [Option.toList_none, List.append_nil]
    rfl
  · rw [Option.toList_some, List.eraseDups_append, Option.elim_some, enlist]
    by_cases known : mode ∈ modes
    · have nothing : [mode].removeAll modes = [] := by
        rw [List.removeAll, List.filter_cons_of_neg (by simpa using known), List.filter_nil]
      rw [if_pos (List.mem_eraseDups.mpr known), nothing, List.eraseDups_nil, List.append_nil]
    · have new : [mode].removeAll modes = [mode] := by
        rw [List.removeAll, List.filter_cons_of_pos (by simpa using known), List.filter_nil]
      rw [if_neg fun listed => known (List.mem_eraseDups.mp listed), new]
      rfl

/-! ### Steps -/

namespace Step

/-- The paths that the step puts in front of those of the mode. -/
def front (mode : String) : Step → List String
  | .prepend filled paths => if filled = mode then paths else []
  | .renormalize url => if Style.defaultMode = mode then defaultPaths url none else []
  | .append .. | .compile => []

/-- The paths that the step puts behind those of the mode. -/
def back (mode : String) : Step → List String
  | .append filled paths => if filled = mode then paths else []
  | .prepend .. | .renormalize _ | .compile => []

/-- What the step makes of each path that is there. -/
def rewrite : Step → String → String
  | .compile => Style.compiledPath
  | .append .. | .prepend .. | .renormalize _ => id

/-- The mode that the step gives paths to, if there are any. -/
def filled? : Step → Option String
  | .append mode paths | .prepend mode paths => filledMode? mode paths
  | .renormalize url => filledMode? Style.defaultMode (defaultPaths url none)
  | .compile => none

end Step

/-- A map that is written out and read again is the same map, with a single path in front of the default mode. -/
theorem WellFormed.step_renormalize (h : m.WellFormed) (url : Option String) :
    m.step (.renormalize url) = m.prepend Style.defaultMode (defaultPaths url none) := by
  show (ofEntries _).prepend _ _ = _
  rw [ofEntries_of_wellFormed h]
  rfl

/-- A step rewrites the paths of a mode, and puts others around them. -/
theorem WellFormed.pathsOf_step (h : m.WellFormed) (s : Step) (mode : String) :
    (m.step s).pathsOf mode = s.front mode ++ (m.pathsOf mode).map s.rewrite ++ s.back mode := by
  cases s with
  | append filled paths =>
    show (m.append filled paths).pathsOf mode = [] ++ (m.pathsOf mode).map id ++ _
    rw [pathsOf_append, List.map_id, List.nil_append]
    rfl
  | prepend filled paths =>
    show (m.prepend filled paths).pathsOf mode = _ ++ (m.pathsOf mode).map id ++ []
    rw [pathsOf_prepend, List.map_id, List.append_nil]
    rfl
  | compile =>
    show (m.mapPaths Style.compiledPath).pathsOf mode = [] ++ (m.pathsOf mode).map Style.compiledPath ++ []
    rw [pathsOf_mapPaths, List.nil_append, List.append_nil]
  | renormalize url =>
    show _ = _ ++ (m.pathsOf mode).map id ++ []
    rw [h.step_renormalize, pathsOf_prepend, List.map_id, List.append_nil]
    rfl

/-- A mode that a step gives paths to comes last if it is new. -/
theorem WellFormed.modes_step (h : m.WellFormed) (s : Step) :
    (m.step s).modes = s.filled?.elim m.modes (enlist m.modes) := by
  cases s with
  | append mode paths => exact modes_append m mode paths
  | prepend mode paths => exact modes_prepend m mode paths
  | compile => exact modes_mapPaths m Style.compiledPath
  | renormalize url =>
    rw [h.step_renormalize]
    exact modes_prepend m Style.defaultMode (defaultPaths url none)

/-! ### Runs -/

theorem run_append_singleton (steps : List Step) (s : Step) : run (steps ++ [s]) = (run steps).step s := by
  unfold run
  rw [List.foldl_append]
  rfl

/-- What the steps bring to one side, a list of paths for each of them.  A path is compiled as often as a later step
compiles. -/
def added (side : Step → List String) : List Step → List (List String)
  | [] => []
  | s :: later => (side s).map (Style.compiledPath^[later.count .compile]) :: added side later

/-- One step more rewrites what the others have brought. -/
theorem added_append_singleton (side : Step → List String) (steps : List Step) (s : Step) :
    added side (steps ++ [s]) = (added side steps).map (List.map s.rewrite) ++ [side s] := by
  have once (later : List Step) : Style.compiledPath^[(later ++ [s]).count .compile] =
      s.rewrite ∘ Style.compiledPath^[later.count .compile] := by
    rw [List.count_append, List.count_singleton]
    cases s with
    | compile => exact Function.iterate_succ' Style.compiledPath _
    | append | prepend | renormalize => rfl
  induction steps with
  | nil =>
    show [(side s).map id] = [side s]
    rw [List.map_id]
  | cons first later ih =>
    rw [List.cons_append, added, added, ih, once, List.map_cons, List.map_map, List.cons_append]

/-- The paths of a mode after a run: what has been put in front, the latest first, and then what has been put behind,
the earliest first. -/
theorem pathsOf_run (steps : List Step) (mode : String) :
    (run steps).pathsOf mode =
      (added (Step.front mode) steps).reverse.flatten ++ (added (Step.back mode) steps).flatten := by
  -- The step that comes last rewrites all that is there, and what it brings itself stands outermost.
  induction steps using List.reverseRecOn with
  | nil => rfl
  | append_singleton steps s ih =>
    rw [run_append_singleton, (wellFormed_run steps).pathsOf_step, ih, added_append_singleton, added_append_singleton,
      List.reverse_append, List.reverse_singleton, List.singleton_append, List.flatten_cons, List.flatten_append,
      List.flatten_singleton, ← List.map_reverse, ← List.map_flatten, ← List.map_flatten, List.map_append]
    simp only [List.append_assoc]

/-- The modes after a run: those that have been given paths, in the order in which they first were. -/
theorem modes_run (steps : List Step) : (run steps).modes = (steps.filterMap Step.filled?).eraseDups := by
  induction steps using List.reverseRecOn with
  | nil => rfl
  | append_singleton steps s ih =>
    rw [run_append_singleton, (wellFormed_run steps).modes_step, ih, filterMap_concat, eraseDups_append_toList]

/-- After any steps from the empty map a mode has the paths that have been put in front of it, the latest list first,
and then those that have been put behind it, the earliest list first, each compiled as often as a later step compiles.
It is not listed if there are none.  A step on one mode leaves the others alone, and the modes stand in the order in
which they were first given any paths. -/
theorem run_queues (steps : List Step) :
    (∀ mode, (run steps).get? mode =
        nonempty? ((added (Step.front mode) steps).reverse.flatten ++ (added (Step.back mode) steps).flatten)) ∧
      (∀ mode paths other, mode ≠ other →
        ((run steps).append mode paths).get? other = (run steps).get? other ∧
          ((run steps).prepend mode paths).get? other = (run steps).get? other) ∧
      (run steps).modes = (steps.filterMap Step.filled?).eraseDups := by
  refine ⟨fun mode => ?_, fun mode paths other differ => ?_, modes_run steps⟩
  · rw [(wellFormed_run steps).get?_eq, pathsOf_run]
  · exact ⟨get?_append_of_ne differ, get?_prepend_of_ne differ⟩

/-- Steps that put a directory at either end of a mode and compile it once and twice. -/
def twiceCompiled : List Step :=
  [.append "md" [], .append "ios" ["a/"], .compile, .prepend "md" ["b.x.scss"], .prepend "ios" ["c.scss", "a/"],
    .compile, .append "ios" ["a/"]]

/-- A name is made up for the directory as often as it is compiled.  The mode that is given nothing at first comes last,
and what is added to it later leaves the other one alone. -/
theorem run_queues_twiceCompiled :
    (run twiceCompiled).get? "ios" = some ["c.css", "a/.css", "a/.css.css", "a/"] ∧
      ((run twiceCompiled).prepend "md" ["d.scss"]).get? "ios" = (run twiceCompiled).get? "ios" ∧
      (run twiceCompiled).modes = ["ios", "md"] := by
  obtain ⟨queues, apart, order⟩ := run_queues twiceCompiled
  refine ⟨?_, (apart "md" ["d.scss"] "ios" (by decide)).2, ?_⟩
  · rw [queues]
    decide
  · rw [order]
    decide

end ModeMap

/-! ### Style sources -/

namespace Style

/-- The single path, unless it is blank. -/
def single (url : Option String) : List String :=
  (url.filter fun path => !Text.isBlank path).toList

theorem single_of_isBlank {path : String} (blank : Text.isBlank path = true) : single (some path) = [] := by
  simp [single, blank]

theorem single_of_visible {path : String} (visible : Text.isBlank path = false) : single (some path) = [path] := by
  simp [single, visible]

/-- The style sources as entries by mode.  A list is given for the default mode. -/
def byMode : Option Urls → List (String × Paths)
  | none => []
  | some (.list paths) => [(defaultMode, .many paths)]
  | some (.modes entries) => entries

/-- The paths that entries give to a mode, in their order. -/
def pathsFor (mode : String) (entries : List (String × Paths)) : List String :=
  entries.flatMap fun entry => if entry.1 = mode then entry.2.toList else []

/-- The modes that entries give paths to, once for each entry. -/
def filledModes (entries : List (String × Paths)) : List String :=
  entries.filterMap fun entry => ModeMap.filledMode? entry.1 entry.2.toList

/-- All paths of entries, in their order. -/
def allPaths (entries : List (String × Paths)) : List String :=
  entries.flatMap fun entry => entry.2.toList

end Style

namespace ModeMap

variable {entries : List (String × Style.Paths)}

theorem ofEntries_append_singleton (entries : List (String × Style.Paths)) (entry : String × Style.Paths) :
    ofEntries (entries ++ [entry]) = (ofEntries entries).append entry.1 entry.2.toList := by
  unfold ofEntries
  rw [List.foldl_append]
  rfl

theorem pathsOf_ofEntries (entries : List (String × Style.Paths)) (mode : String) :
    (ofEntries entries).pathsOf mode = Style.pathsFor mode entries := by
  unfold Style.pathsFor
  induction entries using List.reverseRecOn with
  | nil => rfl
  | append_singleton entries entry ih =>
    rw [ofEntries_append_singleton, pathsOf_append, ih, List.flatMap_append, List.flatMap_singleton]

theorem modes_ofEntries (entries : List (String × Style.Paths)) :
    (ofEntries entries).modes = (Style.filledModes entries).eraseDups := by
  unfold Style.filledModes
  induction entries using List.reverseRecOn with
  | nil => rfl
  | append_singleton entries entry ih =>
    rw [ofEntries_append_singleton, modes_append, ih, filterMap_concat, eraseDups_append_toList]

theorem perm_ofEntries (entries : List (String × Style.Paths)) :
    (ofEntries entries).allPaths.Perm (Style.allPaths entries) := by
  unfold Style.allPaths
  induction entries using List.reverseRecOn with
  | nil => exact .refl _
  | append_singleton entries entry ih =>
    rw [ofEntries_append_singleton, List.flatMap_append, List.flatMap_singleton]
    exact (perm_append _ _ _).trans (ih.append_right _)

/-- A list goes to the default mode as an entry for it would, so there is one way to put all sources together. -/
theorem ofSources_eq_prepend (url : Option String) (urls : Option Style.Urls) :
    ofSources url urls = (ofEntries (Style.byMode urls)).prepend Style.defaultMode (Style.single url) := by
  rcases urls with - | paths | entries
  · show (∅ : ModeMap).prepend Style.defaultMode (Style.single url ++ []) = _
    rw [List.append_nil]
    rfl
  · show (∅ : ModeMap).prepend Style.defaultMode (Style.single url ++ paths) =
      ((∅ : ModeMap).append Style.defaultMode paths).prepend Style.defaultMode (Style.single url)
    by_cases noList : paths = []
    · rw [noList, append_nil, List.append_nil]
    · have both : Style.single url ++ paths ≠ [] := List.append_ne_nil_of_right_ne_nil _ noList
      rw [prepend_of_ne_nil both, append_of_ne_nil noList]
      by_cases noSingle : Style.single url = []
      · rw [noSingle, prepend_nil, List.nil_append]
        exact congrArg (fun all => ModeMap.mk [(Style.defaultMode, all)]) (List.append_nil paths)
      · rw [prepend_of_ne_nil noSingle]
        simp [alterEntries]
  · show (ofEntries entries).prepend Style.defaultMode (Style.single url ++ []) = _
    rw [List.append_nil]
    rfl

theorem pathsOf_ofSources (url : Option String) (urls : Option Style.Urls) (mode : String) :
    (ofSources url urls).pathsOf mode =
      (if mode = Style.defaultMode then Style.single url else []) ++ Style.pathsFor mode (Style.byMode urls) := by
  rw [ofSources_eq_prepend, pathsOf_prepend, pathsOf_ofEntries]
  simp only [eq_comm (a := mode)]

theorem modes_ofSources (url : Option String) (urls : Option Style.Urls) :
    (ofSources url urls).modes =
      (Style.filledModes (Style.byMode urls) ++
        (filledMode? Style.defaultMode (Style.single url)).toList).eraseDups := by
  rw [ofSources_eq_prepend, modes_prepend, modes_ofEntries, eraseDups_append_toList]

theorem perm_ofSources (url : Option String) (urls : Option Style.Urls) :
    (ofSources url urls).allPaths.Perm (Style.single url ++ Style.allPaths (Style.byMode urls)) := by
  rw [ofSources_eq_prepend]
  exact (perm_prepend _ _ _).trans ((perm_ofEntries _).append_left _)

theorem get?_ofSources (url : Option String) (urls : Option Style.Urls) (mode : String) :
    (ofSources url urls).get? mode =
      nonempty? ((if mode = Style.defaultMode then Style.single url else []) ++
        Style.pathsFor mode (Style.byMode urls)) := by
  rw [(wellFormed_ofSources url urls).get?_eq, pathsOf_ofSources]

/-- The map of all style sources.  The default mode has the single path, unless that is blank, and then what is given
for it, as a list or by mode, and each other mode has what is given for it, in the order written.  A mode is listed if
there are any paths for it, and the modes stand in the order in which they are first given one, with the default mode
last if only the single path is given for it.  So the single path reaches no other mode, and no path is lost or
doubled. -/
theorem ofSources_collects (url : Option String) (urls : Option Style.Urls) :
    let m := ofSources url urls
    let entries := Style.byMode urls
    let given (mode : String) : List String :=
      (if mode = Style.defaultMode then Style.single url else []) ++ Style.pathsFor mode entries
    (∀ mode, m.get? mode = nonempty? (given mode)) ∧
      (∀ mode, mode ∈ m.modes ↔ given mode ≠ []) ∧
      m.modes = (Style.filledModes entries ++ (filledMode? Style.defaultMode (Style.single url)).toList).eraseDups ∧
      (∀ mode, mode ≠ Style.defaultMode → m.get? mode = (ofSources none urls).get? mode) ∧
      m.allPaths.Perm (Style.single url ++ Style.allPaths entries) := by
  intro m entries given
  have get (mode : String) : m.get? mode = nonempty? (given mode) := get?_ofSources url urls mode
  refine ⟨get, fun mode => ?_, modes_ofSources url urls, fun mode other => ?_, perm_ofSources url urls⟩
  · rw [← get?_isSome_iff, get, isSome_nonempty?_iff]
  · have alone : (ofSources none urls).get? mode = nonempty? (Style.pathsFor mode entries) := by
      rw [get?_ofSources, if_neg other, List.nil_append]
    rw [get, alone]
    show nonempty? ((if mode = Style.defaultMode then _ else []) ++ _) = _
    rw [if_neg other, List.nil_append]

/-- Sources with two modes that come again, one of them empty at first, and with the default mode between them. -/
def repeatedModes : Style.Urls :=
  .modes [("md", .many []), ("ios", .one "b.scss"), ("$", .many ["c.scss"]), ("md", .many ["d.scss"]),
    ("ios", .many ["", "e.scss"])]

/-- The default mode stays where it is first given a path, with the single path in front. -/
theorem ofSources_collects_repeatedModes :
    let m := ofSources (some "a.scss") (some repeatedModes)
    m.get? "$" = some ["a.scss", "c.scss"] ∧ m.get? "ios" = some ["b.scss", "", "e.scss"] ∧
      m.get? "ios" = (ofSources none (some repeatedModes)).get? "ios" ∧ m.modes = ["ios", "$", "md"] := by
  intro m
  obtain ⟨get, -, order, apart, -⟩ := ofSources_collects (some "a.scss") (some repeatedModes)
  refine ⟨?_, ?_, apart "ios" (by decide), ?_⟩
  · exact (get "$").trans (by decide)
  · exact (get "ios").trans (by decide)
  · exact order.trans (by decide)

end ModeMap
end ComponentHoist

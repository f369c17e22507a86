import ComponentHoist.Proofs.Evaluation
import ComponentHoist.Proofs.PathsByMode

/-!
# ComponentHoist.Proofs.RepeatedModes — modes that are written down more than once

When an object literal is evaluated, of two properties with one name the later one counts.  Of the style sources by
mode all count, so that a mode that is written down twice has the paths of both.

* `Entry.pathsIn`: the paths that a member of the literal gives to a mode when it is evaluated.
* `Entry.lastPaths`: those of the last member that defines the mode.
* `Entry.flatMap_pathsIn_eq_lastPaths_iff`: when it is the same to take them all or only the last ones.
* `Expr.mode_eq_evaluated_iff`: when a mode has the paths that its property has at run time.
-/

namespace ComponentHoist

/-! ### Paths at run time -/

namespace Value

/-- The text, if the value is one. -/
def text? : Value → Option String
  | string text => some text
  | _ => none

/-- The paths for which a value stands: a text is one of them, and a list of texts is a list of them. -/
def paths : Value → List String
  | string path => [path]
  | list items => items.filterMap text?
  | _ => []

theorem paths_toValue (paths : Style.Paths) : paths.toValue.paths = paths.toList := by
  cases paths with
  | one path => rfl
  | many paths =>
    show (paths.map string).filterMap text? = paths
    rw [List.filterMap_map]
    exact List.filterMap_some

end Value

namespace Entry

variable (env : Environment) (mode : String)

/-- The paths that a member gives to a mode. -/
def pathsIn (entry : Entry) : List String :=
  ((entry.defines env mode).map Value.paths).getD []

/-- The paths that the property of a mode stands for in the end. -/
def lastPaths (entries : List Entry) : List String :=
  ((Entry.lookup env entries mode).map Value.paths).getD []

variable {env mode} {entry : Entry} {entries : List Entry}

theorem lookup_eq_none_iff :
    Entry.lookup env entries mode = none ↔ ∀ entry ∈ entries, entry.defines env mode = none := by
  induction entries with
  | nil => exact iff_of_true rfl fun _ mem => absurd mem List.not_mem_nil
  | cons entry entries ih => rw [lookup, Option.or_eq_none_iff, ih, List.forall_mem_cons, and_comm]

theorem exists_defines_of_lookup {value : Value} (found : Entry.lookup env entries mode = some value) :
    ∃ entry ∈ entries, entry.defines env mode ≠ none := by
  by_contra silent
  have nothing : ∀ entry ∈ entries, entry.defines env mode = none := fun entry mem => by
    by_contra defines
    exact silent ⟨entry, mem, defines⟩
  rw [lookup_eq_none_iff.mpr nothing] at found
  cases found

theorem pathsIn_of_defines_eq_none (nothing : entry.defines env mode = none) : entry.pathsIn env mode = [] := by
  rw [pathsIn, nothing]
  rfl

/-- If no later member defines the mode, then it is up to the first one. -/
theorem lastPaths_cons_of_none (entry : Entry) (nothing : Entry.lookup env entries mode = none) :
    lastPaths env mode (entry :: entries) = entry.pathsIn env mode ∧
      entries.flatMap (pathsIn env mode) = [] := by
  refine ⟨?_, List.flatMap_eq_nil_iff.mpr fun later mem => ?_⟩
  · rw [lastPaths, lookup, nothing, Option.none_or]
    rfl
  · exact pathsIn_of_defines_eq_none (lookup_eq_none_iff.mp nothing later mem)

/-- If a later member defines the mode, then the first one does not count. -/
theorem lastPaths_cons_of_some {value : Value} (found : Entry.lookup env entries mode = some value) :
    lastPaths env mode (entry :: entries) = lastPaths env mode entries := by
  rw [lastPaths, lookup, found, Option.some_or, lastPaths, found]

/-- The paths of the last member that defines a mode come behind those of all others. -/
theorem lastPaths_suffix (entries : List Entry) :
    lastPaths env mode entries <:+ entries.flatMap (pathsIn env mode) := by
  induction entries with
  | nil => exact List.suffix_rfl
  | cons entry entries ih =>
    rw [List.flatMap_cons]
    cases found : Entry.lookup env entries mode with
    | none =>
      obtain ⟨last, nothing⟩ := lastPaths_cons_of_none entry found
      rw [last, nothing, List.append_nil]
    | some value =>
      rw [lastPaths_cons_of_some found]
      exact ih.trans (List.suffix_append _ _)

/-- Nothing can stand in front of the paths of all members if the last ones are to be the same. -/
theorem append_eq_lastPaths_iff (front : List String) (entries : List Entry) :
    front ++ entries.flatMap (pathsIn env mode) = lastPaths env mode entries ↔
      front = [] ∧ entries.flatMap (pathsIn env mode) = lastPaths env mode entries := by
  constructor
  · intro same
    have within : (lastPaths env mode entries).length ≤ (entries.flatMap (pathsIn env mode)).length :=
      (lastPaths_suffix entries).length_le
    have empty : front = [] := by
      rw [← same, List.length_append] at within
      exact List.eq_nil_of_length_eq_zero (by omega)
    rw [empty, List.nil_append] at same
    exact ⟨empty, same⟩
  · rintro ⟨empty, same⟩
    rw [empty, List.nil_append, same]

/-- It is the same to take the paths of all members or only those of the last one that defines the mode, if and only if
each member that is overridden gives no paths. -/
theorem flatMap_pathsIn_eq_lastPaths_iff :
    entries.flatMap (pathsIn env mode) = lastPaths env mode entries ↔
      entries.Pairwise fun earlier later => later.defines env mode ≠ none → earlier.pathsIn env mode = [] := by
  induction entries with
  | nil => exact iff_of_true rfl List.Pairwise.nil
  | cons entry entries ih =>
    rw [List.flatMap_cons, List.pairwise_cons, ← ih]
    cases found : Entry.lookup env entries mode with
    | none =>
      -- No later member defines the mode, so the first one is not overridden.
      obtain ⟨last, nothing⟩ := lastPaths_cons_of_none entry found
      have none_left : lastPaths env mode entries = [] := by
        rw [lastPaths, found]
        rfl
      rw [last, nothing, List.append_nil, none_left]
      refine iff_of_true rfl ⟨fun later mem defines => ?_, rfl⟩
      exact absurd (lookup_eq_none_iff.mp found later mem) defines
    | some value =>
      obtain ⟨later, mem, defines⟩ := exists_defines_of_lookup found
      have overridden : (∀ later ∈ entries, later.defines env mode ≠ none → entry.pathsIn env mode = []) ↔
          entry.pathsIn env mode = [] :=
        ⟨fun empty => empty later mem defines, fun empty _ _ _ => empty⟩
      rw [lastPaths_cons_of_some found, overridden, append_eq_lastPaths_iff]

/-- A member that is read as a mode gives its paths to that mode and to no other. -/
theorem pathsIn_of_modeEntry? {given : String × Style.Paths} (read : Expr.modeEntry? entry = some given)
    (plain : entry.setsPrototype = false) :
    entry.pathsIn env mode = if given.1 = mode then given.2.toList else [] := by
  rw [pathsIn, Expr.defines_of_modeEntry? env read plain]
  by_cases same : given.1 = mode
  · rw [if_pos same, if_pos same, Option.map_some, Value.paths_toValue]
    rfl
  · rw [if_neg same, if_neg same]
    rfl

theorem flatMap_pathsIn_of_mapM {modes : List (String × Style.Paths)}
    (read : entries.mapM Expr.modeEntry? = some modes) (plain : ∀ entry ∈ entries, entry.setsPrototype = false) :
    entries.flatMap (pathsIn env mode) = Style.pathsFor mode modes := by
  rw [mapM_eq_some_iff] at read
  unfold Style.pathsFor
  induction read with
  | nil => rfl
  | cons first _ ih =>
    obtain ⟨plainFirst, plainRest⟩ := List.forall_mem_cons.mp plain
    rw [List.flatMap_cons, List.flatMap_cons, pathsIn_of_modeEntry? first plainFirst, ih plainRest]

end Entry

/-! ### Maps of modes that are read from a literal -/

namespace Expr

variable {e : Expr} {span : Span} {entries : List Entry} {urls : Style.Urls}

/-- In the map a mode has the paths of all properties with its name. -/
theorem get?_ofSources_of_literal (literal : e.unwrap = .object span entries) (read : e.staticUrls? = some urls)
    (plain : ∀ entry ∈ entries, entry.setsPrototype = false) (env : Environment) (mode : String) :
    (ModeMap.ofSources none (some urls)).get? mode =
      ModeMap.nonempty? (entries.flatMap (Entry.pathsIn env mode)) := by
  unfold staticUrls? at read
  rw [literal] at read
  obtain ⟨modes, each, rfl⟩ := Option.map_eq_some_iff.mp read
  have nothing : (if mode = Style.defaultMode then Style.single none else []) = [] := ite_self []
  rw [ModeMap.get?_ofSources, nothing, List.nil_append, Entry.flatMap_pathsIn_of_mapM each plain]
  rfl

/-- A mode has the paths of all properties with its name, and it is listed if there are any.  These are the paths that
its property has when the literal is evaluated, of which there may be none, if and only if each property with its name
that a later one overrides is an empty list. -/
theorem mode_eq_evaluated_iff (e : Expr) (literal : e.unwrap = .object span entries)
    (read : e.staticUrls? = some urls) (plain : ∀ entry ∈ entries, entry.setsPrototype = false) (env : Environment)
    (mode : String) :
    let m := ModeMap.ofSources none (some urls)
    let evaluated := (((e.eval env).properties mode).map Value.paths).getD []
    m.get? mode = ModeMap.nonempty? (entries.flatMap (Entry.pathsIn env mode)) ∧
      (m.get? mode = ModeMap.nonempty? evaluated ↔
        entries.Pairwise fun earlier later => later.defines env mode ≠ none → earlier.pathsIn env mode = []) := by
  intro m evaluated
  have all : m.get? mode = ModeMap.nonempty? (entries.flatMap (Entry.pathsIn env mode)) :=
    get?_ofSources_of_literal literal read plain env mode
  have last : evaluated = Entry.lastPaths env mode entries := by
    show (((e.eval env).properties mode).map Value.paths).getD [] = _
    rw [← eval_unwrap, literal, eval]
    rfl
  refine ⟨all, ?_⟩
  rw [all, last, ModeMap.nonempty?_injective.eq_iff]
  exact Entry.flatMap_pathsIn_eq_lastPaths_iff

/-- A style source in a property of an object of modes. -/
def modeProperty (start : Nat) (mode : String) (value : Expr) : Entry :=
  .property ⟨start, value.span.stop⟩ (.label (.bare mode)) .plain value

/-- The first property of a mode is an empty list, and between it and the other stands one of another mode. -/
theorem mode_eq_evaluated_iff_emptyFirst :
    let entries := [modeProperty 2 "ios" (.array ⟨7, 9⟩ []), modeProperty 11 "md" (.string ⟨15, 22⟩ "c.css"),
      modeProperty 24 "ios" (.array ⟨29, 38⟩ [.string ⟨30, 37⟩ "b.css"])]
    let e := Expr.object ⟨0, 40⟩ entries
    ∃ urls, e.staticUrls? = some urls ∧
      ∀ env, (ModeMap.ofSources none (some urls)).get? "ios" =
        ModeMap.nonempty? ((((e.eval env).properties "ios").map Value.paths).getD []) := by
  intro entries e
  refine ⟨_, rfl, fun env => ?_⟩
  have plain : ∀ entry ∈ entries, entry.setsPrototype = false := by
    simp [entries, modeProperty, Entry.setsPrototype, Label.text]
  obtain ⟨-, agrees⟩ := mode_eq_evaluated_iff e rfl rfl plain env "ios"
  -- What stands in front of another property gives no path to the mode, whether it has its name or not.
  have first : (modeProperty 2 "ios" (.array ⟨7, 9⟩ [])).pathsIn env "ios" = [] := rfl
  have second : (modeProperty 11 "md" (.string ⟨15, 22⟩ "c.css")).pathsIn env "ios" = [] := rfl
  refine agrees.mpr (.cons (fun _ _ _ => first) (.cons (fun _ _ _ => second) (List.pairwise_singleton _ _)))

/-- Of a mode that is written down twice both paths are kept, although the property has only the second one. -/
theorem overriddenPath_kept :
    let e := Expr.object ⟨0, 34⟩
      [modeProperty 2 "ios" (.string ⟨7, 14⟩ "a.css"), modeProperty 16 "ios" (.string ⟨21, 28⟩ "b.css")]
    ∃ urls, e.staticUrls? = some urls ∧
      (ModeMap.ofSources none (some urls)).get? "ios" = some ["a.css", "b.css"] ∧
      ∀ env, (e.eval env).properties "ios" = some (.string "b.css") := by
  exact ⟨_, rfl, by decide, fun env => rfl⟩

end Expr
end ComponentHoist

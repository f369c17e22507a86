import ComponentHoist.Style.Source
import Mathlib.Data.List.Forall2

/-!
# ComponentHoist.Proofs.ModeMap — maps in which each mode is listed once and has a path

* `lookup_eq_some_iff_mem`: looking up where no key is listed twice.
* `ModeMap.WellFormed`: what all maps keep to that are put together from style sources.
* `ModeMap.WellFormed.append`, `ModeMap.WellFormed.prepend`, `ModeMap.WellFormed.mapPaths`: what one operation keeps.
* `ModeMap.Reachable`: what the operations put together from the empty map, all of it well-formed.
* `ModeMap.wellFormed_ofEntries`, `ModeMap.wellFormed_ofSources`: what is left in the end.
* `ModeMap.ofSources_ofModeMap`: a map that is listed by mode and put together again is the same map.
* `ModeMap.forall₂_compiled`: the compiled map goes side by side with its source.
-/

namespace ComponentHoist

section

variable {α β : Type} [BEq α] [LawfulBEq α] {entries : List (α × β)} {key first : α} {value : β}

theorem mem_of_lookup (found : entries.lookup key = some value) : (key, value) ∈ entries := by
  obtain ⟨before, after, split, -⟩ := List.lookup_eq_some_iff.mp found
  rw [split]
  exact List.mem_append_right before List.mem_cons_self

theorem lookup_cons_of_ne (other : key ≠ first) : ((first, value) :: entries).lookup key = entries.lookup key := by
  rw [List.lookup_cons, beq_false_of_ne other]

/-- Where no key is listed twice, looking up a key gives what stands beside it. -/
theorem lookup_eq_some_iff_mem (nodup : (entries.map Prod.fst).Nodup) :
    entries.lookup key = some value ↔ (key, value) ∈ entries := by
  constructor
  · exact mem_of_lookup
  · intro listed
    rw [List.lookup_eq_some_iff]
    obtain ⟨before, after, split⟩ := List.append_of_mem listed
    refine ⟨before, after, split, fun entry earlier => ?_⟩
    have distinct : (before.map Prod.fst ++ key :: after.map Prod.fst).Nodup := by
      rwa [split, List.map_append, List.map_cons] at nodup
    have other : entry.1 ≠ key :=
      (List.nodup_append.mp distinct).2.2 entry.1 (List.mem_map_of_mem earlier) key List.mem_cons_self
    exact bne_iff_ne.mpr other.symm

end

namespace ModeMap

variable {m : ModeMap} {mode : String} {f : List String → List String}

/-- Whether no mode is listed twice and none without a path. -/
structure WellFormed (m : ModeMap) : Prop where
  nodup : m.modes.Nodup
  nonempty : ∀ entry ∈ m.entries, entry.2 ≠ []

/-! ### Altering one mode -/

/-- A mode that is altered stays in its place, and a new one comes last. -/
theorem map_fst_alterEntries (entries : List (String × List String)) :
    (alterEntries mode f entries).map Prod.fst =
      if mode ∈ entries.map Prod.fst then entries.map Prod.fst else entries.map Prod.fst ++ [mode] := by
  induction entries with
  | nil => simp [alterEntries]
  | cons entry rest ih =>
    obtain ⟨first, paths⟩ := entry
    by_cases same : first = mode
    · subst same
      simp [alterEntries]
    · have later : mode ∈ first :: rest.map Prod.fst ↔ mode ∈ rest.map Prod.fst := by
        rw [List.mem_cons, or_iff_right (Ne.symm same)]
      rw [alterEntries, if_neg same, List.map_cons, List.map_cons, ih]
      by_cases listed : mode ∈ rest.map Prod.fst
      · rw [if_pos listed, if_pos (later.mpr listed)]
      · rw [if_neg listed, if_neg fun h => listed (later.mp h), List.cons_append]

theorem mem_alterEntries {entries : List (String × List String)} {entry : String × List String}
    (h : entry ∈ alterEntries mode f entries) : entry ∈ entries ∨ ∃ paths, entry.2 = f paths := by
  induction entries with
  | nil =>
    obtain rfl := List.mem_singleton.mp h
    exact .inr ⟨[], rfl⟩
  | cons first rest ih =>
    rw [alterEntries] at h
    split at h
    · rcases List.mem_cons.mp h with rfl | h
      · exact .inr ⟨first.2, rfl⟩
      · exact .inl (List.mem_cons_of_mem _ h)
    · rcases List.mem_cons.mp h with rfl | h
      · exact .inl List.mem_cons_self
      · exact (ih h).imp_left (List.mem_cons_of_mem _)

namespace WellFormed

theorem empty : (∅ : ModeMap).WellFormed :=
  ⟨List.nodup_nil, fun _ h => absurd h List.not_mem_nil⟩

theorem alter (h : m.WellFormed) (fills : ∀ paths, f paths ≠ []) :
    (⟨alterEntries mode f m.entries⟩ : ModeMap).WellFormed := by
  refine ⟨?_, fun entry hentry => ?_⟩
  · rw [modes, map_fst_alterEntries]
    split
    · exact h.nodup
    · next absent =>
      refine List.nodup_append.mpr ⟨h.nodup, by simp, fun a ha b hb => ?_⟩
      obtain rfl := List.mem_singleton.mp hb
      rintro rfl
      exact absent ha
  · rcases mem_alterEntries hentry with old | ⟨paths, altered⟩
    · exact h.nonempty entry old
    · rw [altered]
      exact fills paths

theorem append (h : m.WellFormed) (mode : String) (paths : List String) : (m.append mode paths).WellFormed := by
  unfold ModeMap.append
  split
  · exact h
  · next given => exact h.alter fun old => List.append_ne_nil_of_right_ne_nil old (by simpa using given)

theorem prepend (h : m.WellFormed) (mode : String) (paths : List String) : (m.prepend mode paths).WellFormed := by
  unfold ModeMap.prepend
  split
  · exact h
  · next given => exact h.alter fun old => List.append_ne_nil_of_left_ne_nil (by simpa using given) old

theorem mapPaths (h : m.WellFormed) (g : String → String) : (m.mapPaths g).WellFormed := by
  refine ⟨?_, fun entry hentry => ?_⟩
  · rw [modes_mapPaths]
    exact h.nodup
  · obtain ⟨old, hold, rfl⟩ := List.mem_map.mp hentry
    rw [Ne, List.map_eq_nil_iff]
    exact h.nonempty old hold

end WellFormed

/-! ### What the operations reach -/

/-- The maps that are put together from the empty one by the operations on maps. -/
inductive Reachable : ModeMap → Prop where
  | empty : Reachable ∅
  | append {m : ModeMap} (h : Reachable m) (mode : String) (paths : List String) : Reachable (m.append mode paths)
  | prepend {m : ModeMap} (h : Reachable m) (mode : String) (paths : List String) : Reachable (m.prepend mode paths)
  | mapPaths {m : ModeMap} (h : Reachable m) (g : String → String) : Reachable (m.mapPaths g)

theorem Reachable.wellFormed (h : m.Reachable) : m.WellFormed := by
  induction h with
  | empty => exact .empty
  | append _ mode paths ih => exact ih.append mode paths
  | prepend _ mode paths ih => exact ih.prepend mode paths
  | mapPaths _ g ih => exact ih.mapPaths g

/-! ### Maps of style sources -/

theorem wellFormed_ofEntries (entries : List (String × Style.Paths)) : (ofEntries entries).WellFormed := by
  refine List.foldlRecOn entries _ WellFormed.empty fun m h entry _ => ?_
  exact h.append entry.1 entry.2.toList

theorem wellFormed_ofSources (url : Option String) (urls : Option Style.Urls) : (ofSources url urls).WellFormed := by
  refine WellFormed.prepend ?_ _ _
  split
  · next entries => exact wellFormed_ofEntries entries
  · exact .empty

theorem alterEntries_of_not_mem {entries : List (String × List String)} (fresh : mode ∉ entries.map Prod.fst) :
    alterEntries mode f entries = entries ++ [(mode, f [])] := by
  induction entries with
  | nil => rfl
  | cons entry rest ih =>
    have other : entry.1 ≠ mode := fun same => fresh (same ▸ List.mem_cons_self)
    have later : mode ∉ rest.map Prod.fst := fun listed => fresh (List.mem_cons_of_mem _ listed)
    rw [alterEntries, if_neg other, ih later, List.cons_append]

theorem append_of_not_mem {paths : List String} (fresh : mode ∉ m.modes) (given : paths ≠ []) :
    m.append mode paths = ⟨m.entries ++ [(mode, paths)]⟩ := by
  have filled : ¬paths.isEmpty := by rwa [List.isEmpty_iff]
  rw [ModeMap.append, if_neg filled, alterEntries_of_not_mem fresh, List.nil_append]

/-- New modes that all have paths are added as they stand. -/
theorem foldl_append_of_fresh (entries : List (String × List String)) (m : ModeMap)
    (distinct : (m.modes ++ entries.map Prod.fst).Nodup) (given : ∀ entry ∈ entries, entry.2 ≠ []) :
    entries.foldl (fun m entry => m.append entry.1 entry.2) m = ⟨m.entries ++ entries⟩ := by
  induction entries generalizing m with
  | nil => rw [List.foldl_nil, List.append_nil]
  | cons entry rest ih =>
    have fresh : entry.1 ∉ m.modes := fun listed =>
      (List.nodup_append.mp distinct).2.2 _ listed _ List.mem_cons_self rfl
    have step : m.append entry.1 entry.2 = ⟨m.entries ++ [entry]⟩ :=
      append_of_not_mem fresh (given entry List.mem_cons_self)
    have distinct' : ((⟨m.entries ++ [entry]⟩ : ModeMap).modes ++ rest.map Prod.fst).Nodup := by
      rw [modes, List.map_append, List.append_assoc]
      exact distinct
    rw [List.foldl_cons, step, ih _ distinct' fun later h => given later (List.mem_cons_of_mem _ h),
      List.append_assoc, List.singleton_append]

/-- The entries of a well-formed map give it back. -/
theorem ofEntries_of_wellFormed (h : m.WellFormed) :
    ofEntries (m.entries.map fun (mode, paths) => (mode, .many paths)) = m := by
  rw [ofEntries, List.foldl_map]
  exact foldl_append_of_fresh m.entries ∅ h.nodup h.nonempty

theorem ofSources_ofModeMap (h : m.WellFormed) : ofSources none (some (.ofModeMap m)) = m := by
  -- There is neither a single path nor a list, so nothing is put in front.
  have nothing : defaultPaths none (some (.ofModeMap m)) = [] := rfl
  show (ofEntries _).prepend _ _ = m
  rw [nothing, ofEntries_of_wellFormed h]
  rfl

/-- The compiled map has the modes of its source in their order, and for each path that of its sheet. -/
theorem forall₂_compiled (m : ModeMap) :
    List.Forall₂
      (fun source sheet => sheet.1 = source.1 ∧
        List.Forall₂ (fun path compiled => compiled = Style.compiledPath path) source.2 sheet.2)
      m.entries m.compiled.entries := by
  rw [compiled, ModeMap.mapPaths, List.forall₂_map_right_iff, List.forall₂_same]
  intro source _
  refine ⟨rfl, ?_⟩
  rw [List.forall₂_map_right_iff, List.forall₂_same]
  exact fun _ _ => rfl

end ModeMap
end ComponentHoist

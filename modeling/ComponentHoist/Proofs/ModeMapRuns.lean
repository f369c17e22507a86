import ComponentHoist.Declaration
import ComponentHoist.Proofs.ModeMap
import ComponentHoist.Proofs.Quoted
import Mathlib.Data.Finset.Card

/-!
# ComponentHoist.Proofs.ModeMapRuns — what holds of a map of modes after any run of operations

A map is put together step by step: paths are added at either end of a mode, all paths are compiled, and the map is
written out by mode and read again, possibly with a single path more.

* `ModeMap.Step`, `ModeMap.run`: the steps, and what a list of them makes of the empty map.
* `ModeMap.WellFormed.step`: a step keeps to it that no mode is listed twice and none without a path.
* `ModeMap.wellFormed_run`: so does a run.
* `ModeMap.WellFormed.get?_eq_some_iff`, `ModeMap.WellFormed.toJson_keys`: what follows for looking up a mode and for
  the JSON object.
* `ModeMap.run_listsModesOnce`: all of it together.
-/

namespace ComponentHoist
namespace ModeMap

variable {m : ModeMap} {mode : String} {paths : List String}

/-! ### Steps and runs -/

/-- An operation on a map. -/
inductive Step where
  | append (mode : String) (paths : List String)
  | prepend (mode : String) (paths : List String)
  | compile
  /-- The map is given as the style sources by mode, beside a single path. -/
  | renormalize (url : Option String)
deriving DecidableEq, Repr

/-- The map after the step. -/
def step (m : ModeMap) : Step → ModeMap
  | .append mode paths => m.append mode paths
  | .prepend mode paths => m.prepend mode paths
  | .compile => m.compiled
  | .renormalize url => ofSources url (some (.ofModeMap m))

/-- What the steps make of the empty map. -/
def run (steps : List Step) : ModeMap :=
  steps.foldl step ∅

theorem WellFormed.step (h : m.WellFormed) (s : Step) : (m.step s).WellFormed := by
  cases s with
  | append mode paths => exact h.append mode paths
  | prepend mode paths => exact h.prepend mode paths
  | compile => exact h.mapPaths _
  | renormalize url => exact wellFormed_ofSources url _

theorem wellFormed_run (steps : List Step) : (run steps).WellFormed :=
  List.foldlRecOn steps step WellFormed.empty fun _ h s _ => h.step s

/-! ### What a well-formed map answers -/

theorem get?_isSome_iff : (m.get? mode).isSome = true ↔ mode ∈ m.modes := by
  rw [get?, List.lookup_isSome_iff, modes, List.mem_map]
  simp only [beq_iff_eq, eq_comm (a := mode)]

/-- Looking up a mode gives the paths that stand beside it. -/
theorem WellFormed.get?_eq_some_iff (h : m.WellFormed) : m.get? mode = some paths ↔ (mode, paths) ∈ m.entries :=
  lookup_eq_some_iff_mem h.nodup

theorem WellFormed.size_eq_card (h : m.WellFormed) : m.size = m.modes.toFinset.card := by
  rw [List.toFinset_card_of_nodup h.nodup, modes, List.length_map]
  rfl

/-- The keys of the JSON object are the modes, and no two of them are written alike. -/
theorem WellFormed.toJson_keys (h : m.WellFormed) :
    ∃ members, m.toJson = .object members ∧ members.map Prod.fst = m.modes ∧
      (members.map fun member => Json.quote member.1).Nodup := by
  have keys : (m.entries.map fun entry => (entry.1, Json.strings entry.2)).map Prod.fst = m.modes := by
    rw [List.map_map]
    rfl
  refine ⟨_, rfl, keys, ?_⟩
  have written : (m.modes.map Json.quote).Nodup := h.nodup.map Json.quote_injective
  rwa [← keys, List.map_map] at written

/-- After any steps from the empty map, no mode is listed twice and none without a path.  So the size of the map is the
number of different modes, a mode has paths if and only if it is listed, and its JSON object has each key once. -/
theorem run_listsModesOnce (steps : List Step) :
    let m := run steps
    m.modes.Nodup ∧ (∀ entry ∈ m.entries, entry.2 ≠ []) ∧
      m.size = m.modes.toFinset.card ∧
      (∀ mode, (m.get? mode).isSome = true ↔ mode ∈ m.modes) ∧
      (∀ mode paths, m.get? mode = some paths ↔ (mode, paths) ∈ m.entries) ∧
      ∃ members, m.toJson = .object members ∧ members.map Prod.fst = m.modes ∧
        (members.map fun member => Json.quote member.1).Nodup := by
  intro m
  have wellFormed : m.WellFormed := wellFormed_run steps
  exact ⟨wellFormed.nodup, wellFormed.nonempty, wellFormed.size_eq_card, fun _ => get?_isSome_iff,
    fun _ _ => wellFormed.get?_eq_some_iff, wellFormed.toJson_keys⟩

/-- Steps that give the default mode a path before and after it is listed, and a mode nothing at all. -/
def mixedSteps : List Step :=
  [.append "md" [], .append "ios" ["a.scss"], .renormalize (some "b.scss"), .prepend "ios" ["", "c.sass"],
    .append "$" ["d.scss"], .compile, .renormalize (some "e.scss"), .renormalize (some " ")]

/-- Nothing is lost of the paths, and the mode without any is not listed. -/
theorem run_listsModesOnce_mixedSteps :
    (run mixedSteps).entries = [("ios", [".css", "c.css", "a.css"]), ("$", ["e.scss", "b.css", "d.css"])] ∧
      (run mixedSteps).size = (run mixedSteps).modes.toFinset.card ∧
      (run mixedSteps).get? "$" = some ["e.scss", "b.css", "d.css"] ∧ ((run mixedSteps).get? "md").isSome = false := by
  obtain ⟨-, -, size, isSome, get, -⟩ := run_listsModesOnce mixedSteps
  have entries : (run mixedSteps).entries =
      [("ios", [".css", "c.css", "a.css"]), ("$", ["e.scss", "b.css", "d.css"])] := by decide
  have unlisted : "md" ∉ (run mixedSteps).modes := by decide
  refine ⟨entries, size, ?_, ?_⟩
  · rw [get, entries]
    exact List.mem_cons_of_mem _ List.mem_cons_self
  · rw [← Bool.not_eq_true, isSome]
    exact unlisted

end ModeMap
end ComponentHoist

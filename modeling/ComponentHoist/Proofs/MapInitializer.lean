import ComponentHoist.Proofs.Evaluation
import ComponentHoist.Proofs.ModeMapRuns
import ComponentHoist.Proofs.ReadBack

/-!
# ComponentHoist.Proofs.MapInitializer — what the written maps evaluate to

The paths by mode are written as an object literal whose keys are the modes in quotes.  When it is evaluated, each mode
becomes a property of the object, except for one: `"__proto__": [..]` sets the prototype instead, in quotes as well.

* `Value.Holds`: an object whose own properties are the modes of a map, each with the list of its paths.
* `Expr.prototypes`: the values that an object literal gives the object as its prototype.
* `Literal.lookup_memberOf`, `Literal.filterMap_prototype?_memberOf`: the members that write the modes, by induction.
* `Literal.ofModeMap_evaluates`: the object holds the map without the mode `__proto__`, whose paths become the
  prototype.  So it holds the map itself if and only if that mode is not listed.
-/

namespace ComponentHoist

/-- The name under which a plain property sets the prototype of an object. -/
def prototypeName : String :=
  "__proto__"

/-! ### Objects that hold a map -/

/-- The value of a list of paths. -/
def Value.ofPaths (paths : List String) : Value :=
  .list (paths.map .string)

/-- Whether the value is an object whose own properties are the modes of the map, each with the list of its paths. -/
structure Value.Holds (value : Value) (m : ModeMap) : Prop where
  isObject : ∃ get, value = .object get
  modes : ∀ mode, value.properties mode ≠ none ↔ mode ∈ m.modes
  paths : ∀ entry ∈ m.entries, value.properties entry.1 = some (.ofPaths entry.2)

namespace ModeMap

variable {m : ModeMap} {mode : String}

/-- The map without a mode. -/
def without (m : ModeMap) (mode : String) : ModeMap :=
  ⟨m.entries.filter fun entry => entry.1 ≠ mode⟩

theorem WellFormed.without (h : m.WellFormed) (mode : String) : (m.without mode).WellFormed where
  nodup := h.nodup.sublist (List.filter_sublist.map Prod.fst)
  nonempty entry mem := h.nonempty entry (List.mem_of_mem_filter mem)

theorem not_mem_modes_without (m : ModeMap) (mode : String) : mode ∉ (m.without mode).modes := by
  intro listed
  obtain ⟨entry, kept, same⟩ := List.mem_map.mp listed
  exact (of_decide_eq_true (List.mem_filter.mp kept).2) same

theorem without_of_not_mem (fresh : mode ∉ m.modes) : m.without mode = m := by
  have all : ∀ entry ∈ m.entries, decide (entry.1 ≠ mode) = true := fun entry mem =>
    decide_eq_true fun same => fresh (same ▸ List.mem_map_of_mem mem)
  exact congrArg ModeMap.mk (List.filter_eq_self.mpr all)

/-- An object holds a well-formed map if its properties are what looking up the modes gives. -/
theorem WellFormed.holds (h : m.WellFormed) {get : String → Option Value}
    (same : ∀ mode, get mode = (m.get? mode).map .ofPaths) : (Value.object get).Holds m where
  isObject := ⟨get, rfl⟩
  modes mode := by
    show get mode ≠ none ↔ _
    rw [same, ne_eq, Option.map_eq_none_iff, ← ne_eq, Option.ne_none_iff_isSome, get?_isSome_iff]
  paths entry mem := by
    show get entry.1 = _
    rw [same, h.get?_eq_some_iff.mpr mem]
    rfl

end ModeMap

/-! ### Members that write modes -/

/-- The value that a member of an object literal gives the object as its prototype. -/
def Entry.prototype? (env : Environment) : Entry → Option Value
  | .property span key form value =>
    if (Entry.property span key form value).setsPrototype then some (value.eval env) else none
  | .spread .. => none

/-- The values that an object literal gives the object as its prototype.  More than one of them are an error. -/
def Expr.prototypes (env : Environment) : Expr → List Value
  | .object _ entries => entries.filterMap (Entry.prototype? env)
  | _ => []

namespace Literal

/-- The member that writes a mode with its paths. -/
def memberOf (entry : String × List String) : Entry :=
  .property .synthesized (.label (.quoted entry.1)) .plain (ofStrings entry.2).toExpr

variable (env : Environment) {entries : List (String × List String)}

theorem toExpr_ofModeMap (m : ModeMap) : (ofModeMap m).toExpr = .object .synthesized (m.entries.map memberOf) := by
  rw [ofModeMap, toExpr, toEntries_eq_map, List.map_map]
  rfl

theorem eval_ofStrings (paths : List String) : (ofStrings paths).toExpr.eval env = .ofPaths paths :=
  Expr.eval_of_staticStrings? env (staticStrings?_ofStrings paths)

theorem setsPrototype_memberOf (entry : String × List String) :
    (memberOf entry).setsPrototype = (entry.1 == prototypeName) := rfl

theorem prototype?_memberOf (entry : String × List String) :
    (memberOf entry).prototype? env = if entry.1 = prototypeName then some (.ofPaths entry.2) else none := by
  rw [memberOf, Entry.prototype?, ← memberOf, setsPrototype_memberOf, eval_ofStrings]
  simp only [beq_iff_eq]

theorem defines_memberOf (entry : String × List String) (name : String) :
    (memberOf entry).defines env name =
      if entry.1 = prototypeName then none else if entry.1 = name then some (.ofPaths entry.2) else none := by
  by_cases special : entry.1 = prototypeName
  · rw [if_pos special, memberOf, Entry.defines, ← memberOf, setsPrototype_memberOf, special, beq_self_eq_true]
    rfl
  · have plain : (memberOf entry).setsPrototype = false := beq_false_of_ne special
    rw [if_neg special, memberOf, Entry.defines_property env plain, eval_ofStrings, Key.nameIn]
    simp only [Label.text, Option.some.injEq]

theorem lookup_eq_none_of_fresh {key : String} (fresh : key ∉ entries.map Prod.fst) : entries.lookup key = none :=
  List.lookup_eq_none_iff.mpr fun _ mem => bne_iff_ne.mpr fun same => fresh (same ▸ List.mem_map_of_mem mem)

/-- Of the members that write different modes, those apart from the special name define what stands beside them. -/
theorem lookup_memberOf (nodup : (entries.map Prod.fst).Nodup) (name : String) :
    Entry.lookup env (entries.map memberOf) name =
      ((entries.filter fun entry => entry.1 ≠ prototypeName).lookup name).map .ofPaths := by
  induction entries with
  | nil => rfl
  | cons entry entries ih =>
    obtain ⟨mode, paths⟩ := entry
    obtain ⟨fresh, nodup⟩ := List.nodup_cons.mp nodup
    rw [List.map_cons, Entry.lookup, ih nodup, defines_memberOf]
    by_cases special : mode = prototypeName
    · rw [if_pos special, Option.or_none, List.filter_cons_of_neg (by simpa using special)]
    · rw [if_neg special, List.filter_cons_of_pos (by simpa using special)]
      by_cases same : mode = name
      · have later : (entries.filter fun entry => entry.1 ≠ prototypeName).lookup mode = none :=
          lookup_eq_none_of_fresh fun kept => fresh ((List.filter_sublist.map Prod.fst).subset kept)
        rw [← same, later, if_pos rfl, List.lookup_cons_self]
        rfl
      · rw [if_neg same, Option.or_none, lookup_cons_of_ne (Ne.symm same)]

/-- Of the members that write different modes, the one with the special name gives the prototype. -/
theorem filterMap_prototype?_memberOf (nodup : (entries.map Prod.fst).Nodup) :
    (entries.map memberOf).filterMap (Entry.prototype? env) =
      ((entries.lookup prototypeName).map Value.ofPaths).toList := by
  induction entries with
  | nil => rfl
  | cons entry entries ih =>
    obtain ⟨mode, paths⟩ := entry
    obtain ⟨fresh, nodup⟩ := List.nodup_cons.mp nodup
    rw [List.map_cons, List.filterMap_cons, prototype?_memberOf, ih nodup]
    by_cases special : mode = prototypeName
    · rw [if_pos special, ← special, lookup_eq_none_of_fresh fresh, List.lookup_cons_self]
      rfl
    · rw [if_neg special, lookup_cons_of_ne (Ne.symm special)]

end Literal

/-! ### The whole initializer -/

namespace Literal

/-- The object that is written for a map holds all modes but the special one, each with its paths, and the paths of the
special one become its prototype.  So it holds the map if and only if the special mode is not listed. -/
theorem ofModeMap_evaluates {m : ModeMap} (reached : m.Reachable) (env : Environment) :
    let written := (ofModeMap m).toExpr
    (written.eval env).Holds (m.without prototypeName) ∧
      written.prototypes env = ((m.get? prototypeName).map Value.ofPaths).toList ∧
      ((written.eval env).Holds m ↔ prototypeName ∉ m.modes) := by
  intro written
  have wellFormed : m.WellFormed := reached.wellFormed
  have value : written.eval env = .object (Entry.lookup env (m.entries.map memberOf)) := by
    show (ofModeMap m).toExpr.eval env = _
    rw [toExpr_ofModeMap, Expr.eval]
  have holds : (written.eval env).Holds (m.without prototypeName) := by
    rw [value]
    exact (wellFormed.without prototypeName).holds (lookup_memberOf env wellFormed.nodup)
  refine ⟨holds, ?_, fun whole listed => ?_, fun fresh => ?_⟩
  · show (ofModeMap m).toExpr.prototypes env = _
    rw [toExpr_ofModeMap]
    exact filterMap_prototype?_memberOf env wellFormed.nodup
  · have defined := (whole.modes prototypeName).mpr listed
    exact m.not_mem_modes_without prototypeName ((holds.modes prototypeName).mp defined)
  · rwa [ModeMap.without_of_not_mem fresh] at holds

/-- Modes of other names that objects know, and an empty one, are held whatever stands in front of them. -/
theorem ofModeMap_evaluates_knownNames :
    let plain : ModeMap := ((∅ : ModeMap).append "constructor" ["a.css"]).append "" ["b.css", "", "b.css"]
    let special : ModeMap := plain.prepend "__proto__" ["d.css"]
    plain.Reachable ∧ special.Reachable ∧
      ∀ env, ((ofModeMap plain).toExpr.eval env).Holds plain ∧ ((ofModeMap special).toExpr.eval env).Holds plain ∧
        (ofModeMap special).toExpr.prototypes env = [.ofPaths ["d.css"]] := by
  intro plain special
  have reached : plain.Reachable :=
    (ModeMap.Reachable.empty.append "constructor" ["a.css"]).append "" ["b.css", "", "b.css"]
  have reached' : special.Reachable := reached.prepend "__proto__" ["d.css"]
  refine ⟨reached, reached', fun env => ⟨(ofModeMap_evaluates reached env).2.2.mpr (by decide), ?_⟩⟩
  obtain ⟨holds, prototype, -⟩ := ofModeMap_evaluates reached' env
  have left : special.without prototypeName = plain := by decide
  rw [left] at holds
  exact ⟨holds, prototype⟩

/-- A mode of the special name is no property of the object that is written for it. -/
theorem prototypeMode_lost :
    let m : ModeMap := (∅ : ModeMap).append "__proto__" ["a.css"]
    m.Reachable ∧ m.get? "__proto__" = some ["a.css"] ∧
      ∀ env, ((ofModeMap m).toExpr.eval env).properties "__proto__" = none ∧
        ¬((ofModeMap m).toExpr.eval env).Holds m := by
  intro m
  refine ⟨ModeMap.Reachable.empty.append "__proto__" ["a.css"], by decide, fun env => ?_⟩
  have lost : ((ofModeMap m).toExpr.eval env).properties "__proto__" = none := rfl
  exact ⟨lost, fun holds => (holds.modes "__proto__").mpr (by decide) lost⟩

end Literal
end ComponentHoist

import ComponentHoist.Literal
import ComponentHoist.Options
import ComponentHoist.Proofs.ModeMap

/-!
# ComponentHoist.Proofs.ReadBack — literals are read back as what they write

The values of static members are written as expressions, and the options of a component are read from expressions.
What is written for a text, a list of texts or the paths by mode is read back by the reader of that shape.

* `Literal.staticString?_string`, `Literal.staticStrings?_ofStrings`, `Literal.staticPaths?_ofStrings`,
  `Literal.staticUrls?_ofModeMap`: one reader each.
* `Literal.toExpr_readBack`: all of them, and for the maps that the operations reach the way back to the map itself.
-/

namespace ComponentHoist
namespace Literal

/-- Reading each written item of a list gives the items as they are read one by one. -/
theorem mapM_map_eq_some {α β γ : Type} {write : α → β} {read : β → Option γ} {back : α → γ}
    (reads : ∀ a, read (write a) = some (back a)) (items : List α) :
    (items.map write).mapM read = some (items.map back) := by
  induction items with
  | nil => rfl
  | cons item items ih =>
    rw [List.map_cons, List.mapM_cons, reads, ih]
    rfl

theorem staticString?_string (text : String) : (string text).toExpr.staticString? = some text := rfl

theorem staticStrings?_ofStrings (texts : List String) : (ofStrings texts).toExpr.staticStrings? = some texts := by
  have written : toElements (texts.map string) = texts.map fun text => (string text).toExpr := by
    rw [toElements_eq_map, List.map_map]
    rfl
  show (toElements (texts.map string)).mapM Expr.staticString? = some texts
  rw [written, mapM_map_eq_some staticString?_string, List.map_id']

theorem staticPaths?_ofStrings (texts : List String) :
    (ofStrings texts).toExpr.staticPaths? = some (.many texts) := by
  -- An array is no text, so it is read as a list even if it has a single item.
  have noText : (ofStrings texts).toExpr.staticString? = none := rfl
  rw [Expr.staticPaths?, noText, staticStrings?_ofStrings]
  rfl

theorem modeEntry?_ofStrings (entry : String × List String) :
    Expr.modeEntry? (.property .synthesized (.label (.quoted entry.1)) .plain (ofStrings entry.2).toExpr) =
      some (entry.1, .many entry.2) := by
  have name : (Key.label (.quoted entry.1)).name? = some entry.1 := rfl
  rw [Expr.modeEntry?, name, staticPaths?_ofStrings]
  rfl

theorem staticUrls?_ofModeMap (m : ModeMap) : (ofModeMap m).toExpr.staticUrls? = some (.ofModeMap m) := by
  have written : toEntries (m.entries.map fun entry => (entry.1, ofStrings entry.2)) = m.entries.map fun entry =>
      .property .synthesized (.label (.quoted entry.1)) .plain (ofStrings entry.2).toExpr := by
    rw [toEntries_eq_map, List.map_map]
    rfl
  show ((toEntries (m.entries.map fun entry => (entry.1, ofStrings entry.2))).mapM Expr.modeEntry?).map _ = _
  rw [written, mapM_map_eq_some modeEntry?_ofStrings]
  rfl

/-- The expressions that write texts, lists of texts and paths by mode are read back as what they write, whatever the
texts and the names of the modes are.  What is read back for a map that the operations reach is that map again. -/
theorem toExpr_readBack :
    (∀ text : String, (string text).toExpr.staticString? = some text) ∧
      (∀ texts : List String, (ofStrings texts).toExpr.staticStrings? = some texts) ∧
      ∀ m : ModeMap, m.Reachable →
        ∃ urls, (ofModeMap m).toExpr.staticUrls? = some urls ∧
          urls = .modes (m.entries.map fun (mode, paths) => (mode, .many paths)) ∧
          ModeMap.ofSources none (some urls) = m := by
  refine ⟨staticString?_string, staticStrings?_ofStrings, fun m reached => ?_⟩
  have again : ModeMap.ofSources none (some (.ofModeMap m)) = m := ModeMap.ofSources_ofModeMap reached.wellFormed
  exact ⟨.ofModeMap m, staticUrls?_ofModeMap m, rfl, again⟩

/-- No mode name is special: neither an empty one, nor one of quotes, a backslash and a line break, nor one that
objects give a meaning of their own. -/
theorem toExpr_readBack_of_awkward_modes :
    let m : ModeMap :=
      (((∅ : ModeMap).append "" ["a.css"]).append "\x22\x27\\\n" ["", "b.css"]).prepend "__proto__" ["ä.css"]
    m.modes = ["", "\x22\x27\\\n", "__proto__"] ∧
      ∃ urls, (ofModeMap m).toExpr.staticUrls? = some urls ∧
        urls = .modes (m.entries.map fun (mode, paths) => (mode, .many paths)) ∧
        ModeMap.ofSources none (some urls) = m := by
  refine ⟨by decide, toExpr_readBack.2.2 _ ?_⟩
  exact ((ModeMap.Reachable.empty.append "" ["a.css"]).append _ ["", "b.css"]).prepend "__proto__" ["ä.css"]

end Literal
end ComponentHoist

import ComponentHoist.Style.ModeMap
import ComponentHoist.Style.Path
import ComponentHoist.Text.Blank

/-!
# ComponentHoist.Style.Source — the shapes in which style sources are given

A component names its style sources as one path (`styleUrl`), as a list, or by mode.

* `Style.Urls`: the shapes of the second and third kind.
* `ModeMap.ofSources`: one map for all of them.  A single path goes to the default mode, in front of the list.
* `ModeMap.compiled`: the same map with every path replaced by that of its compiled sheet.
-/

namespace ComponentHoist
namespace Style

/-- The mode of the sources that are not bound to a mode. -/
def defaultMode : String :=
  "$"

/-- What is given for one mode: a path or a list of them. -/
inductive Paths where
  | one (path : String)
  | many (paths : List String)
deriving DecidableEq, Repr

/-- The paths as a list. -/
def Paths.toList : Paths → List String
  | .one path => [path]
  | .many paths => paths

/-- Style sources as a list for the default mode, or by mode in the order written. -/
inductive Urls where
  | list (paths : List String)
  | modes (entries : List (String × Paths))
deriving DecidableEq, Repr

/-- The sources by mode that make up a map. -/
def Urls.ofModeMap (m : ModeMap) : Urls :=
  .modes (m.entries.map fun (mode, paths) => (mode, .many paths))

end Style

namespace ModeMap

/-- Adds each entry's paths behind those that its mode has so far. -/
def ofEntries (entries : List (String × Style.Paths)) : ModeMap :=
  entries.foldl (fun m (mode, paths) => m.append mode paths.toList) ∅

/-- The paths for the default mode: the single path, unless it is blank, and then the list. -/
def defaultPaths (url : Option String) (urls : Option Style.Urls) : List String :=
  (url.filter fun path => !Text.isBlank path).toList ++
    match urls with
    | some (.list paths) => paths
    | _ => []

/-- The map of all style sources of a component. -/
def ofSources (url : Option String) (urls : Option Style.Urls) : ModeMap :=
  let byMode := match urls with
    | some (.modes entries) => ofEntries entries
    | _ => ∅
  byMode.prepend Style.defaultMode (defaultPaths url urls)

/-- The map of the compiled style sheets. -/
def compiled (m : ModeMap) : ModeMap :=
  m.mapPaths Style.compiledPath

end ModeMap
end ComponentHoist

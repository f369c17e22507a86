/-!
# ComponentHoist.Style.ModeMap — style paths by mode

A `ModeMap` lists the style paths of each mode.  Modes stand in the order in which they first received a path, and
only `append` and `prepend` add any; both do nothing with an empty list, so no mode is listed without a path.
-/

namespace ComponentHoist

/-- The style paths of each mode, the modes in the order in which they first received one. -/
structure ModeMap where
  /-- Each mode with its paths. -/
  entries : List (String × List String)
deriving DecidableEq, Repr

namespace ModeMap

instance : EmptyCollection ModeMap :=
  ⟨⟨[]⟩⟩

instance : Inhabited ModeMap :=
  ⟨∅⟩

/-- The number of modes. -/
def size (m : ModeMap) : Nat :=
  m.entries.length

/-- Whether no mode is listed. -/
def isEmpty (m : ModeMap) : Bool :=
  m.entries.isEmpty

/-- The modes in their order. -/
def modes (m : ModeMap) : List String :=
  m.entries.map Prod.fst

/-- The paths of `mode`, if it is listed. -/
def get? (m : ModeMap) (mode : String) : Option (List String) :=
  m.entries.lookup mode

/-- Replaces the paths of the first entry for `mode` by `f` of them.  Without an entry, one with `f []` is added at
the end. -/
def alterEntries (mode : String) (f : List String → List String) :
    List (String × List String) → List (String × List String)
  | [] => [(mode, f [])]
  | (m, paths) :: rest => if m = mode then (m, f paths) :: rest else (m, paths) :: alterEntries mode f rest

/-- Puts `paths` behind those of `mode`. -/
def append (m : ModeMap) (mode : String) (paths : List String) : ModeMap :=
  if paths.isEmpty then m else ⟨alterEntries mode (· ++ paths) m.entries⟩

/-- Puts `paths` in front of those of `mode`. -/
def prepend (m : ModeMap) (mode : String) (paths : List String) : ModeMap :=
  if paths.isEmpty then m else ⟨alterEntries mode (paths ++ ·) m.entries⟩

/-- Applies `f` to every path. -/
def mapPaths (m : ModeMap) (f : String → String) : ModeMap :=
  ⟨m.entries.map fun (mode, paths) => (mode, paths.map f)⟩

@[simp] theorem entries_empty : (∅ : ModeMap).entries = [] := rfl

theorem modes_mapPaths (m : ModeMap) (f : String → String) : (m.mapPaths f).modes = m.modes := by
  simp [modes, mapPaths, Function.comp_def]

end ModeMap
end ComponentHoist

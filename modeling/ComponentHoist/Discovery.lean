import ComponentHoist.FileTree
import ComponentHoist.Pass

/-!
# ComponentHoist.Discovery — the sources of a project

* `findSources`: the paths of the source files at or below a root, in the order of their components.  Directories of
  installed packages are not entered, and declaration files do not count.
* `transformFile`, `transformDirectory`: the output for a file, and for all source files below a root.
-/

namespace ComponentHoist

/-- The directory that holds installed packages. -/
def packagesDirectory : Name :=
  "node_modules"

/-- Whether a file of the given name is a source of components. -/
def isSourceName (name : Name) : Bool :=
  let extension := FileName.extension? name
  (Text.ofUtf8? name).isSome && !(Text.utf8 ".d.ts").isSuffixOf name &&
    (extension == some (Text.utf8 "ts") || extension == some (Text.utf8 "tsx"))

namespace FileTree

mutual

/-- The places of the source files in a tree of the given name, each as the names below it. -/
def sources (name : Name) : FileTree → List (List Name)
  | file _ => if isSourceName name then [[]] else []
  | directory entries => if name = packagesDirectory then [] else entrySources entries

/-- The places of the source files in the entries of a directory. -/
def entrySources : List (Name × FileTree) → List (List Name)
  | [] => []
  | (name, t) :: rest => (sources name t).map (name :: ·) ++ entrySources rest

end

end FileTree

/-- The name of a root: the one that its path ends in, and for a path that ends in no name the path. -/
def rootName (root : PathName) : Name :=
  root.lastName?.getD root.bytes

/-- The paths of the sources at or below `root`, in the order of their components. -/
def findSources (root : PathName) (fs : FileSystem) : List PathName :=
  match fs.resolve root with
  | .ok found => ((found.sources (rootName root)).mergeSort fun a b => !decide (b < a)).map root.join
  | .error _ => []

/-- The text of the file at a path. -/
def readText (path : PathName) (fs : FileSystem) : Except ReadFailure String :=
  match fs.resolve path with
  | .ok (.file content) =>
    match String.fromUTF8? content with
    | some text => .ok text
    | none => .error .invalidText
  | .ok (.directory _) => .error .isDirectory
  | .error .missing => .error .notFound
  | .error .throughFile => .error .notDirectory

/-- The output for the file at a path. -/
def transformFile (parse : Parser) (config : Config) (path : PathName) (fs : FileSystem) :
    Except TransformError Output := do
  let source ← (readText path fs).mapError (.read path.shown)
  transformSource parse config path.shown source

/-- The outputs for the sources at or below a root.  Files that cannot be read or parsed are passed over. -/
def transformDirectory (parse : Parser) (config : Config) (root : PathName) (fs : FileSystem) : List Output :=
  (findSources root fs).filterMap fun path => (transformFile parse config path fs).toOption

/-- The outputs for the sources at or below a root, under the settings in a text. -/
def transformDirectoryWithSettings (parse : Parser) (settings : String) (root : PathName) (fs : FileSystem) :
    Except TransformError (List Output) := do
  return transformDirectory parse (← readConfig settings) root fs

end ComponentHoist

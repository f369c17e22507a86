import ComponentHoist.FileName

/-!
# ComponentHoist.Style.Path — where a style source is compiled to

A compiled style sheet lies beside its source and has its base name, with the extension `css`.
-/

namespace ComponentHoist
namespace Style

/-- Whether the character separates the components of a path. -/
def isSeparator (c : Char) : Bool :=
  c == '/' || c == '\\'

/-- The directory part, up to and including the last separator, and the last component. -/
def splitDirectory : List Char → List Char × List Char
  | [] => ([], [])
  | c :: cs =>
    match splitDirectory cs with
    | ([], name) => if isSeparator c then ([c], name) else ([], c :: name)
    | (directory, name) => (c :: directory, name)

/-- The path of the style sheet compiled from the source at `path`. -/
def compiledPath (path : String) : String :=
  let (directory, name) := splitDirectory path.toList
  String.ofList (directory ++ FileName.base name ++ ".css".toList)

end Style
end ComponentHoist

import ComponentHoist.Hoisting
import ComponentHoist.PathName
import ComponentHoist.Syntax.Printer
import ComponentHoist.Syntax.Visit

/-!
# ComponentHoist.Pass — from a source text to its output

* `Program.transform`: the module in which all classes are transformed where they stand, with the reports and the
  declarations added to a ledger in the order of the visit.
* `transformSource`: the output for a source text.  How a text is parsed is left to the caller.
-/

namespace ComponentHoist

/-! ### The pass over a module -/

/-- Transforms all classes of a module.  The exports are those of the module as it was written. -/
def Program.transform (config : Config) (p : Program) : StateM Ledger Program :=
  p.sweep (Class.transform config p.exports)

/-! ### Outputs -/

/-- What the pass gives for a file. -/
structure Output where
  filePath : String
  code : String
  components : List Declaration
  diagnostics : List Diagnostic

/-- Whether a report means failure. -/
def Output.hasErrors (output : Output) : Bool :=
  output.diagnostics.any Diagnostic.isError

/-- The ledger of a file in which nothing has been visited yet. -/
def Ledger.start (path : String) : Ledger :=
  { reports := { file := path } }

/-- The output for a parsed module. -/
def Program.output (config : Config) (path source : String) (p : Program) : Output :=
  let (transformed, ledger) := (p.transform config).run (Ledger.start path)
  { filePath := path
    code := transformed.print
    components := ledger.components
    diagnostics := (ledger.reports.resolve source).items }

/-! ### Source texts -/

/-- A parser of modules.  It is told whether markup elements are allowed, and gives nothing for a text with errors. -/
abbrev Parser := Bool → String → Option Program

/-- Whether markup elements are allowed in the file at `path`. -/
def allowsMarkup (path : String) : Bool :=
  let extension := PathName.extension? path
  extension == some (Text.utf8 "tsx") || extension == some (Text.utf8 "jsx")

/-- Why a file could not be read. -/
inductive ReadFailure where
  | notFound
  | notDirectory
  | isDirectory
  | invalidText
deriving DecidableEq, Repr

/-- The words for the failure. -/
def ReadFailure.text : ReadFailure → String
  | notFound => "No such file or directory (os error 2)"
  | notDirectory => "Not a directory (os error 20)"
  | isDirectory => "Is a directory (os error 21)"
  | invalidText => "stream did not contain valid UTF-8"

/-- Why there is no output. -/
inductive TransformError where
  /-- The settings cannot be read. -/
  | config (fault : Json.Fault)
  /-- The source has errors. -/
  | parse (path : String)
  /-- The file cannot be read. -/
  | read (path : String) (failure : ReadFailure)
deriving DecidableEq, Repr

/-- The words for a file that cannot be read. -/
def readMessage (path : String) (failure : ReadFailure) : String :=
  s!"Failed to read {path}: {failure.text}"

/-- The output for the source text of a file. -/
def transformSource (parse : Parser) (config : Config) (path source : String) : Except TransformError Output :=
  match parse (allowsMarkup path) source with
  | some p => .ok (p.output config path source)
  | none => .error (.parse path)

/-- The settings in a text, or why there are none. -/
def readConfig (text : String) : Except TransformError Config :=
  (Config.ofText text).mapError .config

/-- The output for the source text of a file, under the settings in another text. -/
def transformWithSettings (parse : Parser) (settings path source : String) : Except TransformError Output := do
  transformSource parse (← readConfig settings) path source

end ComponentHoist

import ComponentHoist.Config
import ComponentHoist.Style.Source
import ComponentHoist.Tag
import ComponentHoist.Diagnostic
import ComponentHoist.Decimal.Numeral
import ComponentHoist.Syntax.Tree
import ComponentHoist.Syntax.Quoted
import ComponentHoist.Syntax.Visit
import ComponentHoist.Syntax.Form
import ComponentHoist.Syntax.Markup
import ComponentHoist.Syntax.Printer
import ComponentHoist.Literal
import ComponentHoist.Options
import ComponentHoist.Exports
import ComponentHoist.Validation
import ComponentHoist.Declaration
import ComponentHoist.Hoisting
import ComponentHoist.Pass
import ComponentHoist.Discovery
import ComponentHoist.Proofs.Visit
import ComponentHoist.Proofs.Nesting
import ComponentHoist.Proofs.Transform
import ComponentHoist.Proofs.Classwise
import ComponentHoist.Proofs.Exports
import ComponentHoist.Proofs.SingleExport
import ComponentHoist.Proofs.TypeOnly
import ComponentHoist.Proofs.Hoisting
import ComponentHoist.Proofs.Fusion
import ComponentHoist.Proofs.Idempotence
import ComponentHoist.Proofs.Canonical
import ComponentHoist.Proofs.BareDecorator
import ComponentHoist.Proofs.ValueExports
import ComponentHoist.Proofs.ModeMap
import ComponentHoist.Proofs.ReadBack
import ComponentHoist.Proofs.Location
import ComponentHoist.Proofs.Accounting
import ComponentHoist.Proofs.Testing
import ComponentHoist.Proofs.Evaluation
import ComponentHoist.Proofs.StaticOptions
import ComponentHoist.Proofs.Normal
import ComponentHoist.Proofs.Members
import ComponentHoist.Proofs.Quoted
import ComponentHoist.Proofs.ModeMapRuns
import ComponentHoist.Proofs.ElementName
import ComponentHoist.Proofs.Cursor
import ComponentHoist.Proofs.Collector
import ComponentHoist.Proofs.PathOrder
import ComponentHoist.Proofs.FileTree
import ComponentHoist.Proofs.PathPlace
import ComponentHoist.Proofs.Discovery
import ComponentHoist.Proofs.NewFile
import ComponentHoist.Proofs.BoundNames
import ComponentHoist.Proofs.ConfigText
import ComponentHoist.Proofs.ExportForms
import ComponentHoist.Proofs.StatementOrder
import ComponentHoist.Proofs.OwnExports
import ComponentHoist.Proofs.Overloads
import ComponentHoist.Proofs.OptionShapes
import ComponentHoist.Proofs.Wrapping
import ComponentHoist.Proofs.PathsByMode
import ComponentHoist.Proofs.RepeatedModes
import ComponentHoist.Proofs.FileName
import ComponentHoist.Proofs.SheetPath
import ComponentHoist.Proofs.CompiledTwice
import ComponentHoist.Proofs.CompiledSources
import ComponentHoist.Proofs.SourceShapes
import ComponentHoist.Proofs.TagGrammar
import ComponentHoist.Proofs.MapInitializer
import ComponentHoist.Proofs.CodeUnits
import ComponentHoist.Proofs.JsonGrammar
import ComponentHoist.Proofs.Tokens
import ComponentHoist.Proofs.SkippedValue
import ComponentHoist.Proofs.SettingTexts
import ComponentHoist.Proofs.WrittenSettings
import ComponentHoist.Proofs.ConfigForms

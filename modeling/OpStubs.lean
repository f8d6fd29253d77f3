import OpStubs.Disk
import OpStubs.Main
import OpStubs.Proofs.Generation
import OpStubs.Proofs.Lua.Lexer
import OpStubs.Proofs.Lua.Literal
import OpStubs.Proofs.Lua.Reading
import OpStubs.Proofs.Lua.PrintRead
import OpStubs.Proofs.Compilation
import OpStubs.Proofs.DocLines
import OpStubs.Proofs.Identifier
import OpStubs.Proofs.Lua.DefaultLiteral
import OpStubs.Proofs.StubSafe
import OpStubs.Proofs.Lua.Semantics
import OpStubs.Proofs.Contract
import OpStubs.Proofs.Lua.Evaluation
import OpStubs.Proofs.Helpers
import OpStubs.Proofs.Settings
import OpStubs.Proofs.Lua.Locals
import OpStubs.Proofs.Execution
import OpStubs.Proofs.TextFormat.Grammar
import OpStubs.Proofs.TextFormat.Writing
import OpStubs.Proofs.Parameters
import OpStubs.Proofs.Hygiene
import OpStubs.Proofs.DocComment
import OpStubs.Proofs.Locality
import OpStubs.Proofs.TextFormat.Offender
import OpStubs.Proofs.FloatDefault
import OpStubs.Proofs.EmptyText
import OpStubs.Proofs.Command.Checking
import OpStubs.Proofs.Command.DocsFolder
import OpStubs.Proofs.Diff.Patch
import OpStubs.Proofs.Command.ConfigFlags
import OpStubs.Proofs.WordSplitting
import OpStubs.Proofs.AttributeLayout
import OpStubs.Proofs.TrailingDefaults
import OpStubs.Proofs.Segmentation
import OpStubs.Proofs.DocLayout
import OpStubs.Proofs.TextFormat.Severing
import OpStubs.Proofs.TextFormat.SplitString
import OpStubs.Proofs.TextFormat.Escaping
import OpStubs.Proofs.TextFormat.Partition
import OpStubs.Proofs.TextFormat.Places
import OpStubs.Proofs.TextFormat.Layout
import OpStubs.Proofs.TextFormat.FieldOrder
import OpStubs.Proofs.TextFormat.ProblemPlace
import OpStubs.Proofs.Underscores
import OpStubs.Proofs.FunctionName
import OpStubs.Proofs.Lua.Indentation
import OpStubs.Proofs.Annotation
import OpStubs.Proofs.FloatLiteral
import OpStubs.Proofs.Lua.ShortString
import OpStubs.Proofs.DocBlanks
import OpStubs.Proofs.IntegerDefault

import CodeBridge.Access
import CodeBridge.Decimal.Double
import CodeBridge.Decimal.Reading
import CodeBridge.Decimal.Shortest
import CodeBridge.Decimal.Written
import CodeBridge.Digest.Sha256
import CodeBridge.Emit.Conversion
import CodeBridge.Emit.Dataclasses
import CodeBridge.Emit.Header
import CodeBridge.Emit.Printers
import CodeBridge.Emit.Sources
import CodeBridge.Emit.Style
import CodeBridge.Emit.Texts
import CodeBridge.Example
import CodeBridge.Fault
import CodeBridge.Folder
import CodeBridge.Header.Classes
import CodeBridge.Header.Definitions
import CodeBridge.Header.Line
import CodeBridge.Header.Reader
import CodeBridge.Header.Rendering
import CodeBridge.Initializer.Evaluation
import CodeBridge.Initializer.Expression
import CodeBridge.Initializer.Number
import CodeBridge.Initializer.Token
import CodeBridge.Json.Access
import CodeBridge.Json.Basic
import CodeBridge.Json.Reader
import CodeBridge.Json.Text
import CodeBridge.Macro
import CodeBridge.Main
import CodeBridge.Measure.Coverage
import CodeBridge.Measure.Plateau
import CodeBridge.Measure.Profile
import CodeBridge.Measure.RepoTime
import CodeBridge.Measure.Round
import CodeBridge.Measure.SelfCheck
import CodeBridge.Measure.Subject
import CodeBridge.Measure.Table
import CodeBridge.Measure.Verdict
import CodeBridge.Name.Snake
import CodeBridge.Proofs.Characters
import CodeBridge.Sample.Basic
import CodeBridge.Sample.Fingerprint
import CodeBridge.Schema.Basic
import CodeBridge.Schema.Primitive
import CodeBridge.Schema.Spelling
import CodeBridge.Template
import CodeBridge.Text.Align
import CodeBridge.Text.Blank
import CodeBridge.Text.Digit
import CodeBridge.Text.Escape
import CodeBridge.Text.Letter
import CodeBridge.Text.Lines
import CodeBridge.Text.Printable
import CodeBridge.Text.Quoted
import CodeBridge.Text.Span
import CodeBridge.Text.Word
import CodeBridge.Value
import CodeBridge.Workload.All
import CodeBridge.Workload.Basic
import CodeBridge.Workload.Files
import CodeBridge.Workload.Generation
import CodeBridge.Workload.Naming
import CodeBridge.Workload.Schemas
import CodeBridge.Workload.Writing
import CodeBridge.Writer
import CodeBridge.Proofs.Numerals
import CodeBridge.Proofs.Writing
import CodeBridge.Proofs.HeaderLines
import CodeBridge.Proofs.HeaderEntries
import CodeBridge.Proofs.HeaderReading
import CodeBridge.Proofs.HeaderContents
import CodeBridge.Proofs.Tags
import CodeBridge.Proofs.HeaderRoundTrip
import CodeBridge.Proofs.TypeNames
import CodeBridge.Proofs.MacroLines
import CodeBridge.Proofs.StructFilling
import CodeBridge.Proofs.IntegerCasts
import CodeBridge.Proofs.MemberFilling
import CodeBridge.Proofs.Levels
import CodeBridge.Proofs.Acceptance
import CodeBridge.Proofs.Sessions
import CodeBridge.Proofs.Places
import CodeBridge.Proofs.Pipeline
import CodeBridge.Proofs.PrinterNames
import CodeBridge.Proofs.Functions
import CodeBridge.Proofs.ConversionFunctions
import CodeBridge.Proofs.PrinterFunctions
import CodeBridge.Proofs.SourceAgreement
import CodeBridge.Proofs.HeaderSequence
import CodeBridge.Proofs.WriterOperations
import CodeBridge.Proofs.EnumerationAgreement
import CodeBridge.Proofs.DefinitionOrder
import CodeBridge.Proofs.ClassBodies
import CodeBridge.Proofs.ClassLines
import CodeBridge.Proofs.FailedReading
import CodeBridge.Proofs.FieldOutput
import CodeBridge.Proofs.FinishedTexts
import CodeBridge.Proofs.BraceStyles
import CodeBridge.Proofs.Composition
import CodeBridge.Proofs.Nesting
import CodeBridge.Proofs.NestedTexts
import CodeBridge.Proofs.ClassTexts
import CodeBridge.Proofs.ForwardReferences
import CodeBridge.Proofs.ReadingTurns
import CodeBridge.Proofs.CutLines
import CodeBridge.Proofs.GoingRound
import CodeBridge.Proofs.LastLine
import CodeBridge.Proofs.MemberRows
import CodeBridge.Proofs.TrailingComments
import CodeBridge.Proofs.Declarators
import CodeBridge.Proofs.TypeHints
import CodeBridge.Proofs.CommentContainment
import CodeBridge.Proofs.MacroArity
import CodeBridge.Proofs.Passages
import CodeBridge.Proofs.WordBreaks
import CodeBridge.Proofs.Literals
import CodeBridge.Proofs.AttributeLiterals
import CodeBridge.Proofs.Separation
import CodeBridge.Proofs.Plateaus

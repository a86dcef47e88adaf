import EnumNames.Main
import EnumNames.Proofs.Display.Code
import EnumNames.Proofs.Lookup.Code
import EnumNames.Code.Lexeme
import EnumNames.Code.Read
import EnumNames.Proofs.Target.Scan
import EnumNames.Proofs.Code.Piece
import EnumNames.Proofs.Code.Expression
import EnumNames.Proofs.Code.ReadExpression
import EnumNames.Proofs.Code.Layout
import EnumNames.Proofs.Code.Statement
import EnumNames.Proofs.Code.Item
import EnumNames.Proofs.Code.Cut
import EnumNames.Proofs.Syntax.Run
import EnumNames.Proofs.Syntax.Expression
import EnumNames.Proofs.Syntax.Statement
import EnumNames.Proofs.Syntax.Block
import EnumNames.Proofs.Syntax.Body
import EnumNames.Proofs.Syntax.Item
import EnumNames.Proofs.Generated.Item
import EnumNames.Proofs.Code.FunctionName
import EnumNames.Proofs.Generated.Source
import EnumNames.Proofs.Generated.File
import EnumNames.Proofs.Generated.Header
import EnumNames.Proofs.Generated.FunctionName
import EnumNames.Proofs.Generated.ItemName
import EnumNames.Proofs.Target.Filled
import EnumNames.Proofs.Generated.DeclaredName
import EnumNames.Proofs.Disk.Change
import EnumNames.Proofs.Generated.Outcome
import EnumNames.Proofs.Manifest.Selection
import EnumNames.Proofs.Manifest.Repetition
import EnumNames.Proofs.Manifest.Account
import EnumNames.Proofs.Command.Run
import EnumNames.Proofs.Command.Arguments
import EnumNames.Proofs.Command.ExitCode
import EnumNames.Proofs.Text.Utf8
import EnumNames.Proofs.Command.Agreement
import EnumNames.Proofs.Generated.Isolation
import EnumNames.Proofs.RoundTrip
import EnumNames.Proofs.Command.Files
import EnumNames.Proofs.Manifest.Document
import EnumNames.Proofs.Manifest.UnsupportedKind
import EnumNames.Proofs.Generated.Reordering
import EnumNames.Proofs.Guard
import EnumNames.Checked.Basic
import EnumNames.Checked.Display
import EnumNames.Checked.Lookup
import EnumNames.Checked.File
import EnumNames.Proofs.Generated.Depth
import EnumNames.Proofs.Json.Extent
import EnumNames.Proofs.Manifest.Extent
import EnumNames.Proofs.Checked.Basic
import EnumNames.Proofs.Checked.Display
import EnumNames.Proofs.Checked.Lookup
import EnumNames.Proofs.Checked.File
import EnumNames.Proofs.Manifest.Conversion
import EnumNames.Proofs.Generated.Type
import EnumNames.Proofs.Generated.Shape
import EnumNames.Proofs.Generated.Consistency
import EnumNames.Proofs.Manifest.Naming
import EnumNames.Proofs.Command.Thresholds
import EnumNames.Proofs.MaximalRun
import EnumNames.Proofs.Code.ReadItem
import EnumNames.Proofs.Code.NameTable
import EnumNames.Proofs.Code.TextLiteral
import EnumNames.Proofs.Generated.Balance
import EnumNames.Proofs.Generated.Meaning

import CondParam.Calendar
import CondParam.Classification
import CondParam.Command
import CondParam.Command.FileSystem
import CondParam.Command.Options
import CondParam.Command.PathName
import CondParam.Command.Terminal
import CondParam.Config
import CondParam.Data
import CondParam.Data.Display
import CondParam.Decimal
import CondParam.Decimal.Nearest
import CondParam.Decimal.Shortest
import CondParam.Diagnostic
import CondParam.Emission
import CondParam.Emission.Fragment
import CondParam.Error
import CondParam.Generation
import CondParam.HostCheck
import CondParam.Json.Read
import CondParam.Json.Write
import CondParam.Main
import CondParam.Payload
import CondParam.Proofs.Annotation
import CondParam.Proofs.ArgumentSplit
import CondParam.Proofs.ArgumentText
import CondParam.Proofs.Arguments
import CondParam.Proofs.Assembly
import CondParam.Proofs.Balanced
import CondParam.Proofs.BlockAttributes
import CondParam.Proofs.Classification
import CondParam.Proofs.Command
import CondParam.Proofs.Condition
import CondParam.Proofs.Conformance
import CondParam.Proofs.Context
import CondParam.Proofs.CursorLocate
import CondParam.Proofs.CursorScan
import CondParam.Proofs.Declaration
import CondParam.Proofs.Dump
import CondParam.Proofs.Emission
import CondParam.Proofs.Expression
import CondParam.Proofs.Failure
import CondParam.Proofs.Group
import CondParam.Proofs.HostCheck
import CondParam.Proofs.KeptText
import CondParam.Proofs.Lexeme
import CondParam.Proofs.Locate
import CondParam.Proofs.Lossless
import CondParam.Proofs.Names
import CondParam.Proofs.Outcome
import CondParam.Proofs.Payload
import CondParam.Proofs.PrintedList
import CondParam.Proofs.Printing
import CondParam.Proofs.Regeneration
import CondParam.Proofs.Registration
import CondParam.Proofs.Regularity
import CondParam.Proofs.Report
import CondParam.Proofs.Reprinting
import CondParam.Proofs.ReservedNames
import CondParam.Proofs.Response
import CondParam.Proofs.SortRecord
import CondParam.Proofs.StableSort
import CondParam.Proofs.StandsAlone
import CondParam.Proofs.StepOrder
import CondParam.Proofs.Trivia
import CondParam.Proofs.Variable
import CondParam.Proofs.WrittenName
import CondParam.Response
import CondParam.Script
import CondParam.Script.Annotation
import CondParam.Script.Argument
import CondParam.Script.Cursor.Read
import CondParam.Script.Cursor.Scan
import CondParam.Script.Declaration
import CondParam.Script.Expression
import CondParam.Script.Fault
import CondParam.Script.Group
import CondParam.Script.Item
import CondParam.Script.Locate
import CondParam.Script.Read
import CondParam.Script.Trivia
import CondParam.Script.Variable
import CondParam.Settings
import CondParam.Skeleton
import CondParam.Sorting
import CondParam.Text
import CondParam.Text.CodePoint
import CondParam.Text.Likeness
import CondParam.Text.Lines
import CondParam.Text.Lower
import CondParam.Text.Name
import CondParam.Text.Printable
import CondParam.Text.Quoted
import CondParam.Text.Ranges
import CondParam.Text.Space
import CondParam.Text.Word
import CondParam.Toml.Dates
import CondParam.Toml.Numbers
import CondParam.Toml.Read
import CondParam.Toml.Strings
import CondParam.Toml.Table
import CondParam.Toml.Value

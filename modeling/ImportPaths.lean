import ImportPaths.Text.Basic
import ImportPaths.Text.Blank
import ImportPaths.Path.Basic
import ImportPaths.Path.Clean
import ImportPaths.Specifier.Form
import ImportPaths.Specifier.Subpath
import ImportPaths.Specifier.System
import ImportPaths.Source.Import
import ImportPaths.Source.Pieces
import ImportPaths.Direction
import ImportPaths.Source.Scan
import ImportPaths.Token.Alias
import ImportPaths.Token.Extension
import ImportPaths.Disk.Fault
import ImportPaths.Run.Error
import ImportPaths.Settings
import ImportPaths.Source.Pass
import ImportPaths.CommandLine.Switch
import ImportPaths.CommandLine.Invocation
import ImportPaths.Number.Nearest
import ImportPaths.Number.Literal
import ImportPaths.Terminal.Duration
import ImportPaths.Terminal.Style
import ImportPaths.Run.Summary
import ImportPaths.Terminal.Report
import ImportPaths.Command.Error
import ImportPaths.Json.Value
import ImportPaths.Json.Number
import ImportPaths.Json.Quoted
import ImportPaths.Json.Reader
import ImportPaths.Json.Printer
import ImportPaths.Config.Basic
import ImportPaths.Config.Validation
import ImportPaths.Config.Schema
import ImportPaths.Config.Datum
import ImportPaths.Config.Variable
import ImportPaths.Config.Layers
import ImportPaths.Disk.Node
import ImportPaths.Disk.Basic
import ImportPaths.Disk.Edit
import ImportPaths.Run.Sources
import ImportPaths.Run.Tree
import ImportPaths.Text.Unprintable
import ImportPaths.Text.Quoted
import ImportPaths.Text.Hex
import ImportPaths.Text.LetterOrDigit
import ImportPaths.Text.Numeral
import ImportPaths.Text.Pattern.Mode
import ImportPaths.Text.Pattern.Escape
import ImportPaths.Text.Pattern.CharSet
import ImportPaths.Text.Pattern.Basic
import ImportPaths.Text.Pattern.Reader
import ImportPaths.Terminal.Log
import ImportPaths.Terminal.LogFilter
import ImportPaths.Terminal.ColorSupport
import ImportPaths.Terminal.Notice
import ImportPaths.Command.Job
import ImportPaths.Command.Prepare
import ImportPaths.Command.Convert
import ImportPaths.Command.Check
import ImportPaths.Command.Init
import ImportPaths.Command.Program
import ImportPaths.CommandLine.Usage
import ImportPaths.Main
import ImportPaths.Proofs.Text.Splice
import ImportPaths.Proofs.Path.Components
import ImportPaths.Proofs.Path.Clean
import ImportPaths.Proofs.Path.Order
import ImportPaths.Proofs.Path.Directory
import ImportPaths.Proofs.Path.Quotable
import ImportPaths.Proofs.Path.Absolute
import ImportPaths.Proofs.Specifier.Form
import ImportPaths.Proofs.Specifier.Translation
import ImportPaths.Proofs.Specifier.Names
import ImportPaths.Proofs.Specifier.RoundTrip
import ImportPaths.Proofs.Source.Import
import ImportPaths.Proofs.Source.Pieces
import ImportPaths.Proofs.Source.Pass
import ImportPaths.Proofs.Source.Carried
import ImportPaths.Proofs.Source.Meaning
import ImportPaths.Proofs.Source.RoundTrip
import ImportPaths.Proofs.Source.Candidates
import ImportPaths.Proofs.Source.Scan
import ImportPaths.Proofs.Source.Marks
import ImportPaths.Proofs.Source.Counts
import ImportPaths.Proofs.Source.Edits
import ImportPaths.Proofs.Source.Spared
import ImportPaths.Proofs.Disk.Tree
import ImportPaths.Proofs.Disk.Files
import ImportPaths.Proofs.Disk.Walk
import ImportPaths.Proofs.Disk.Revision
import ImportPaths.Proofs.Disk.Placed
import ImportPaths.Proofs.Run.Sources
import ImportPaths.Proofs.Run.Steps
import ImportPaths.Proofs.Run.Image
import ImportPaths.Proofs.Run.Retry
import ImportPaths.Proofs.Run.Collected
import ImportPaths.Proofs.Config.Layers
import ImportPaths.Proofs.Command.Job
import ImportPaths.Proofs.Command.Check
import ImportPaths.Proofs.Command.Load
import ImportPaths.Proofs.Command.Init
import ImportPaths.Proofs.Json.RoundTrip
import ImportPaths.Proofs.Config.Text
import ImportPaths.Proofs.Config.Agreement
import ImportPaths.Proofs.Specifier.Shortest
import ImportPaths.Proofs.Specifier.Accepted
import ImportPaths.Proofs.Source.Outside
import ImportPaths.Proofs.Token.Effective
import ImportPaths.Proofs.Path.Canonical
import ImportPaths.Proofs.Text.Slice
import ImportPaths.Proofs.Source.Slices
import ImportPaths.Proofs.Text.Row
import ImportPaths.Proofs.Config.Members
import ImportPaths.Proofs.Token.Published
import ImportPaths.Proofs.Specifier.Unambiguous
import ImportPaths.Proofs.Specifier.Directory
import ImportPaths.Proofs.Specifier.System
import ImportPaths.Proofs.Command.Error

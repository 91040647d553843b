import Stencil.CommandLine.Arguments
import Stencil.CommandLine.Command
import Stencil.CommandLine.Reach
import Stencil.CommandLine.Word
import Stencil.Console.Event
import Stencil.Console.Plain
import Stencil.Entries
import Stencil.FileSystem.Basic
import Stencil.Json.Check
import Stencil.Json.Fault
import Stencil.Json.Parser
import Stencil.Json.Plain
import Stencil.Json.Printer
import Stencil.Json.Value
import Stencil.Main
import Stencil.Manifest
import Stencil.Number.Double
import Stencil.Number.Limit
import Stencil.Number.Numeral
import Stencil.Number.Rounding
import Stencil.Number.Shortest
import Stencil.Outline.Builder
import Stencil.Outline.Document
import Stencil.Outline.Json
import Stencil.Outline.Labels
import Stencil.Outline.Line
import Stencil.Outline.Tree
import Stencil.Path
import Stencil.Run.Duration
import Stencil.Run.Environment
import Stencil.Run.Fault
import Stencil.Run.Generation
import Stencil.Run.Host
import Stencil.Run.Job
import Stencil.Run.Parameters
import Stencil.Run.Steps
import Stencil.Run.Storage
import Stencil.Run.Work
import Stencil.Run.Writable
import Stencil.Scope.Basic
import Stencil.Scope.Json
import Stencil.Settings.Basic
import Stencil.Settings.Json
import Stencil.Settings.Naming
import Stencil.Template.Note
import Stencil.Template.Placeholder
import Stencil.Text.Blank
import Stencil.Text.CodePoints
import Stencil.Text.Digit
import Stencil.Text.Hex
import Stencil.Text.Lines
import Stencil.Text.Markup
import Stencil.Text.Pieces
import Stencil.Text.Printable
import Stencil.Text.Quoted
import Stencil.Text.Surrogate
import Stencil.Text.Upper
import Stencil.Text.Utf8
import Stencil.Yaml.Cursor
import Stencil.Yaml.Datum
import Stencil.Yaml.Document
import Stencil.Yaml.Fault
import Stencil.Yaml.Moment
import Stencil.Yaml.Node
import Stencil.Yaml.Scalar
import Stencil.Yaml.Token
import Stencil.Proofs.CommandLine.DryRun
import Stencil.Proofs.CommandLine.Ending
import Stencil.Proofs.CommandLine.Parameters
import Stencil.Proofs.FileSystem.Place
import Stencil.Proofs.FileSystem.Reach
import Stencil.Proofs.FileSystem.Room
import Stencil.Proofs.FileSystem.Tree
import Stencil.Proofs.Json.Atoms
import Stencil.Proofs.Json.Dialects
import Stencil.Proofs.Json.FlatObject
import Stencil.Proofs.Json.Printed
import Stencil.Proofs.Json.RoundTrip
import Stencil.Proofs.Json.Step
import Stencil.Proofs.Manifest
import Stencil.Proofs.Manifest.Stored
import Stencil.Proofs.Outline.Arena
import Stencil.Proofs.Outline.Description
import Stencil.Proofs.Outline.Document
import Stencil.Proofs.Outline.Drafts
import Stencil.Proofs.Outline.FileLine
import Stencil.Proofs.Outline.Growth
import Stencil.Proofs.Outline.Joined
import Stencil.Proofs.Outline.Json
import Stencil.Proofs.Outline.Labels
import Stencil.Proofs.Outline.Nesting
import Stencil.Proofs.Outline.Origins
import Stencil.Proofs.Outline.Parents
import Stencil.Proofs.Outline.Spacing
import Stencil.Proofs.Outline.Walk
import Stencil.Proofs.Outline.Written
import Stencil.Proofs.Outline.WrittenLine
import Stencil.Proofs.Path
import Stencil.Proofs.Run.Acts
import Stencil.Proofs.Run.Again
import Stencil.Proofs.Run.Beside
import Stencil.Proofs.Run.DryRun
import Stencil.Proofs.Run.Effect
import Stencil.Proofs.Run.Environment
import Stencil.Proofs.Run.Faults
import Stencil.Proofs.Run.Feasible
import Stencil.Proofs.Run.Halt
import Stencil.Proofs.Run.InTurn
import Stencil.Proofs.Run.Independence
import Stencil.Proofs.Run.Last
import Stencil.Proofs.Run.Makes
import Stencil.Proofs.Run.Order
import Stencil.Proofs.Run.Paths
import Stencil.Proofs.Run.Places
import Stencil.Proofs.Run.Plan
import Stencil.Proofs.Run.Quiet
import Stencil.Proofs.Run.Saving
import Stencil.Proofs.Run.Spare
import Stencil.Proofs.Run.Stands
import Stencil.Proofs.Run.Step
import Stencil.Proofs.Run.Stop
import Stencil.Proofs.Run.Turns
import Stencil.Proofs.Run.Unresolved
import Stencil.Proofs.Settings.Stored
import Stencil.Proofs.Template.Notes
import Stencil.Proofs.Template.Parts
import Stencil.Proofs.Template.Pieces
import Stencil.Proofs.Template.Scan
import Stencil.Proofs.Template.Stages
import Stencil.Proofs.Text.Lines
import Stencil.Proofs.Text.Utf8
import Stencil.Proofs.Yaml.Cursor
import Stencil.Proofs.Yaml.Document
import Stencil.Proofs.Yaml.Portable
import Stencil.Proofs.Yaml.Quoted
import Stencil.Proofs.Yaml.Scanner

import MarkupDesk.Assistant.Client
import MarkupDesk.CommandLine.Invocation
import MarkupDesk.CommandLine.Usage
import MarkupDesk.Console.Duration
import MarkupDesk.Console.Line
import MarkupDesk.Data.Json
import MarkupDesk.Data.Toml
import MarkupDesk.Diagnosis
import MarkupDesk.Disk.Tree
import MarkupDesk.Failure
import MarkupDesk.Fence
import MarkupDesk.Main
import MarkupDesk.Markup.Layout
import MarkupDesk.Number.Decimal
import MarkupDesk.Number.Shortest
import MarkupDesk.Parser.Report
import MarkupDesk.Proofs.Markup.Boundary
import MarkupDesk.Proofs.Markup.Bracketed
import MarkupDesk.Proofs.Markup.Forest
import MarkupDesk.Proofs.Markup.Lines
import MarkupDesk.Proofs.Markup.Pieces
import MarkupDesk.Proofs.Workspace.Export
import MarkupDesk.Run
import MarkupDesk.Settings.Layers
import MarkupDesk.Workspace.Session
import MarkupDesk.Proofs.Text.Positions
import MarkupDesk.Proofs.Markup.Insignificant
import MarkupDesk.Proofs.Workspace.Provenance
import MarkupDesk.Proofs.Workspace.Failing
import MarkupDesk.Proofs.Assistant.Textless
import MarkupDesk.Proofs.Workspace.History
import MarkupDesk.Proofs.Workspace.Abandoned
import MarkupDesk.Proofs.Workspace.Verdict
import MarkupDesk.Proofs.Markup.Section
import MarkupDesk.Proofs.Markup.Mixed
import MarkupDesk.Proofs.Markup.Siblings
import MarkupDesk.Proofs.Workspace.StatusLine
import MarkupDesk.Proofs.Parser.Reason
import MarkupDesk.Proofs.Run.Result
import MarkupDesk.Proofs.Markup.Indentation
import MarkupDesk.Proofs.Assistant.Answer
import MarkupDesk.Proofs.Settings.Precedence
import MarkupDesk.Proofs.Run.Key
import MarkupDesk.Proofs.Diagnosis.Mention
import MarkupDesk.Proofs.Assistant.Fenced
import MarkupDesk.Proofs.Workspace.Checking
import MarkupDesk.Proofs.Markup.Renaming
import MarkupDesk.Proofs.Run.Destination

import BoxArrow.CommandLine.Invocation
import BoxArrow.CommandLine.Run
import BoxArrow.CommandLine.Scan
import BoxArrow.Config
import BoxArrow.Config.Text
import BoxArrow.Decimal.Notation
import BoxArrow.Decimal.Reading
import BoxArrow.Decimal.Shortest
import BoxArrow.Dialect
import BoxArrow.Dialect.D2
import BoxArrow.Dialect.Graphviz
import BoxArrow.Dialect.Mermaid
import BoxArrow.Dialect.PlantUml
import BoxArrow.Dialect.Statement
import BoxArrow.Engine
import BoxArrow.Fault
import BoxArrow.Files
import BoxArrow.Geometry
import BoxArrow.Graph.Basic
import BoxArrow.Graph.Change
import BoxArrow.Graph.ChangeForm
import BoxArrow.Graph.Described
import BoxArrow.Graph.Edit
import BoxArrow.Graph.ElementForm
import BoxArrow.Json.Basic
import BoxArrow.Json.Decode
import BoxArrow.Json.Reader
import BoxArrow.Main
import BoxArrow.Pacing
import BoxArrow.Session
import BoxArrow.Snapshot
import BoxArrow.Text.Blank
import BoxArrow.Text.Printable
import BoxArrow.Text.Quoted
import BoxArrow.Text.Reader
import BoxArrow.Timestamp.Calendar
import BoxArrow.Timestamp.Text
import BoxArrow.Toml.Document
import BoxArrow.Toml.Scalar
import BoxArrow.Toml.Table
import BoxArrow.Toml.Value
import BoxArrow.Uuid
import BoxArrow.Proofs.FirstOccurrence
import BoxArrow.Proofs.Lines
import BoxArrow.Proofs.Lexemes
import BoxArrow.Proofs.Vocabulary
import BoxArrow.Proofs.GraphvizGrammar
import BoxArrow.Proofs.MermaidGrammar
import BoxArrow.Proofs.ColonGrammar
import BoxArrow.Proofs.TextLayout
import BoxArrow.Proofs.Described
import BoxArrow.Proofs.FreshIds
import BoxArrow.Proofs.Edits
import BoxArrow.Proofs.ChangesInTurn
import BoxArrow.Proofs.Batches
import BoxArrow.Proofs.ReorderedBatches
import BoxArrow.Proofs.Selection
import BoxArrow.Proofs.Undo
import BoxArrow.Proofs.Versions
import BoxArrow.Proofs.SnapshotImport
import BoxArrow.Proofs.Sessions
import BoxArrow.Proofs.Textual
import BoxArrow.Proofs.MermaidRoundTrip
import BoxArrow.Proofs.GraphvizRoundTrip
import BoxArrow.Proofs.ColonRoundTrip
import BoxArrow.Proofs.ArrowsAlone
import BoxArrow.Proofs.AddedNodes
import BoxArrow.Proofs.Relabelling
import BoxArrow.Proofs.Magnitudes
import BoxArrow.Proofs.NearestNumbers
import BoxArrow.Proofs.FloatValues
import BoxArrow.Proofs.ShortestDecimals
import BoxArrow.Proofs.JsonText
import BoxArrow.Proofs.NumberText
import BoxArrow.Proofs.RereadNumbers
import BoxArrow.Proofs.CalendarDates
import BoxArrow.Proofs.TimestampText
import BoxArrow.Proofs.SavedSessions
import BoxArrow.Proofs.SavedCoordinates
import BoxArrow.Proofs.ForeignMembers
import BoxArrow.Proofs.FiniteGeometry
import BoxArrow.Proofs.Commands
import BoxArrow.Proofs.CommandOutput
import BoxArrow.Proofs.TwoViews
import BoxArrow.Proofs.EdgeIds
import BoxArrow.Proofs.IdSearches
import BoxArrow.Proofs.Conversion
import BoxArrow.Proofs.PacedRenders
import BoxArrow.Proofs.QuotedLabels
import BoxArrow.Proofs.MessageNames

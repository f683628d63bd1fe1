import VertexSweep.Command.Arguments
import VertexSweep.Command.Files
import VertexSweep.Command.LogFilter
import VertexSweep.Command.Session
import VertexSweep.Fault
import VertexSweep.Graph.Adjacency
import VertexSweep.Graph.DataGraph
import VertexSweep.Graph.EdgeList
import VertexSweep.Graph.View
import VertexSweep.Id
import VertexSweep.IdSet.Basic
import VertexSweep.IdSet.Lemmas
import VertexSweep.Input.Configuration
import VertexSweep.Input.Readers
import VertexSweep.Main
import VertexSweep.Match.Audit
import VertexSweep.Match.Candidates
import VertexSweep.Match.Labels
import VertexSweep.Match.Pattern
import VertexSweep.Match.SetPool
import VertexSweep.Match.Simulation
import VertexSweep.Match.Statistics
import VertexSweep.Output.Documents
import VertexSweep.Output.Lines
import VertexSweep.Output.Tables
import VertexSweep.Proofs.Bounds.Acceptance
import VertexSweep.Proofs.Bounds.Checked
import VertexSweep.Proofs.Bounds.Counters
import VertexSweep.Proofs.Bounds.Matching
import VertexSweep.Proofs.Bounds.PackedRows
import VertexSweep.Proofs.Bounds.Relaxations
import VertexSweep.Proofs.Bounds.Tables
import VertexSweep.Proofs.Bounds.Topology
import VertexSweep.Proofs.Bounds.Views
import VertexSweep.Proofs.Bounds.Windows
import VertexSweep.Proofs.Graph.Admission
import VertexSweep.Proofs.Graph.EdgeSet
import VertexSweep.Proofs.Graph.Links
import VertexSweep.Proofs.Graph.Neighbors
import VertexSweep.Proofs.Graph.SharedSlots
import VertexSweep.Proofs.Graph.Walks
import VertexSweep.Proofs.Input.EdgeTexts
import VertexSweep.Proofs.Input.PatternTexts
import VertexSweep.Proofs.Input.RefusedRecords
import VertexSweep.Proofs.Match.Arcs
import VertexSweep.Proofs.Match.Auditing
import VertexSweep.Proofs.Match.Bookkeeping
import VertexSweep.Proofs.Match.Budget
import VertexSweep.Proofs.Match.Counting
import VertexSweep.Proofs.Match.Covering
import VertexSweep.Proofs.Match.Ending
import VertexSweep.Proofs.Match.Figures
import VertexSweep.Proofs.Match.Findings
import VertexSweep.Proofs.Match.Greatest
import VertexSweep.Proofs.Match.Pairing
import VertexSweep.Proofs.Match.Pattern
import VertexSweep.Proofs.Match.Phases
import VertexSweep.Proofs.Match.Refining
import VertexSweep.Proofs.Match.Sealing
import VertexSweep.Proofs.Match.Seeding
import VertexSweep.Proofs.Match.SetPool
import VertexSweep.Proofs.Match.Shrinking
import VertexSweep.Proofs.Match.Storage
import VertexSweep.Proofs.Match.Table
import VertexSweep.Proofs.Multiplicity
import VertexSweep.Proofs.Output.MatchTable
import VertexSweep.Proofs.Relax.Arrival
import VertexSweep.Proofs.Relax.Coloring
import VertexSweep.Proofs.Relax.Components
import VertexSweep.Proofs.Relax.Distances
import VertexSweep.Proofs.Relax.Freezing
import VertexSweep.Proofs.Relax.Hops
import VertexSweep.Proofs.Relax.Law
import VertexSweep.Proofs.Relax.Pace
import VertexSweep.Proofs.Relax.Propagation
import VertexSweep.Proofs.Relax.Spreading
import VertexSweep.Proofs.Reuse
import VertexSweep.Proofs.Sweep.Ceiling
import VertexSweep.Proofs.Sweep.Coupling
import VertexSweep.Proofs.Sweep.FirstSweep
import VertexSweep.Proofs.Sweep.Forgetting
import VertexSweep.Proofs.Sweep.Invariant
import VertexSweep.Proofs.Sweep.Journal
import VertexSweep.Proofs.Sweep.Order
import VertexSweep.Proofs.Sweep.Protocol
import VertexSweep.Proofs.Sweep.Schedule
import VertexSweep.Proofs.Sweep.Settling
import VertexSweep.Proofs.Sweep.Steps
import VertexSweep.Proofs.Sweep.Trace
import VertexSweep.Proofs.Sweep.Turns
import VertexSweep.Proofs.Sweep.Verdict
import VertexSweep.Proofs.Sweep.WindowSize
import VertexSweep.Proofs.Text.Fields
import VertexSweep.Proofs.Text.Layout
import VertexSweep.Proofs.Text.Lines
import VertexSweep.Proofs.Text.Numbering
import VertexSweep.Proofs.Text.Numerals
import VertexSweep.Proofs.Text.Passages
import VertexSweep.Proofs.Text.Separator
import VertexSweep.Random.ChaCha
import VertexSweep.Regex.Atom
import VertexSweep.Regex.Bracketed
import VertexSweep.Regex.Expression
import VertexSweep.Regex.Flags
import VertexSweep.Relax.Basic
import VertexSweep.Relax.Coloring
import VertexSweep.Relax.Components
import VertexSweep.Relax.ShortestPath
import VertexSweep.Script.Program
import VertexSweep.Script.Rule
import VertexSweep.Sweep.Program
import VertexSweep.Sweep.Round
import VertexSweep.Sweep.Run
import VertexSweep.Sweep.Settings
import VertexSweep.Sweep.Tasks
import VertexSweep.Sweep.Window
import VertexSweep.Text.Alphanumeric
import VertexSweep.Text.Blank
import VertexSweep.Text.Bytes
import VertexSweep.Text.Decimal
import VertexSweep.Text.Digit
import VertexSweep.Text.Document
import VertexSweep.Text.Floating
import VertexSweep.Text.Records
import VertexSweep.Text.Rows
import VertexSweep.Toml.Document
import VertexSweep.Toml.Node
import VertexSweep.Toml.Number
import VertexSweep.Toml.Quoted
import VertexSweep.Toml.Scan

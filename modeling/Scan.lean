import Scan.Board
import Scan.Board.Bus
import Scan.Command
import Scan.Command.Compile
import Scan.Command.Outline
import Scan.CommandLine
import Scan.CommandLine.Arguments
import Scan.Comparison
import Scan.Config
import Scan.Config.Layer
import Scan.Config.Level
import Scan.Config.Loading
import Scan.Config.Setting
import Scan.Control
import Scan.Daemon
import Scan.Daemon.Message
import Scan.Decimal.Binary
import Scan.Decimal.Literal
import Scan.Decimal.Notation
import Scan.Decimal.Shortest
import Scan.Descriptor
import Scan.Descriptor.Codec
import Scan.Descriptor.Yaml
import Scan.Duration
import Scan.Error
import Scan.Evaluator
import Scan.Format
import Scan.Format.Ini
import Scan.Format.Json
import Scan.Format.Json5
import Scan.Format.Magnitude
import Scan.Format.Parse
import Scan.Format.Ron
import Scan.Format.Toml
import Scan.Format.Toml.Scalar
import Scan.Format.Yaml
import Scan.Json.Document
import Scan.Json.Printer
import Scan.Json.Shape
import Scan.Json.Value
import Scan.Main
import Scan.Monitor
import Scan.Parameter
import Scan.Plant
import Scan.Plant.Script
import Scan.Report
import Scan.Report.Codec
import Scan.Report.Text
import Scan.RunId
import Scan.Scalar
import Scan.Sequencer
import Scan.Simulation
import Scan.Simulation.Profile
import Scan.Simulation.ProfileCodec
import Scan.Status
import Scan.Table
import Scan.Text.Blank
import Scan.Text.Hex
import Scan.Text.Hidden
import Scan.Text.Literal
import Scan.Text.Ranges
import Scan.Text.Word
import Scan.Work
import Scan.Worker
import Scan.Worker.Surroundings
import Scan.Yaml.Cursor
import Scan.Yaml.Node
import Scan.Yaml.Node.Parser
import Scan.Yaml.Printer
import Scan.Yaml.Reader
import Scan.Yaml.Resolution
import Scan.Yaml.Scalar
import Scan.Yaml.Token
import Scan.Yaml.Token.Lexer
import Scan.Yaml12.Document
import Scan.Yaml12.Lexer
import Scan.Yaml12.Place
import Scan.Yaml12.Scalar
import Scan.Proofs.Abort
import Scan.Proofs.Accounts
import Scan.Proofs.Admission
import Scan.Proofs.Alone
import Scan.Proofs.Audience
import Scan.Proofs.Backing
import Scan.Proofs.Bare
import Scan.Proofs.Braking
import Scan.Proofs.Bulletin
import Scan.Proofs.Chronicle
import Scan.Proofs.Codecs
import Scan.Proofs.Commands
import Scan.Proofs.Company
import Scan.Proofs.Compiled
import Scan.Proofs.Completeness
import Scan.Proofs.Consistency
import Scan.Proofs.Costs
import Scan.Proofs.Course
import Scan.Proofs.Cues
import Scan.Proofs.DryRuns
import Scan.Proofs.Echoing
import Scan.Proofs.Ending
import Scan.Proofs.Engagement
import Scan.Proofs.Events
import Scan.Proofs.Exchange
import Scan.Proofs.Exclusion
import Scan.Proofs.Execution
import Scan.Proofs.Expansion
import Scan.Proofs.Failing
import Scan.Proofs.Flattening
import Scan.Proofs.Foregone
import Scan.Proofs.Forgetting
import Scan.Proofs.Frames
import Scan.Proofs.Fulfilment
import Scan.Proofs.Glimpses
import Scan.Proofs.Halting
import Scan.Proofs.Hearing
import Scan.Proofs.House
import Scan.Proofs.Ideal
import Scan.Proofs.InProgress
import Scan.Proofs.Latches
import Scan.Proofs.Life
import Scan.Proofs.Lockstep
import Scan.Proofs.Motion
import Scan.Proofs.Nesting
import Scan.Proofs.Numbering
import Scan.Proofs.Occurrences
import Scan.Proofs.Overflows
import Scan.Proofs.Pausing
import Scan.Proofs.Performance
import Scan.Proofs.Polling
import Scan.Proofs.Position
import Scan.Proofs.Preflight
import Scan.Proofs.Ramps
import Scan.Proofs.Readers
import Scan.Proofs.Readings
import Scan.Proofs.Recall
import Scan.Proofs.Reckoning
import Scan.Proofs.Recompiling
import Scan.Proofs.Records
import Scan.Proofs.Recurrence
import Scan.Proofs.Refusals
import Scan.Proofs.Release
import Scan.Proofs.Rendition
import Scan.Proofs.Repeats
import Scan.Proofs.Restating
import Scan.Proofs.Run
import Scan.Proofs.Scene
import Scan.Proofs.Score
import Scan.Proofs.Seconds
import Scan.Proofs.Settling
import Scan.Proofs.Skips
import Scan.Proofs.Solo
import Scan.Proofs.Spacing
import Scan.Proofs.Sparing
import Scan.Proofs.Speech
import Scan.Proofs.Spelling
import Scan.Proofs.Stage
import Scan.Proofs.Standstill
import Scan.Proofs.Step
import Scan.Proofs.Subtrees
import Scan.Proofs.Succession
import Scan.Proofs.Sweeps
import Scan.Proofs.Telling
import Scan.Proofs.Texts
import Scan.Proofs.Tidings
import Scan.Proofs.Trace
import Scan.Proofs.Transparency
import Scan.Proofs.Unnesting
import Scan.Proofs.Untimed
import Scan.Proofs.Verdict
import Scan.Proofs.Vetting
import Scan.Proofs.Waiting
import Scan.Proofs.WellFormed

import BoardBench.BoardTest
import BoardBench.Bounds
import BoardBench.Channel
import BoardBench.Clock
import BoardBench.CommandLine
import BoardBench.CommandLine.Help
import BoardBench.Config
import BoardBench.Config.Decode
import BoardBench.Config.Load
import BoardBench.Error
import BoardBench.Evaluation
import BoardBench.Evaluation.Can
import BoardBench.Evaluation.Gpio
import BoardBench.Evaluation.Lin
import BoardBench.Evaluation.OfLog
import BoardBench.Evaluation.Uart
import BoardBench.Event
import BoardBench.Event.Line
import BoardBench.Findings
import BoardBench.Identity
import BoardBench.IdleGate
import BoardBench.Link
import BoardBench.Link.Board
import BoardBench.Link.Error
import BoardBench.Link.Replies
import BoardBench.Link.Scripted
import BoardBench.Link.SerialPort
import BoardBench.Main
import BoardBench.Phase
import BoardBench.Phase.Course
import BoardBench.Phase.Schedule
import BoardBench.Phase.Work
import BoardBench.Program
import BoardBench.Report
import BoardBench.Report.Saving
import BoardBench.Report.Stamp
import BoardBench.Session
import BoardBench.Session.Executor
import BoardBench.Storage
import BoardBench.Storage.Failure
import BoardBench.Storage.Path
import BoardBench.Storage.Terminal
import BoardBench.Storage.Tree
import BoardBench.Subsystem
import BoardBench.Text.Blank
import BoardBench.Text.Decimal
import BoardBench.Text.Printable
import BoardBench.Text.Quoted
import BoardBench.Text.Search
import BoardBench.Text.Utf8
import BoardBench.Text.Wrap
import BoardBench.Toml.Document
import BoardBench.Toml.Scalar
import BoardBench.Toml.Table
import BoardBench.Toml.Value
import BoardBench.Workbench
import BoardBench.Proofs.Interleaving
import BoardBench.Proofs.Sequence
import BoardBench.Proofs.Identification
import BoardBench.Proofs.Phase.Progress
import BoardBench.Proofs.Phase.Stream
import BoardBench.Proofs.Phase.Merge
import BoardBench.Proofs.Phase.Timeline
import BoardBench.Proofs.Phase.Deadline
import BoardBench.Proofs.Phase.Failure
import BoardBench.Proofs.Phase.Arrival
import BoardBench.Proofs.Evaluation.Streams
import BoardBench.Proofs.Evaluation.ClockOffset
import BoardBench.Proofs.Evaluation.Breakdown
import BoardBench.Proofs.Evaluation.Reports
import BoardBench.Proofs.Event.Wire
import BoardBench.Proofs.Phase.Instant
import BoardBench.Proofs.Session.Gate
import BoardBench.Proofs.BoardTest.Calls
import BoardBench.Proofs.BoardTest.Outcome
import BoardBench.Proofs.BoardTest.History
import BoardBench.Proofs.Session.Transfers
import BoardBench.Proofs.Session.Order
import BoardBench.Proofs.Session.Script
import BoardBench.Proofs.Evaluation.Verdict
import BoardBench.Proofs.Event.Track
import BoardBench.Proofs.Evaluation.Traffic
import BoardBench.Proofs.Session.Board
import BoardBench.Proofs.Evaluation.Pins
import BoardBench.Proofs.Evaluation.PinNumbers
import BoardBench.Proofs.Evaluation.Corruption
import BoardBench.Proofs.Evaluation.Echo
import BoardBench.Proofs.Event.Grammar
import BoardBench.Proofs.Session.Waiting
import BoardBench.Proofs.Session.Noise
import BoardBench.Proofs.Session.Queue
import BoardBench.Proofs.Session.Isolation
import BoardBench.Proofs.Storage
import BoardBench.Proofs.Program.Views
import BoardBench.Proofs.Program.Outcome
import BoardBench.Proofs.Transcript
import BoardBench.Proofs.Storage.Directory
import BoardBench.Proofs.Report.Name
import BoardBench.Proofs.Report.Place
import BoardBench.Proofs.Config
import BoardBench.Proofs.Findings
import BoardBench.Proofs.Findings.History
import BoardBench.Proofs.Channel
import BoardBench.Proofs.Link.Scripted
import BoardBench.Proofs.Link.SerialPort
import BoardBench.Proofs.Toml.Decimal
import BoardBench.Proofs.Session.Capacity

import Teleop.Address
import Teleop.Bytes
import Teleop.Camera.Basic
import Teleop.Camera.Settings
import Teleop.Camera.Tool
import Teleop.Config.Basic
import Teleop.Config.Overrides
import Teleop.Config.Store
import Teleop.Config.Table
import Teleop.Coordinator.Endpoints
import Teleop.Coordinator.Rehearsal
import Teleop.Coordinator.Schedule
import Teleop.Coordinator.Task
import Teleop.Coordinator.World
import Teleop.Drive
import Teleop.Environment
import Teleop.Fault
import Teleop.Files.Path
import Teleop.Files.Tree
import Teleop.Identity.Base64
import Teleop.Identity.Basic
import Teleop.Identity.Der
import Teleop.Identity.Pem
import Teleop.Main
import Teleop.Number.Binary
import Teleop.Number.Decimal
import Teleop.Picture.Request
import Teleop.Picture.Service
import Teleop.Picture.Sitting
import Teleop.Picture.Transfer
import Teleop.Proofs.Coordinator.Closing
import Teleop.Proofs.Coordinator.DriveLog
import Teleop.Proofs.Coordinator.Exclusion
import Teleop.Proofs.Coordinator.Greetings
import Teleop.Proofs.Coordinator.History
import Teleop.Proofs.Coordinator.Images
import Teleop.Proofs.Coordinator.LinesRead
import Teleop.Proofs.Coordinator.Moves
import Teleop.Proofs.Coordinator.Rejections
import Teleop.Proofs.Coordinator.Reports
import Teleop.Proofs.Coordinator.Sessions
import Teleop.Proofs.Coordinator.Sums
import Teleop.Proofs.Coordinator.Teardown
import Teleop.Proofs.Files.ToolCaptures
import Teleop.Proofs.Files.Writing
import Teleop.Proofs.Number.Digits
import Teleop.Proofs.Picture.Accepting
import Teleop.Proofs.Picture.Course
import Teleop.Proofs.Picture.Deals
import Teleop.Proofs.Picture.Fidelity
import Teleop.Proofs.Picture.Frames
import Teleop.Proofs.Picture.Outcome
import Teleop.Proofs.Picture.Rounds
import Teleop.Proofs.Picture.Segments
import Teleop.Proofs.Picture.Serving
import Teleop.Proofs.Picture.Simulated
import Teleop.Proofs.Picture.Sittings
import Teleop.Proofs.Picture.Visit
import Teleop.Proofs.Session.Dispatches
import Teleop.Proofs.Session.DriveCalls
import Teleop.Proofs.Session.Flag
import Teleop.Proofs.Session.Handles
import Teleop.Proofs.Session.Indifference
import Teleop.Proofs.Session.Interplay
import Teleop.Proofs.Session.Isolation
import Teleop.Proofs.Session.Lines
import Teleop.Proofs.Session.Marks
import Teleop.Proofs.Session.Order
import Teleop.Proofs.Session.Stopping
import Teleop.Proofs.Session.Succession
import Teleop.Proofs.Session.Table
import Teleop.Proofs.Session.Waiting
import Teleop.Proofs.Text.ReadBack
import Teleop.Proofs.Wire.Acceptance
import Teleop.Proofs.Wire.Calls
import Teleop.Proofs.Wire.Directions
import Teleop.Proofs.Wire.Intake
import Teleop.Proofs.Wire.Items
import Teleop.Proofs.Wire.Ledger
import Teleop.Proofs.Wire.Messages
import Teleop.Proofs.Wire.RoundTrip
import Teleop.Proofs.Wire.WholeWrites
import Teleop.Proofs.Wire.Words
import Teleop.Session.CommandRun
import Teleop.Session.Dispatch
import Teleop.Session.State
import Teleop.Speed
import Teleop.Startup
import Teleop.Telemetry
import Teleop.Text.Blank
import Teleop.Text.Parts
import Teleop.Text.Quoted
import Teleop.Text.Utf8
import Teleop.Text.Visible
import Teleop.Toml.Document
import Teleop.Toml.Layout
import Teleop.Toml.Quoted
import Teleop.Toml.Scalar
import Teleop.Toml.Tree
import Teleop.Toml.Value
import Teleop.Toml.Writing
import Teleop.Vocabulary
import Teleop.Wire.Channel
import Teleop.Wire.Connection
import Teleop.Wire.Readiness
import Teleop.Wire.Stream
import Teleop.Proofs.Text.Addresses
import Teleop.Proofs.Config.Keys
import Teleop.Proofs.Config.Overrides
import Teleop.Proofs.Number.Rounding
import Teleop.Proofs.Number.Shortest
import Teleop.Proofs.Number.Positional
import Teleop.Proofs.Number.Widening
import Teleop.Proofs.Toml.Strings
import Teleop.Proofs.Toml.Words
import Teleop.Proofs.Toml.Documents
import Teleop.Proofs.Config.Entries
import Teleop.Proofs.Config.ReadBack
import Teleop.Proofs.Files.Places
import Teleop.Proofs.Config.Creating
import Teleop.Proofs.Files.Users

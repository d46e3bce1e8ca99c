import Ranging.Anchor.Context
import Ranging.Anchor.Registry
import Ranging.Anchor.Table
import Ranging.Blank
import Ranging.Clock.RateFilter
import Ranging.Clock.Wrap
import Ranging.Demo.Command
import Ranging.Demo.LogFilter
import Ranging.Demo.Note
import Ranging.Demo.Plain
import Ranging.Demo.Trial
import Ranging.Estimator.Emitter
import Ranging.Estimator.Handle
import Ranging.Estimator.Outlet
import Ranging.Estimator.Sink
import Ranging.Fault
import Ranging.Field.Simulator
import Ranging.Json.Numeral
import Ranging.Json.Reader
import Ranging.Json.Record
import Ranging.Json.Value
import Ranging.Main
import Ranging.Number.Binary
import Ranging.Number.Rounding
import Ranging.Number.Shortest
import Ranging.Number.Single
import Ranging.Number.Text
import Ranging.Observation
import Ranging.Observation.Json
import Ranging.Pairing.Engine
import Ranging.Pairing.Matching
import Ranging.Pattern.Basic
import Ranging.Pattern.Reader
import Ranging.Pattern.Search
import Ranging.Power
import Ranging.Proofs.Anchor.Bounds
import Ranging.Proofs.Anchor.Chronicle
import Ranging.Proofs.Anchor.ClockShift
import Ranging.Proofs.Anchor.Hearing
import Ranging.Proofs.Anchor.LeastRecent
import Ranging.Proofs.Anchor.Recall
import Ranging.Proofs.Anchor.Recast
import Ranging.Proofs.Anchor.Reception
import Ranging.Proofs.Anchor.Registry
import Ranging.Proofs.Anchor.Renaming
import Ranging.Proofs.Anchor.Table
import Ranging.Proofs.Anchor.WellFormed
import Ranging.Proofs.Anchor.Writes
import Ranging.Proofs.Demo.Agreement
import Ranging.Proofs.Demo.Completion
import Ranging.Proofs.Demo.Event
import Ranging.Proofs.Demo.Underway
import Ranging.Proofs.Estimator.Answers
import Ranging.Proofs.Estimator.Exchange
import Ranging.Proofs.Estimator.Renaming
import Ranging.Proofs.Field.Losses
import Ranging.Proofs.Field.Slot
import Ranging.Proofs.Field.Traffic
import Ranging.Proofs.Json.Lexeme
import Ranging.Proofs.Json.RoundTrip
import Ranging.Proofs.Json.Written
import Ranging.Proofs.Pairing.Choice
import Ranging.Proofs.Pairing.ClockShift
import Ranging.Proofs.Pairing.Geometry
import Ranging.Proofs.Pairing.Guards
import Ranging.Proofs.Pairing.Measurement
import Ranging.Proofs.Pairing.Notes
import Ranging.Proofs.Pairing.Recast
import Ranging.Proofs.Pairing.Renaming
import Ranging.Proofs.Radio.Recorded
import Ranging.Proofs.Radio.Renaming
import Ranging.Proofs.Radio.Tapped
import Ranging.Proofs.Radio.Twins
import Ranging.Proofs.Random.Unit
import Ranging.Proofs.Settings.ReadBack
import Ranging.Proofs.Settings.Session
import Ranging.Proofs.Settings.Sound
import Ranging.Proofs.Tag.Balance
import Ranging.Proofs.Tag.Chronicle
import Ranging.Proofs.Tag.Conduct
import Ranging.Proofs.Tag.Delivery
import Ranging.Proofs.Tag.Dispatch
import Ranging.Proofs.Tag.Handling
import Ranging.Proofs.Tag.Incoming
import Ranging.Proofs.Tag.Numbering
import Ranging.Proofs.Tag.Rejection
import Ranging.Proofs.Tag.Renaming
import Ranging.Proofs.Tag.Respond
import Ranging.Proofs.Tag.Run
import Ranging.Proofs.Tag.Sections
import Ranging.Proofs.Tag.Silence
import Ranging.Proofs.Tag.Soundness
import Ranging.Proofs.Tag.Standing
import Ranging.Proofs.Tag.Totality
import Ranging.Proofs.Tag.Undisturbed
import Ranging.Proofs.Tag.Untracked
import Ranging.Proofs.Tag.Youngest
import Ranging.Proofs.Telemetry.Counts
import Ranging.Proofs.Telemetry.Notes
import Ranging.Proofs.Telemetry.Renaming
import Ranging.Proofs.Telemetry.Tracking
import Ranging.Proofs.Wire.Buffer
import Ranging.Proofs.Wire.Control
import Ranging.Proofs.Wire.Frame
import Ranging.Proofs.Wire.Payload
import Ranging.Proofs.Wire.RangePacket
import Ranging.Proofs.Wire.Reading
import Ranging.Proofs.Wire.Renaming
import Ranging.Proofs.Wire.Verdict
import Ranging.Radio.Basic
import Ranging.Radio.Bench
import Ranging.Radio.Scripted
import Ranging.Random.ChaCha
import Ranging.Random.Source
import Ranging.Settings.Document
import Ranging.Settings.Field
import Ranging.Settings.FileStore
import Ranging.Settings.Flaw
import Ranging.Settings.Holder
import Ranging.Settings.Tag
import Ranging.Space
import Ranging.Tag
import Ranging.Telemetry.Basic
import Ranging.Telemetry.RateCounter
import Ranging.Wire.Buffer
import Ranging.Wire.Bytes
import Ranging.Wire.Control
import Ranging.Wire.Cursor
import Ranging.Wire.Error
import Ranging.Wire.Frame
import Ranging.Wire.RangePacket
import Ranging.Proofs.Anchor.Sweep
import Ranging.Proofs.Anchor.Renewal
import Ranging.Proofs.Clock.Reliability
import Ranging.Proofs.Clock.Tolerance
import Ranging.Proofs.Pairing.Tolerance
import Ranging.Proofs.Clock.Differences
import Ranging.Proofs.Telemetry.Windows
import Ranging.Proofs.Tag.Arrival

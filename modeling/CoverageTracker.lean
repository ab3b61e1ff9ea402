import CoverageTracker.Binary64
import CoverageTracker.Binary64.Shortest
import CoverageTracker.Text.Invisible
import CoverageTracker.Text.Quoted
import CoverageTracker.Data.Value
import CoverageTracker.Data.Decode
import CoverageTracker.Json.Reader
import CoverageTracker.Toml.Scalar
import CoverageTracker.Toml.Table
import CoverageTracker.Toml.Reader
import CoverageTracker.Position
import CoverageTracker.Uri
import CoverageTracker.Config
import CoverageTracker.Document
import CoverageTracker.SourceFile
import CoverageTracker.Coverage
import CoverageTracker.Wire
import CoverageTracker.Glob.ByteRegex
import CoverageTracker.Glob.Parser
import CoverageTracker.Glob.Matching
import CoverageTracker.Selector
import CoverageTracker.Request
import CoverageTracker.Backend
import CoverageTracker.Pool
import CoverageTracker.Status
import CoverageTracker.State
import CoverageTracker.Controller
import CoverageTracker.LanguageServer
import CoverageTracker.Watch
import CoverageTracker.ConnectionStatus
import CoverageTracker.Slots
import CoverageTracker.Session
import CoverageTracker.Desk
import CoverageTracker.Service
import CoverageTracker.Recorder
import CoverageTracker.Proofs.Backend.Line
import CoverageTracker.Proofs.Pool.Tasks
import CoverageTracker.Proofs.Pool.Line
import CoverageTracker.Proofs.Pool.Schedule
import CoverageTracker.Proofs.Pool.Evolution
import CoverageTracker.Proofs.Pool.Delivery
import CoverageTracker.Proofs.Pool.Calls
import CoverageTracker.Proofs.Pool.Silence
import CoverageTracker.Proofs.Pool.Returns
import CoverageTracker.Proofs.Pool.Recast
import CoverageTracker.Proofs.Controller.Transitions
import CoverageTracker.Proofs.Session.Holding
import CoverageTracker.Proofs.Session.Exclusive
import CoverageTracker.Proofs.Session.Sound
import CoverageTracker.Proofs.Session.Moves
import CoverageTracker.Proofs.Session.Handovers
import CoverageTracker.Proofs.Session.SingleFlight
import CoverageTracker.Proofs.Session.Consistent
import CoverageTracker.Proofs.Session.Provenance
import CoverageTracker.Proofs.Session.Views
import CoverageTracker.Proofs.Session.Tracking
import CoverageTracker.Proofs.Session.ArrivalOrder
import CoverageTracker.Proofs.Session.Disposal
import CoverageTracker.Proofs.Session.Coherence
import CoverageTracker.Proofs.Session.Recast
import CoverageTracker.Proofs.Session.Failures
import CoverageTracker.Proofs.Session.Display
import CoverageTracker.Proofs.Service.Runs
import CoverageTracker.Proofs.Service.Order
import CoverageTracker.Proofs.Service.Focus
import CoverageTracker.Proofs.Service.Reconnect
import CoverageTracker.Proofs.Service.Commuting
import CoverageTracker.Proofs.Desk.Delivery
import CoverageTracker.Proofs.Desk.Contract
import CoverageTracker.Proofs.Desk.Errands
import CoverageTracker.Proofs.Desk.Recast
import CoverageTracker.Proofs.LanguageServer.Transparency
import CoverageTracker.Proofs.Pool.Asking
import CoverageTracker.Proofs.Session.Accounting
import CoverageTracker.Proofs.Pool.Stillness
import CoverageTracker.Proofs.Session.Computing
import CoverageTracker.Proofs.Session.Bursts
import CoverageTracker.Proofs.Session.Retention
import CoverageTracker.Proofs.ConnectionStatus.Flips
import CoverageTracker.Proofs.Data.Decoding
import CoverageTracker.Proofs.Data.Respelling
import CoverageTracker.Proofs.Data.Json
import CoverageTracker.Proofs.Binary64.Finite
import CoverageTracker.Proofs.Wire.Format
import CoverageTracker.Proofs.Wire.Respelling
import CoverageTracker.Proofs.Wire.RoundTrip
import CoverageTracker.Proofs.LanguageServer.Acceptance
import CoverageTracker.Proofs.Session.Reporting
import CoverageTracker.Proofs.LanguageServer.Annotations
import CoverageTracker.Proofs.Binary64.Rational
import CoverageTracker.Proofs.Status.Line
import CoverageTracker.Proofs.Session.StatusLine
import CoverageTracker.Proofs.Selector.Union
import CoverageTracker.Proofs.Data.Documents
import CoverageTracker.Proofs.Toml.Keys
import CoverageTracker.Proofs.Config.Overlay
import CoverageTracker.Proofs.Backend.Matching

import Xfr.Access.Acl
import Xfr.Access.Address
import Xfr.Access.AddressText
import Xfr.Access.Decision
import Xfr.Access.HostPort
import Xfr.Access.Order
import Xfr.Budget.Basic
import Xfr.Budget.ByteStream
import Xfr.Budget.Conservation
import Xfr.Budget.Pacing
import Xfr.Budget.Rounding
import Xfr.Budget.Udp
import Xfr.Cli.Quantity
import Xfr.Client.CancelBound
import Xfr.Client.Commands
import Xfr.Client.ControlLoop
import Xfr.Client.Finish
import Xfr.Client.Overlay
import Xfr.Client.PrintTask
import Xfr.Client.PrintedLoss
import Xfr.Client.ReportRows
import Xfr.Client.SinglePort
import Xfr.Client.StreamTasks
import Xfr.Client.UdpHandshake
import Xfr.Control.Channel
import Xfr.Control.Codec
import Xfr.Control.Framing
import Xfr.Control.ReaderTasks
import Xfr.Control.Reading
import Xfr.Control.Transport
import Xfr.Discover.Label
import Xfr.Feedback.Basic
import Xfr.Feedback.Fresh
import Xfr.Feedback.Newest
import Xfr.Handshake.Admission
import Xfr.Handshake.Auth
import Xfr.Handshake.Basic
import Xfr.Handshake.Client
import Xfr.Handshake.Gate
import Xfr.Handshake.Server
import Xfr.Handshake.Transcript
import Xfr.Handshake.Verification
import Xfr.Handshake.Version
import Xfr.Library.Affix
import Xfr.Library.Base64
import Xfr.Library.Bisection
import Xfr.Library.Bitmap
import Xfr.Library.Buffer
import Xfr.Library.Bytes
import Xfr.Library.CharBoundary
import Xfr.Library.Chunks
import Xfr.Library.Coalesce
import Xfr.Library.Conduit
import Xfr.Library.Csv
import Xfr.Library.Decimal
import Xfr.Library.ErrorKind
import Xfr.Library.Exposition
import Xfr.Library.FileSystem
import Xfr.Library.Fold
import Xfr.Library.FrameStream
import Xfr.Library.Freshest
import Xfr.Library.Interleaving
import Xfr.Library.JsonText
import Xfr.Library.JsonWriter
import Xfr.Library.Laps
import Xfr.Library.Marked
import Xfr.Library.Maximum
import Xfr.Library.Mealy
import Xfr.Library.MetricFamilies
import Xfr.Library.Percent
import Xfr.Library.Recent
import Xfr.Library.Serde
import Xfr.Library.Stopwatch
import Xfr.Library.System
import Xfr.Library.Trace
import Xfr.Library.U64
import Xfr.Library.Unsigned
import Xfr.Library.UpperCase
import Xfr.Library.Utf8
import Xfr.Library.Whitespace
import Xfr.Library.Wp
import Xfr.Messages.Control
import Xfr.Messages.Data
import Xfr.Mtu.Responder
import Xfr.Mtu.RunProbe
import Xfr.Mtu.SizeSearch
import Xfr.Output.CsvRows
import Xfr.Output.Exported
import Xfr.Output.Payload
import Xfr.Output.Plain
import Xfr.Output.Prometheus
import Xfr.Output.PushFamilies
import Xfr.Output.PushMetrics
import Xfr.Output.PushTable
import Xfr.Output.PushUrl
import Xfr.Output.Retention
import Xfr.Output.Terminal
import Xfr.Persistence.Atomic
import Xfr.Persistence.Save
import Xfr.Report.Basic
import Xfr.Report.Clock
import Xfr.Report.Completion
import Xfr.Report.Conservation
import Xfr.Report.Counter
import Xfr.Report.Drain
import Xfr.Report.Framed
import Xfr.Report.LossPath
import Xfr.Report.Received
import Xfr.Report.Sample
import Xfr.Report.Stats
import Xfr.Report.Turn
import Xfr.Report.UdpStats
import Xfr.Report.Wire
import Xfr.Serve.AcceptLoop
import Xfr.Serve.ActiveTests
import Xfr.Serve.DataStreams
import Xfr.Serve.Duration
import Xfr.Serve.HelloAgreement
import Xfr.Serve.HelloDispatch
import Xfr.Serve.HelloRoutes
import Xfr.Serve.HelloSockets
import Xfr.Serve.HelloSteps
import Xfr.Serve.Isolation
import Xfr.Serve.RateLimit
import Xfr.Serve.Restored
import Xfr.Serve.Slots
import Xfr.Serve.TestRun
import Xfr.Session.Basic
import Xfr.Session.Continuity
import Xfr.Session.Endpoint
import Xfr.Session.Message
import Xfr.Tracker.Advance
import Xfr.Tracker.Basic
import Xfr.Tracker.Exact
import Xfr.Tracker.Reference
import Xfr.Tracker.Refinement
import Xfr.Tracker.Stray
import Xfr.Tracker.Window
import Xfr.Transfer.Delivery
import Xfr.Transfer.Lane
import Xfr.Transfer.Receive
import Xfr.Tui.App
import Xfr.Tui.LossLog
import Xfr.Tui.ServerDashboard
import Xfr.Tui.Sparkline
import Xfr.Udp.HelloToken
import Xfr.Udp.LaneTee
import Xfr.Udp.Lanes
import Xfr.Udp.Packet
import Xfr.Udp.Probe
import Xfr.Udp.Receive
import Xfr.Udp.TailDrain
import Xfr.Udp.WireCodec
import Xfr.Budget.Datagrams
import Xfr.Discover.Browse
import Xfr.Discover.Listing
import Xfr.Handshake.Agreement
import Xfr.Handshake.Mismatch
import Xfr.Library.WatchChannel
import Xfr.Serve.Capacity
import Xfr.Serve.Shutdown
import Xfr.Tracker.Arrivals
import Xfr.Transfer.PauseGate
import Xfr.Transfer.UdpLane
import Xfr.Transfer.UdpReport
import Xfr.Tui.Session

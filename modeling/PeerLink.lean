import PeerLink.Bytes
import PeerLink.Channel
import PeerLink.Config
import PeerLink.Decimal.Shortest
import PeerLink.Decimal.Written
import PeerLink.Duration
import PeerLink.Echo.Address
import PeerLink.Echo.Server
import PeerLink.Envelope
import PeerLink.Handler.CallTask
import PeerLink.Handler.Script
import PeerLink.Handler.StreamTask
import PeerLink.HandlerError
import PeerLink.IdTable
import PeerLink.Json.Cursor
import PeerLink.Json.Error
import PeerLink.Json.Literal
import PeerLink.Json.Number
import PeerLink.Json.Shape
import PeerLink.Json.Skip
import PeerLink.Lifetime
import PeerLink.Lifetime.Watch
import PeerLink.Link.Framed
import PeerLink.Link.Inlet
import PeerLink.Link.Queues
import PeerLink.Link.Sink
import PeerLink.Link.WebSocket
import PeerLink.Message
import PeerLink.Meter
import PeerLink.Outbound
import PeerLink.Registry
import PeerLink.RemoteError
import PeerLink.Scenario.Report
import PeerLink.Scenario.Step
import PeerLink.Scenario.World
import PeerLink.Session.Basic
import PeerLink.Session.Machine
import PeerLink.Text.Quoted
import PeerLink.Text.Unprintable
import PeerLink.Text.Utf8
import PeerLink.Wire.ByteReader
import PeerLink.Wire.Header
import PeerLink.Wire.Packet
import PeerLink.Wire.PacketStream
import PeerLink.Wire.ReadBuffer
import PeerLink.Proofs.IdTable
import PeerLink.Proofs.Lifetimes
import PeerLink.Proofs.Session.Execution
import PeerLink.Proofs.Session.Frame
import PeerLink.Proofs.Session.Growth
import PeerLink.Proofs.Session.Serving
import PeerLink.Proofs.Session.Handles
import PeerLink.Proofs.Session.Tickets
import PeerLink.Proofs.Session.PendingTable
import PeerLink.Proofs.Session.OpenStreams
import PeerLink.Proofs.Session.Flow
import PeerLink.Proofs.Session.Correspondence
import PeerLink.Proofs.Pair.Execution
import PeerLink.Proofs.Pair.Calls
import PeerLink.Proofs.Pair.Streams
import PeerLink.Proofs.Pair.World
import PeerLink.Proofs.Wire.Decoding
import PeerLink.Proofs.Wire.Chunking
import PeerLink.Proofs.Session.Answering
import PeerLink.Proofs.Session.Deadlines
import PeerLink.Proofs.Session.Queueing
import PeerLink.Proofs.Link.Steps
import PeerLink.Proofs.Link.Execution
import PeerLink.Proofs.Link.Writing
import PeerLink.Proofs.Bytes
import PeerLink.Proofs.Text.Utf8
import PeerLink.Proofs.Json.Literal
import PeerLink.Proofs.RemoteError
import PeerLink.Proofs.Wire.RoundTrip
import PeerLink.Proofs.Session.Sorting
import PeerLink.Proofs.Session.Receiving
import PeerLink.Proofs.Session.Delivering
import PeerLink.Proofs.Session.Inbox
import PeerLink.Proofs.Session.Speaking
import PeerLink.Proofs.Session.OneVoice
import PeerLink.Proofs.Pair.StreamOrder
import PeerLink.Proofs.Wire.Agreement
import PeerLink.Proofs.Wire.Truncation
import PeerLink.Proofs.Lifetime.Tree
import PeerLink.Proofs.Session.Ending
import PeerLink.Proofs.Link.Ending
import PeerLink.Proofs.Lifetime.Waiting
import PeerLink.Proofs.Registry
import PeerLink.Proofs.Session.Work
import PeerLink.Proofs.Pair.Progress
import PeerLink.Proofs.Link.Intake
import PeerLink.Proofs.Link.Reading
import PeerLink.Proofs.Wire.Limits
import PeerLink.Proofs.Link.Transmission
import PeerLink.Proofs.Session.Discipline
import PeerLink.Proofs.Session.Wording
import PeerLink.Proofs.Session.Unnoted
import PeerLink.Proofs.Link.Messages
import PeerLink.Proofs.Link.Inbound
import PeerLink.Proofs.Link.Direct
import PeerLink.Proofs.Link.Transparency
import PeerLink.Proofs.Json.Reading
import PeerLink.Proofs.Message
import PeerLink.Proofs.Echo.Requests
import PeerLink.Proofs.Echo.Serving
import PeerLink.Proofs.Session.Lasting
import PeerLink.Proofs.Echo.Hearing
import PeerLink.Proofs.Link.Lasting
import PeerLink.Proofs.Echo.Handling
import PeerLink.Proofs.Link.Staffed
import PeerLink.Proofs.Link.Course
import PeerLink.Proofs.Echo.Running
import PeerLink.Proofs.Echo.Answers
import PeerLink.Proofs.Wire.Grammar
import PeerLink.Proofs.Session.Routing
import PeerLink.Proofs.Session.ClientView
import PeerLink.Proofs.Session.Completion
import PeerLink.Proofs.Session.LastResponse
import PeerLink.Proofs.Session.Closing
import PeerLink.Proofs.Session.FirstResponse
import PeerLink.Proofs.Session.Retrying
import PeerLink.Proofs.Session.Apart
import PeerLink.Proofs.Session.Unnumbered
import PeerLink.Proofs.Session.Reordering
import PeerLink.Proofs.HandlerError
import PeerLink.Proofs.Session.Reporting
import PeerLink.Proofs.Link.Dispatch
import PeerLink.Proofs.Link.Output
import PeerLink.Proofs.Link.Settling
import PeerLink.Proofs.Link.Undisturbed
import PeerLink.Proofs.Link.Defects
import PeerLink.Proofs.Wire.Filling
import PeerLink.Proofs.Wire.Memory
import PeerLink.Proofs.Wire.Polling
import PeerLink.Proofs.Wire.ByteReader
import PeerLink.Proofs.Json.Spelling
import PeerLink.Proofs.Json.Skipping
import PeerLink.Proofs.Json.Integer
import PeerLink.Proofs.Json.Members
import PeerLink.Proofs.Encoding
import PeerLink.Proofs.Session.Allocation

import PeerLink.Scenario.Step

/-! How a scenario is set up, and what is seen after each of its steps. -/
namespace PeerLink

/-- How the session of a scenario is connected. The last three are pairs: a second session of the
same peer is at the other end. -/
inductive LinkKind where
  | queues (capacity : Nat)
  | framed
  | webSocket
  | queuePair (capacity : Nat)
  /-- Bytes arrive in pieces of this size; whole, if it is zero. -/
  | bytePair (piece : Nat)
  | messagePair
  deriving DecidableEq, Repr

namespace LinkKind

/-- How many envelopes may wait in a queue. -/
def capacity (config : Config) : LinkKind → Nat
  | .queues n => n
  | .queuePair n => n
  | _ => config.channelCapacity

def transport (config : Config) : LinkKind → Transport
  | .queues _ => .queues .new
  | .queuePair _ => .paired
  | .framed => .framed (.new config.channelCapacity)
  | .bytePair _ => .framed (.new config.channelCapacity)
  | .webSocket => .webSocket (.new config.channelCapacity config.pingMessage)
  | .messagePair => .webSocket (.new config.channelCapacity config.pingMessage)

def wire : LinkKind → Wire
  | .queuePair _ => .queues
  | .bytePair n => .bytes n
  | .messagePair => .messages
  | _ => .single

end LinkKind

structure Setup where
  services : List ScriptService
  telemetry : Telemetry
  config : Config
  link : LinkKind
  /-- Notes are kept. -/
  logs : Bool

/-- Something that was written. -/
inductive Output where
  | envelope (e : Envelope)
  | bytes (data : Bytes)
  /-- The message that closes a websocket. -/
  | closeMessage
  /-- The end of the sink. -/
  | closed

/-- The number of ids that wait for responses, the number of streams that are served, and whether the
session has ended. -/
structure SessionStatus where
  pending : Nat
  openStreams : Nat
  ended : Bool

structure Report where
  a : SessionStatus
  b? : Option SessionStatus
  meter : Meter
  result? : Option StepResult
  outputs : List Output
  events : List Event
  logs : List String

/-- The key by which events are sorted. -/
def Event.key : Event → String
  | .call tag _ => "call:" ++ tag
  | .closed tag => "closed:" ++ tag
  | .handler e => "handler:" ++ e.method ++ "#" ++ toString e.id.toInt

namespace World

/-- A session of the peer with a new lifetime. -/
def newEndpoint (peer : Peer) (host : Host) (link : LinkKind) : Endpoint × Host :=
  let m : Station :=
    .new host peer.registry peer.config.callDuration (link.capacity peer.config)
  ({ session := m.session, line := .new, transport := link.transport peer.config
     callTasks := [], streamTasks := [] }, m.toHost)

/-- The world at the start: the session, or two of them, connected. There is none if a queue would be
larger than queues can be. -/
def ofSetup? (s : Setup) : Option World :=
  if Outbound.maxCapacity < s.link.capacity s.config then none
  else
    let peer := Peer.ofServices s.services s.config s.telemetry
    let (a, host) := newEndpoint peer (.new (s.telemetry == .counters)) s.link
    let (b?, host) := match s.link.wire with
      | .single => (none, host)
      | _ =>
        let (b, host) := newEndpoint peer host s.link
        (some b, host)
    let w : World :=
      { peer, host, a, b?, working := none, wire := s.link.wire, openGates := [], events := [], calls := []
        streams := [], lifetimes := [], closeWaiters := [] }
    some (w.settle.setHost fun h => { h with journal := [] })

def status (w : World) (e : Endpoint) : SessionStatus :=
  ⟨e.session.pending.size, e.session.openStreams.size, w.host.isCancelled e.session.lifetime⟩

/-- Sort by a number; what has the same number stays in order. -/
def sortById {α : Type} (id : α → Int32) (items : List α) : List α :=
  items.mergeSort fun x y => id x ≤ id y

/-- What was written to a transport since it was last looked at, by id; the end comes last. -/
def outputs (wasClosed : Bool) : Transport → List Output
  | .queues l => (sortById Envelope.id l.taken).map .envelope
  | .framed l =>
    (sortById Link.Written.id l.sink.taken).map (fun p => .bytes p.data) ++
      (if l.sink.closed && !wasClosed then [.closed] else [])
  | .webSocket l =>
    let packets := l.sink.taken.filterMap fun
      | .binary p => some p
      | .close => none
    let closes := l.sink.taken.filter (· = .close)
    (sortById Link.Written.id packets).map (fun p => .bytes p.data) ++
      closes.map (fun _ => .closeMessage) ++
      (if l.sink.closed && !wasClosed then [.closed] else [])
  | .paired => []

/-- The sink of a transport is closed. -/
def isSinkClosed : Transport → Bool
  | .framed l => l.sink.closed
  | .webSocket l => l.sink.closed
  | _ => false

/-- Forget what was written. -/
def clearTaken : Transport → Transport
  | .queues l => .queues { l with taken := [] }
  | .framed l => .framed { l with sink := { l.sink with taken := [] } }
  | .webSocket l => .webSocket { l with sink := { l.sink with taken := [] } }
  | .paired => .paired

/-- Run a step and look at what it did. What was seen is not seen again. -/
def observe (w : World) (step : ScenarioStep) : World × Report :=
  let wasClosed := isSinkClosed w.a.transport
  let (w, result?) := w.run step
  let report : Report :=
    { result?
      a := w.status w.a
      b? := w.b?.map w.status
      meter := w.host.meter
      outputs := if w.b?.isSome then [] else outputs wasClosed w.a.transport
      events := w.events.mergeSort fun x y => x.key ≤ y.key
      logs := (w.host.journal.map LogEvent.text).mergeSort fun x y => x ≤ y }
  ((({ w with events := [] }).onTransport clearTaken).setHost fun h => { h with journal := [] },
    report)

/-- Run all steps of a scenario. -/
def observeAll (w : World) : List ScenarioStep → List Report
  | [] => []
  | step :: steps =>
    let (w, report) := w.observe step
    report :: observeAll w steps

end World

/-- The reports of a scenario, if it can be set up. -/
def Setup.reports? (s : Setup) (steps : List ScenarioStep) : Option (List Report) :=
  (World.ofSetup? s).map fun w =>
    let reports := w.observeAll steps
    if s.logs then reports else reports.map fun r => { r with logs := [] }

end PeerLink

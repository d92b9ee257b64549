import PeerLink.Channel
import PeerLink.Handler.CallTask
import PeerLink.Handler.StreamTask
import PeerLink.Link.Queues
import PeerLink.Link.WebSocket
import PeerLink.Scenario.SendLine

/-! One session with its transport, or two sessions connected to each other, with everything that
happens around them: handlers, timers, gates, calls and streams of the program that owns them. The
world moves in small steps, each of which is a step of one task; `settle` takes steps until every task
waits for something that only time or the program can bring. -/
namespace PeerLink

/-- Who is told about the work of a peer. -/
inductive Telemetry where
  | none
  /-- Counters that are switched off. -/
  | disabled
  | counters
  deriving DecidableEq, Repr

/-- What all sessions of a program share: the handlers, the options and the counters. -/
structure Peer where
  registry : ScriptRegistry
  config : Config
  telemetry : Telemetry

namespace Peer

/-- The peer that serves these services, in order; one whose names are taken is left out. -/
def ofServices (services : List ScriptService) (config : Config) (telemetry : Telemetry) : Peer :=
  { config, telemetry
    registry := services.foldl
      (fun r s => match r.register s with
        | .ok r => r
        | .error _ => r) .empty }

def debug (p : Peer) : String :=
  let observer := match p.telemetry with
    | .none => "None"
    | _ => Text.tuple "Some" [Text.quoted "dyn Telemetry"]
  Text.record "Peer"
    [("registry", p.registry.debug), ("config", p.config.debug),
      ("observer", Text.tuple "Observer" [observer])]

end Peer

/-- How a session is connected. -/
inductive Transport where
  | queues (link : Link.Queues)
  | framed (link : Link.Framed)
  | webSocket (link : Link.WebSocket)
  /-- The session takes what the other session sends. -/
  | paired

/-- A session, its transport, and its handlers at work. -/
structure Endpoint where
  session : Session CallScript StreamScript
  line : SendLine
  transport : Transport
  callTasks : List CallTask
  streamTasks : List StreamTask

/-- How what one session writes gets to the other. -/
inductive Wire where
  /-- There is one session only. -/
  | single
  | queues
  /-- Bytes arrive in pieces of this size; whole, if it is zero. -/
  | bytes (piece : Nat)
  | messages
  deriving DecidableEq, Repr

/-- A call that the program is waiting for. -/
structure UserCall where
  tag : String
  side : Side
  call : CallId
  /-- As what the response is decoded, if it is. -/
  decodeAs : Option MessageType
  reported : Bool

/-- How a call ended for the program. -/
inductive CallOutcome where
  | payload (payload : Payload)
  | message (message : Message)
  | failed (error : CallError)
  | dropped

/-- Something that the program hears of. -/
inductive Event where
  | call (tag : String) (outcome : CallOutcome)
  /-- A session has ended. -/
  | closed (tag : String)
  | handler (event : HandlerEvent)

/-- A handler at work, by its place in the list of its session. -/
inductive Working where
  | call (side : Side) (i : Nat)
  | stream (side : Side) (i : Nat)
  deriving DecidableEq, Repr

structure World where
  peer : Peer
  host : Host
  openGates : List String
  events : List Event
  a : Endpoint
  b? : Option Endpoint
  /-- The handler that took the last step. -/
  working : Option Working
  wire : Wire
  calls : List UserCall
  /-- The streams that the program has opened. -/
  streams : List (String × Side × ClientStreamId)
  lifetimes : List (String × LifetimeId)
  /-- Tasks that wait for the end of a session. -/
  closeWaiters : List (String × Side)

namespace World

def sides : List Side :=
  [.a, .b]

def endpoint? (w : World) : Side → Option Endpoint
  | .a => some w.a
  | .b => w.b?

def setEndpoint (w : World) (side : Side) (e : Endpoint) : World :=
  match side with
  | .a => { w with a := e }
  | .b => { w with b? := w.b?.map fun _ => e }

/-- A session with what all share. -/
def station (w : World) (e : Endpoint) : Station :=
  { w.host with session := e.session }

/-- Put back a session, with what it changed. -/
def put (w : World) (side : Side) (e : Endpoint) (m : Station) : World :=
  { w with host := m.toHost }.setEndpoint side
    { e with session := m.session, line := e.line.follow m.session.outbound }

/-- Change the session on one side. -/
def onSide (w : World) (side : Side) (f : Station → Station) : World :=
  match w.endpoint? side with
  | none => w
  | some e => w.put side e (f (w.station e))

/-- Let the session on one side do something, if it can. -/
def tryOnSide (w : World) (side : Side) (f : Station → Option Station) : Option World :=
  match w.endpoint? side with
  | none => none
  | some e => (f (w.station e)).map fun m => w.put side e m

def setHost (w : World) (f : Host → Host) : World :=
  { w with host := f w.host }

def stage (w : World) : Stage :=
  ⟨w.openGates, []⟩

def addNotes (w : World) (s : Stage) : World :=
  { w with events := w.events ++ s.notes.map .handler }

/-! ### Steps of single tasks -/

def outbound? (w : World) (side : Side) (t : Ticket) : Option World :=
  w.tryOnSide side (·.advanceOutbound? t)

/-- The handler of a stream, if a send of it has ended. -/
def sentBy? (w : World) (side : Side) (t : Ticket) : Option Working := do
  let e ← w.endpoint? side
  match e.session.sends[t]? with
  | some ⟨.served i, _, .done _⟩ => some (.stream side i)
  | _ => none

/-- The sender that has the turn moves on. A handler whose send ends by that goes on before all others. -/
def turn? (w : World) (side : Side) : Option World := do
  let e ← w.endpoint? side
  let t ← e.session.outbound.flushing.or e.line.turn
  let w ← w.outbound? side t
  return { w with working := (w.sentBy? side t).or w.working }

/-- A turn that nobody has is given to the next sender. -/
def pass? (w : World) (side : Side) : Option World := do
  let e ← w.endpoint? side
  let o := e.session.outbound
  if (o.flushing.or e.line.turn).any o.tickets.contains then none
  else
    let t ← e.line.next? o
    return w.setEndpoint side { e with line := e.line.give t }

/-- A step of a transport that may change its session. -/
def onTransport? (w : World) (side : Side)
    (f : Station → Transport → Option (Station × Transport)) : Option World :=
  match w.endpoint? side with
  | none => none
  | some e =>
    (f (w.station e) e.transport).map fun (m, transport) => w.put side { e with transport } m

def read? (w : World) (side : Side) : Option World :=
  w.onTransport? side fun m t => match t with
    | .framed l => (l.read? m).map fun (m, l) => (m, .framed l)
    | .webSocket l => (l.read? m).map fun (m, l) => (m, .webSocket l)
    | _ => none

/-- A session of a pair takes what the other one has sent. When it stops, the other one can send no
more. -/
def consumePaired? (w : World) (side : Side) : Option World :=
  match w.tryOnSide side (·.stopConsuming? false) with
  | some w => some (w.onSide side.other Machine.abandonOutbound)
  | none =>
    match w.endpoint? side, w.endpoint? side.other with
    | some e, some other =>
      match other.session.outbound.take? with
      | none => none
      | some (envelope, outbound) =>
        ((w.station e).receive? envelope).map fun m =>
          (w.put side e m).onSide side.other (·.onSession fun s => { s with outbound })
    | _, _ => none

def consume? (w : World) (side : Side) : Option World :=
  if w.wire = .queues then w.consumePaired? side
  else w.onTransport? side fun m t => match t with
    | .queues l => (l.consume? m).map fun (m, l) => (m, .queues l)
    | .framed l => (l.consume? m).map fun (m, l) => (m, .framed l)
    | .webSocket l => (l.consume? m).map fun (m, l) => (m, .webSocket l)
    | .paired => none

def write? (w : World) (side : Side) : Option World :=
  w.onTransport? side fun m t => match t with
    | .queues l => (l.write? m).map fun (m, l) => (m, .queues l)
    | .framed l => (l.write? m).map fun (m, l) => (m, .framed l)
    | .webSocket l => (l.write? m).map fun (m, l) => (m, .webSocket l)
    | .paired => none

/-- The pieces of some bytes, each of `size` bytes but the last. -/
def pieces (size : Nat) (data : Bytes) : List Bytes :=
  if _h : size = 0 ∨ data.drop size = [] then [data]
  else data.take size :: pieces size (data.drop size)
termination_by data.length
decreasing_by
  simp only [List.length_drop]
  have : data.length ≠ 0 := by
    intro h
    simp [List.length_eq_zero_iff.1 h] at _h
  omega

/-- What was written on one side arrives on the other. -/
def forward? (w : World) (side : Side) : Option World :=
  match w.wire, w.endpoint? side, w.endpoint? side.other with
  | .bytes size, some e, some other =>
    match e.transport, other.transport with
    | .framed l, .framed r =>
      if l.sink.taken.isEmpty && (!l.sink.closed || r.sourceEnded) then none
      else
        let arriving := l.sink.taken.flatMap fun p => (pieces size p.data).map .chunk
        let l := { l with sink := { l.sink with taken := [] } }
        let r := { r with source := r.source ++ arriving, sourceEnded := l.sink.closed }
        some ((w.setEndpoint side { e with transport := .framed l }).setEndpoint side.other
          { other with transport := .framed r })
    | _, _ => none
  | .messages, some e, some other =>
    match e.transport, other.transport with
    | .webSocket l, .webSocket r =>
      if l.sink.taken.isEmpty && (!l.sink.closed || r.incomingEnded) then none
      else
        let arriving := l.sink.taken.map fun
          | .binary p => .binary p.data
          | .close => .close
        let l := { l with sink := { l.sink with taken := [] } }
        let r := { r with incoming := r.incoming ++ arriving, incomingEnded := l.sink.closed }
        some ((w.setEndpoint side { e with transport := .webSocket l }).setEndpoint side.other
          { other with transport := .webSocket r })
    | _, _ => none
  | _, _, _ => none

/-- The first of `count` things that can move on. -/
def firstOf (count : Nat) (f : Nat → Option World) : Option World :=
  (List.range count).findSome? f

def refusal? (w : World) (side : Side) : Option World :=
  match w.endpoint? side with
  | none => none
  | some e => firstOf e.session.refusals.length fun k => w.tryOnSide side (·.startRefusal? k)

def call? (w : World) (side : Side) : Option World :=
  match w.endpoint? side with
  | none => none
  | some e => firstOf e.session.calls.length fun c => w.tryOnSide side (·.pollCall? c)

def client? (w : World) (side : Side) : Option World :=
  match w.endpoint? side with
  | none => none
  | some e => firstOf e.session.clientStreams.length fun c => w.tryOnSide side (·.pollClient? c)

/-- Every run and every stream that was started gets its handler. -/
def spawn? (w : World) (side : Side) : Option World :=
  match w.endpoint? side with
  | none => none
  | some e =>
    if e.callTasks.length < e.session.runs.length then
      some (w.setEndpoint side { e with callTasks := e.callTasks ++ [.new e.callTasks.length] })
    else if e.streamTasks.length < e.session.servedStreams.length then
      some (w.setEndpoint side
        { e with streamTasks := e.streamTasks ++ [.new e.streamTasks.length] })
    else none

/-- A step of the handler of a call. -/
def stepCall? (w : World) (side : Side) (i : Nat) : Option World := do
  let e ← w.endpoint? side
  let t ← e.callTasks[i]?
  let (t, m, stage) ← t.step? (w.station e) w.stage
  let w := (w.put side { e with callTasks := e.callTasks.set i t } m).addNotes stage
  return { w with working := some (.call side i) }

/-- A step of the handler of a stream. -/
def stepStream? (w : World) (side : Side) (i : Nat) : Option World := do
  let e ← w.endpoint? side
  let t ← e.streamTasks[i]?
  let (t, m, stage) ← t.step? (w.station e) w.stage
  let w := (w.put side { e with streamTasks := e.streamTasks.set i t } m).addNotes stage
  return { w with working := some (.stream side i) }

def callTask? (w : World) (side : Side) : Option World :=
  match w.endpoint? side with
  | none => none
  | some e => firstOf e.callTasks.length (w.stepCall? side)

def streamTask? (w : World) (side : Side) : Option World :=
  match w.endpoint? side with
  | none => none
  | some e => firstOf e.streamTasks.length (w.stepStream? side)

/-- The handler that took the last step goes on, if it can. -/
def continue? (w : World) : Option World :=
  match w.working with
  | none => none
  | some (.call side i) => w.stepCall? side i
  | some (.stream side i) => w.stepStream? side i

def watcher? (w : World) (side : Side) : Option World :=
  match w.endpoint? side with
  | none => none
  | some e => firstOf e.callTasks.length fun i =>
    match e.callTasks[i]? with
    | none => none
    | some t =>
      (t.watch? (w.station e) w.stage).map fun (t, s) =>
        (w.setEndpoint side { e with callTasks := e.callTasks.set i t }).addNotes s

/-! ### Settling -/

/-- The sum of `f` over a list. -/
def total {α : Type} (f : α → Nat) : List α → Nat
  | [] => 0
  | x :: xs => f x + total f xs

/-- A measure of the data in a payload, and so on for what holds payloads. -/
def payloadWeight (p : Payload) : Nat :=
  1 + p.typeUrl.length + p.value.length

def contentWeight : Content → Nat
  | .payload p => payloadWeight p
  | .error e => 1 + e.name.length + e.message.length
  | _ => 1

def envelopeWeight : Envelope → Nat
  | .request r => 16 + r.method.length + payloadWeight r.payload
  | .response r => 16 + contentWeight r.content
  | _ => 16

def eventWeight : Wire.SourceEvent → Nat
  | .chunk data => 1 + data.length
  | .failure message => 1 + message.length
  | .notReady => 1

def messageWeight : Link.SocketMessage → Nat
  | .binary data => 1 + data.length
  | .text text => 1 + text.length
  | _ => 1

def transportWeight : Transport → Nat
  | .queues l => total envelopeWeight l.incoming
  | .framed l => total eventWeight l.source + l.stream.buffer.length
  | .webSocket l => total messageWeight l.incoming
  | .paired => 0

def callScriptWeight (s : CallScript) : Nat :=
  16 + s.actions.length + match s.reply with
    | .fixed p => payloadWeight p
    | _ => 0

def streamActionWeight : StreamAction → Nat
  | .send data => 1 + data.length
  | .trySend data => 1 + data.length
  | .sendRaw p => payloadWeight p
  | _ => 1

def streamScriptWeight : StreamScript → Nat
  | .actions actions => 16 + total streamActionWeight actions
  | .dropped _ => 16

def sessionWeight (s : Session CallScript StreamScript) : Nat :=
  total (fun x => envelopeWeight x.envelope) s.sends +
    total (fun x => 16 + total payloadWeight x.inbox) s.servedStreams +
    total (fun x => 16 + total contentWeight x.responses) s.clientStreams +
    total (fun x => payloadWeight x.payload) s.runs +
    16 * (s.calls.length + s.refusals.length) +
    total (fun x => callScriptWeight x.handler) s.registry.methods +
    total (fun x => streamScriptWeight x.handler) s.registry.streams

def endpointWeight (e : Endpoint) : Nat :=
  sessionWeight e.session + transportWeight e.transport

/-- All data in the world. -/
def weight (w : World) : Nat :=
  endpointWeight w.a + (w.b?.map endpointWeight).getD 0

/-- The kinds of steps. An earlier kind goes first, so that handlers start only when all that has
arrived for their sessions was taken in. -/
def kinds : List (World → Side → Option World) :=
  [pass?, read?, consume?, write?, forward?, refusal?, call?, client?, spawn?, callTask?, streamTask?,
    watcher?]

/-- One step of some task, if any task can move on. Sends go first, and then the handler that took the
last step: a handler is not interrupted as long as it need not wait. -/
def step? (w : World) : Option World :=
  match sides.findSome? w.turn? with
  | some w => some w
  | none =>
    match w.continue? with
    | some w => some w
    | none =>
      let w := { w with working := none }
      kinds.findSome? fun kind => sides.findSome? fun side => kind w side

/-- Take steps until no task can move on, or the fuel is used up. -/
def settleWith : (fuel : Nat) → World → World
  | 0, w => w
  | fuel + 1, w =>
    match w.step? with
    | none => w
    | some w => settleWith fuel w

/-- Take steps until no task can move on. What is there can start at most so many scripts, each with
so many actions, each of which sends so many bytes, which arrive one by one at worst: the cube of the
weight bounds the steps, up to a factor for the tasks through which data passes. -/
def settle (w : World) : World :=
  let n := w.weight + 16
  settleWith (64 * n * n * n) w

end World

end PeerLink

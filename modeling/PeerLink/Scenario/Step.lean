import PeerLink.Scenario.World

/-! Scenarios: what the program around a session and the outside world do, step by step, and what is
seen after each step, when everything has settled. -/
namespace PeerLink

/-- A payload, or a message that has to be encoded. -/
inductive Body where
  | payload (payload : Payload)
  | message (message : Message)
  deriving DecidableEq, Repr

/-- The lifetime under which a new one is created. -/
inductive LifetimeParent where
  | none
  | named (name : String)
  | ofSession (side : Side)
  deriving DecidableEq, Repr

inductive ScenarioStep where
  /-- Envelopes arrive together. -/
  | receiveEnvelopes (es : List Envelope)
  | receiveBytes (data : Bytes)
  /-- The source of bytes fails. -/
  | failSource (message : String)
  | receiveMessage (message : Link.SocketMessage)
  /-- Nothing more will arrive. -/
  | endInbound
  /-- Nobody takes envelopes any more. -/
  | dropOutbound
  | failSink (error : Link.SocketError)
  | failSinkClose
  | hold
  | permit (n : Nat)
  | unhold
  | advance (d : Duration)
  | release (key : String)
  | call (side : Side) (tag method : String) (body : Body) (decodeAs : Option MessageType)
    (timeout : Option Duration) (lifetime : Option String)
  | dropCall (tag : String)
  | bye (side : Side)
  | close (side : Side)
  | awaitClosed (side : Side) (tag : String)
  | debug (side : Side)
  | peerDebug
  | peerInfo (name : String)
  | lifetime (name : String) (parent : LifetimeParent)
  | cancel (name : String)
  | openStream (side : Side) (tag method : String)
  | dropStream (tag : String)
  | streamSend (tag : String) (body : Body)
  | streamReceive (tag : String) (decodeAs : Option MessageType)
  | streamReady (tag : String)
  | streamClose (tag : String)
  | streamCancel (tag : String)
  | streamInfo (tag : String)

/-- What an operation gives back. -/
inductive StepResult where
  | ok
  /-- It did not finish. -/
  | pending
  /-- The stream has ended. -/
  | ended
  | noInbound
  | text (text : String)
  | sessionClosed
  | streamError (error : StreamError)
  | payload (payload : Payload)
  | message (message : Message)
  /-- A stream was opened, with this id. -/
  | opened (id : Int32)
  | stream (id : Int32) (cancelled : Bool) (debug : String)
  /-- Whether the peer serves a method and a stream of a name. -/
  | peer (config : Config) (isMethod isStream : Bool)

/-- What is left to do for an operation once everything has settled. -/
inductive Pending where
  | done (result : Option StepResult)
  /-- A send was started; `wrap` tells its failure. -/
  | send (side : Side) (t : Ticket) (refused : StepResult)
  | receive (side : Side) (c : ClientStreamId) (decodeAs : Option MessageType)
  | ready (side : Side) (c : ClientStreamId)

namespace World

def stream? (w : World) (tag : String) : Option (Side × ClientStreamId) :=
  w.streams.lookup tag

/-- Change the transport of the first session. -/
def onTransport (w : World) (f : Transport → Transport) : World :=
  { w with a := { w.a with transport := f w.a.transport } }

/-- Something arrives, unless the inbound side has ended. -/
def arrive (w : World) (f : Transport → Option Transport) : World × Pending :=
  match f w.a.transport with
  | some t => (w.onTransport fun _ => t, .done none)
  | none => (w, .done (some .noInbound))

def setFlow (flow : Link.Flow) : Transport → Transport
  | .queues l => .queues { l with flow }
  | .framed l => .framed { l with sink := { l.sink with flow } }
  | .webSocket l => .webSocket { l with sink := { l.sink with flow } }
  | .paired => .paired

def endSource : Transport → Transport
  | .queues l => .queues { l with incomingEnded := true }
  | .framed l => .framed { l with sourceEnded := true }
  | .webSocket l => .webSocket { l with incomingEnded := true }
  | .paired => .paired

def failSink (e : Link.SocketError) : Transport → Transport
  | .framed l => .framed { l with sink := { l.sink with failure? := some () } }
  | .webSocket l => .webSocket { l with sink := { l.sink with failure? := some e } }
  | t => t

def failSinkClose : Transport → Transport
  | .framed l => .framed { l with sink := { l.sink with closeFails := true } }
  | .webSocket l => .webSocket { l with sink := { l.sink with closeFails := true } }
  | t => t

def arriveEnvelopes (es : List Envelope) : Transport → Option Transport
  | .queues l =>
    if l.incomingEnded then none else some (.queues { l with incoming := l.incoming ++ es })
  | t => some t

def arriveEvent (e : Wire.SourceEvent) : Transport → Option Transport
  | .framed l =>
    if l.sourceEnded then none else some (.framed { l with source := l.source ++ [e] })
  | t => some t

def arriveMessage (message : Link.SocketMessage) : Transport → Option Transport
  | .webSocket l =>
    if l.incomingEnded then none
    else some (.webSocket { l with incoming := l.incoming ++ [message] })
  | t => some t

/-! ### Time -/

/-- When the next timer of a session goes off. -/
def deadlines (e : Endpoint) : List Nat :=
  (e.session.calls.filterMap fun c => match c.state with
    | .waiting deadline? => deadline?
    | _ => none) ++
  e.callTasks.filterMap CallTask.wakeAt? ++ e.streamTasks.filterMap StreamTask.wakeAt?

/-- The next time up to `target` at which a timer goes off. -/
def nextDeadline? (w : World) (target : Nat) : Option Nat :=
  let all := deadlines w.a ++ (w.b?.map deadlines).getD []
  (all.filter fun t => w.host.now < t && t ≤ target).min?

/-- Let time pass up to `target`, from timer to timer, settling at each. -/
def advanceTo : (fuel : Nat) → (target : Nat) → World → World
  | 0, target, w => (w.setHost fun h => { h with now := target }).settle
  | fuel + 1, target, w =>
    match w.nextDeadline? target with
    | none => (w.setHost fun h => { h with now := target }).settle
    | some t => advanceTo fuel target (w.setHost fun h => { h with now := t }).settle

/-! ### Operations of the program -/

def addEvent (w : World) (e : Event) : World :=
  { w with events := w.events ++ [e] }

/-- Start a call; a message is encoded first. -/
def startCall (w : World) (side : Side) (tag method : String) (body : Body)
    (decodeAs : Option MessageType) (timeout : Option Duration) (lifetime : Option String) :
    World :=
  let failed (e : CallError) := w.addEvent (.call tag (.failed e))
  let payload : Except CodecError Payload := match body with
    | .payload p => .ok p
    | .message m => m.encode
  match payload, w.endpoint? side with
  | .error e, _ => failed (.encode e)
  | _, none => w
  | .ok p, some e =>
    let m := w.station e
    match m.startCall method p timeout (lifetime.bind fun n => w.lifetimes.lookup n) with
    | .error e => failed e
    | .ok m =>
      let call : UserCall :=
        { tag, side, call := e.session.calls.length, decodeAs, reported := false }
      let w := w.put side e m
      { w with calls := w.calls ++ [call] }

/-- Drop the call with a tag, if it is not over. -/
def dropCall (w : World) (tag : String) : World :=
  match w.calls.reverse.find? fun c => c.tag == tag && !c.reported with
  | none => w
  | some c =>
    let w := w.onSide c.side (·.dropCall c.call)
    let mark (x : UserCall) : UserCall :=
      if x.side = c.side ∧ x.call = c.call then { x with reported := true } else x
    let w := w.addEvent (.call tag .dropped)
    { w with calls := w.calls.map mark }

def createLifetime (w : World) (name : String) (parent : LifetimeParent) : World :=
  let parent : Option LifetimeId := match parent with
    | .none => none
    | .named p => w.lifetimes.lookup p
    | .ofSession side => (w.endpoint? side).map fun e => e.session.lifetime
  let l := w.host.lifetimes.next
  let w := w.setHost fun h => { h with lifetimes := h.lifetimes.add parent }
  { w with lifetimes := (name, l) :: w.lifetimes }

def cancelNamed (w : World) (name : String) : World :=
  match w.lifetimes.lookup name with
  | none => w
  | some l => w.setHost (·.cancel l)

def openStream (w : World) (side : Side) (tag method : String) : World × Pending :=
  match w.endpoint? side with
  | none => (w, .done none)
  | some e =>
    let c := e.session.clientStreams.length
    let m := (w.station e).openStream method
    let id := (m.session.clientStreams[c]?.map ClientStream.id).getD 0
    let w := w.put side e m
    ({ w with streams := (tag, side, c) :: w.streams }, .done (some (.opened id)))

/-- Do something with a stream of the program. -/
def withStream (w : World) (tag : String)
    (f : Side → Endpoint → ClientStreamId → World × Pending) : World × Pending :=
  match w.stream? tag with
  | none => (w, .done none)
  | some (side, c) =>
    match w.endpoint? side with
    | none => (w, .done none)
    | some e => f side e c

def streamSend (w : World) (tag : String) (body : Body) : World × Pending :=
  w.withStream tag fun side e c =>
    let payload : Except CodecError Payload := match body with
      | .payload p => .ok p
      | .message m => m.encode
    match payload with
    | .error e => (w, .done (some (.streamError (.encode e))))
    | .ok p =>
      match (w.station e).sendClient c p with
      | .error e => (w, .done (some (.streamError e)))
      | .ok m => (w.put side e m, .send side e.session.nextTicket (.streamError .sessionClosed))

def streamClose (w : World) (tag : String) : World × Pending :=
  w.withStream tag fun side e c =>
    match (w.station e).closeClient? c with
    | none => (w, .done (some .ok))
    | some m => (w.put side e m, .send side e.session.nextTicket (.streamError .sessionClosed))

def streamInfo (w : World) (tag : String) : World × Pending :=
  w.withStream tag fun _ e c =>
    match e.session.clientStreams[c]? with
    | none => (w, .done none)
    | some stream =>
      let debug := Text.record "ClientStream"
        [("id", toString stream.id.toInt), ("method", Text.quoted stream.method),
          ("lifetime", w.host.lifetimes.debug stream.lifetime)]
      (w, .done (some (.stream stream.id (w.host.isCancelled stream.lifetime) debug)))

def dropStream (w : World) (tag : String) : World × Pending :=
  w.withStream tag fun side _ c =>
    let w := w.onSide side (·.dropClient c)
    ({ w with streams := w.streams.filter fun s => s.1 ≠ tag }, .done none)

def streamCancel (w : World) (tag : String) : World × Pending :=
  w.withStream tag fun side _ c => (w.onSide side (·.dropClient c), .done none)

def bye (w : World) (side : Side) : World × Pending :=
  match w.endpoint? side with
  | none => (w, .done none)
  | some e => (w.onSide side Machine.bye, .send side e.session.nextTicket .sessionClosed)

/-- Start a step. -/
def begin (w : World) (step : ScenarioStep) : World × Pending :=
  let quiet (w : World) : World × Pending := (w, .done none)
  match step with
  | .receiveEnvelopes es => w.arrive (arriveEnvelopes es)
  | .receiveBytes data => w.arrive (arriveEvent (.chunk data))
  | .failSource message => w.arrive (arriveEvent (.failure message))
  | .receiveMessage message => w.arrive (arriveMessage message)
  | .endInbound => quiet (w.onTransport endSource)
  | .dropOutbound => quiet (w.onSide .a Machine.abandonOutbound)
  | .failSink e => quiet (w.onTransport (failSink e))
  | .failSinkClose => quiet (w.onTransport failSinkClose)
  | .hold => quiet (w.onTransport (setFlow (.held 0)))
  | .permit n => quiet (w.onTransport (setFlow (.held n)))
  | .unhold => quiet (w.onTransport (setFlow .free))
  | .advance d =>
    let n := w.weight + 1
    quiet (w.settle.advanceTo (n * n) (w.host.now + d.nanos))
  | .release key => quiet { w with openGates := key :: w.openGates }
  | .call side tag method body decodeAs timeout lifetime =>
    quiet (w.startCall side tag method body decodeAs timeout lifetime)
  | .dropCall tag => quiet (w.dropCall tag)
  | .bye side => w.bye side
  | .close side => quiet (w.onSide side Machine.close)
  | .awaitClosed side tag => quiet { w with closeWaiters := w.closeWaiters ++ [(tag, side)] }
  | .debug side =>
    (w, .done ((w.endpoint? side).map fun e => .text (w.station e).debug))
  | .peerDebug => (w, .done (some (.text w.peer.debug)))
  | .peerInfo name =>
    (w, .done (some (.peer w.peer.config (w.peer.registry.method? name).isSome
      (w.peer.registry.stream? name).isSome)))
  | .lifetime name parent => quiet (w.createLifetime name parent)
  | .cancel name => quiet (w.cancelNamed name)
  | .openStream side tag method => w.openStream side tag method
  | .dropStream tag => w.dropStream tag
  | .streamSend tag body => w.streamSend tag body
  | .streamReceive tag decodeAs => w.withStream tag fun side _ c => (w, .receive side c decodeAs)
  | .streamReady tag => w.withStream tag fun side _ c => (w, .ready side c)
  | .streamClose tag => w.streamClose tag
  | .streamCancel tag => w.streamCancel tag
  | .streamInfo tag => w.streamInfo tag

/-- What the program gets for something received on a stream. -/
def received (decodeAs : Option MessageType) : Except RemoteError Payload → StepResult
  | .error e => .streamError (.remote e)
  | .ok p =>
    match decodeAs with
    | none => .payload p
    | some type =>
      match Message.decode type p with
      | .ok m => .message m
      | .error e => .streamError (.decode e)

/-- Finish an operation when everything has settled; one that cannot finish is dropped. -/
def finishOp (w : World) : Pending → World × Option StepResult
  | .done result => (w, result)
  | .send side t refused =>
    match (w.endpoint? side).bind fun e => e.session.sendResult? t with
    | some .accepted => (w, some .ok)
    | some .refused => (w, some refused)
    | none => (w.onSide side (·.onSession (·.giveUp t)), some .pending)
  | .receive side c decodeAs =>
    match w.endpoint? side with
    | none => (w, none)
    | some e =>
      match (w.station e).receiveClient c with
      | (.message x, m) => (w.put side e m, some (received decodeAs x))
      | (.ended, _) => (w, some .ended)
      | (.blocked, _) => (w, some .pending)
  | .ready side c =>
    match w.endpoint? side with
    | none => (w, none)
    | some e =>
      match (w.station e).clientReady? c with
      | some (.ok ()) => (w, some .ok)
      | some (.error e) => (w, some (.streamError e))
      | none => (w, some .pending)

/-- What the program makes of the result of a call. -/
def outcome (decodeAs : Option MessageType) : Except CallError Payload → CallOutcome
  | .error e => .failed e
  | .ok p =>
    match decodeAs with
    | none => .payload p
    | some type =>
      match Message.decode type p with
      | .ok m => .message m
      | .error e => .failed (.decode e)

/-- How a call of the program ended, if it did and was not yet reported. -/
def callOutcome? (w : World) (c : UserCall) : Option CallOutcome :=
  if c.reported then none
  else match (w.endpoint? c.side).bind fun e => e.session.calls[c.call]? with
    | some call =>
      match call.state with
      | .returned r => some (outcome c.decodeAs r)
      | _ => none
    | none => none

/-- Tell the program of calls that have returned and of sessions that have ended. -/
def report (w : World) : World :=
  let returned := w.calls.filterMap fun c => (w.callOutcome? c).map (.call c.tag)
  let isEnded (side : Side) : Bool :=
    (w.endpoint? side).any fun e => (w.station e).isEnded
  let closed := (w.closeWaiters.filter fun c => isEnded c.2).map fun c => .closed c.1
  { w with
    events := w.events ++ returned ++ closed
    calls := w.calls.map fun c => { c with reported := c.reported || (w.callOutcome? c).isSome }
    closeWaiters := w.closeWaiters.filter fun c => !isEnded c.2 }

/-- One step of a scenario, up to the point where everything has settled. -/
def run (w : World) (step : ScenarioStep) : World × Option StepResult :=
  let (w, pending) := w.begin step
  let (w, result) := w.settle.finishOp pending
  (w.settle.report, result)

end World

end PeerLink

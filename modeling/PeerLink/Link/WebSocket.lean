import PeerLink.Link.Framed

/-! A session over an established websocket. A binary message carries exactly one envelope. A text
that is the agreed ping counts as a sign of life, and other messages have no effect. The reader stops
at a message that is no envelope, at a close message and at an error. The writer goes by the rules of
byte transports, except that it sends a close message before it closes the socket. -/
namespace PeerLink.Link

/-- Why a websocket fails. The first three are how it normally ends. -/
inductive SocketError where
  | connectionClosed
  | alreadyClosed
  | resetWithoutClose
  | other
  deriving DecidableEq, Repr

/-- Nothing has gone wrong. -/
def SocketError.isExpected : SocketError → Bool
  | .other => false
  | _ => true

/-- What arrives on a websocket. -/
inductive SocketMessage where
  | binary (data : Bytes)
  | text (text : String)
  | ping (data : Bytes)
  | pong (data : Bytes)
  | close
  | failure (error : SocketError)
  deriving DecidableEq, Repr

/-- What is written to a websocket. -/
inductive SocketOutput where
  | binary (packet : Written)
  | close
  deriving DecidableEq, Repr

inductive SocketWriter where
  | idle
  | writing (packet : Written)
  /-- The close message waits for the socket. -/
  | sendingClose
  /-- The socket is closed next; the close message goes first if it was refused. -/
  | closing (unsent : Bool)
  | stopped
  deriving DecidableEq, Repr

structure WebSocket where
  pingMessage : String
  /-- The messages that have arrived. -/
  incoming : List SocketMessage
  incomingEnded : Bool
  inlet : Inlet
  writer : SocketWriter
  sink : Sink SocketOutput SocketError

namespace WebSocket

variable {M S : Type}

def new (capacity : Nat) (pingMessage : String) : WebSocket :=
  { pingMessage, incoming := [], incomingEnded := false, inlet := .new capacity, writer := .idle
    sink := .new }

def stopReading (l : WebSocket) : WebSocket :=
  { l with inlet := l.inlet.stop }

/-- The reader looks at a message. -/
def gotMessage (m : Machine M S) (l : WebSocket) : SocketMessage → Machine M S × WebSocket
  | .binary data =>
    match Wire.decode data with
    | .ok e => (m, { l with inlet := l.inlet.offer e })
    | .error _ => (m.log .messageNotDecoded, l.stopReading)
  | .text text =>
    if text = l.pingMessage then (m.onHost fun h => { h with meter := h.meter.ping }, l)
    else (m.log .textIgnored, l)
  | .ping _ => (m, l)
  | .pong _ => (m, l)
  | .close => (m, l.stopReading)
  | .failure e => (if e.isExpected then m else m.log .messageNotRead, l.stopReading)

/-- The reader moves on, if it can. -/
def read? (m : Machine M S) (l : WebSocket) : Option (Machine M S × WebSocket) :=
  if l.inlet.reader ≠ .reading then
    (l.inlet.advance? m.session.consuming).map fun inlet => (m, { l with inlet })
  else if m.isEnded then some (m, l.stopReading)
  else match l.incoming with
    | message :: incoming => some (gotMessage m { l with incoming } message)
    | [] => if l.incomingEnded then some (m, l.stopReading) else none

/-- The session takes an envelope from the reader, or stops, if it can. -/
def consume? (m : Machine M S) (l : WebSocket) : Option (Machine M S × WebSocket) :=
  match m.stopConsuming? l.inlet.isExhausted, l.inlet.queued with
  | some m, _ => some (m, l)
  | none, e :: queued =>
    (m.receive? e).map fun m => (m, { l with inlet := { l.inlet with queued } })
  | none, [] => none

/-- The writer is done. -/
def stopWriting (m : Machine M S) (l : WebSocket) : Machine M S × WebSocket :=
  (m.abandonOutbound, { l with writer := .stopped })

/-- The writer moves on, if it can. -/
def write? (m : Machine M S) (l : WebSocket) : Option (Machine M S × WebSocket) :=
  match l.writer with
  | .idle =>
    if m.isEnded then some (m, { l with writer := .sendingClose })
    else match m.takeOutbound? with
      | none => none
      | some (e, m) =>
        match Wire.encode e with
        | .ok data => some (m, { l with writer := .writing ⟨e.id, data⟩ })
        | .error _ =>
          some ((m.log .envelopeNotEncoded).onHost fun h =>
            { h with meter := h.meter.failure }, l)
  | .writing packet =>
    match l.sink.poll with
    | (.blocked, _) => none
    | (.ready, sink) => some (m, { l with sink := sink.put (.binary packet), writer := .idle })
    | (.failed e, sink) =>
      let m := if e.isExpected then m else m.log .messageNotWritten
      some (stopWriting (m.cancel m.session.lifetime) { l with sink })
  | .sendingClose =>
    match l.sink.poll with
    | (.blocked, _) => none
    | (.ready, sink) => some (m, { l with sink := sink.put .close, writer := .closing false })
    | (.failed _, sink) => some (m, { l with sink, writer := .closing true })
  | .closing false => some (stopWriting m { l with sink := l.sink.close })
  | .closing true =>
    match l.sink.poll with
    | (.blocked, _) => none
    | (.ready, sink) => some (m, { l with sink := sink.put .close, writer := .closing false })
    | (.failed _, sink) => some (stopWriting m { l with sink })
  | .stopped => none

end WebSocket

end PeerLink.Link

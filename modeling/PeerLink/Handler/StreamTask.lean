import PeerLink.Handler.Script

/-! A handler's script at work on a stream. -/
namespace PeerLink

/-- What the handler of a stream waits for, beside the conditions of its next action. -/
inductive StreamPause where
  | none
  /-- A send that the next action has started. -/
  | sending (t : Ticket)
  | asleep (wakeAt : Nat)

/-- How far the handler of a stream has got. -/
inductive StreamProgress where
  | fresh
  | acting (left : List StreamAction) (pause : StreamPause)
  /-- The stream was dropped; the handler returns when the gate opens. -/
  | atGate (key : String)
  | returned

/-- The handler of a stream. -/
structure StreamTask where
  stream : ServedStreamId
  progress : StreamProgress

namespace StreamTask

def new (stream : ServedStreamId) : StreamTask :=
  ⟨stream, .fresh⟩

/-- The state of a stream in words. -/
def describe (m : Station) (stream : ServedStream StreamScript) : String :=
  Text.record "ServerStream"
    [("id", toString stream.id.toInt), ("method", Text.quoted stream.method),
      ("lifetime", m.lifetimes.debug stream.lifetime)]

/-- A task with what it did to its session and what it noted. -/
abbrev Outcome := StreamTask × Station × Stage

def act (t : StreamTask) (left : List StreamAction) (pause : StreamPause) : StreamTask :=
  { t with progress := .acting left pause }

/-- Return from the handler. -/
def finish (t : StreamTask) (m : Station) (stage : Stage) (result : Except Failure Unit) :
    Outcome :=
  ({ t with progress := .returned }, m.finishServed t.stream result, stage)

/-- Return from the handler because of an error of its stream. -/
def failWith (t : StreamTask) (m : Station) (stage : Stage) (e : StreamError) : Outcome :=
  t.finish m stage (.error (.ofRoot (.stream e)))

/-- Start a send, and stay at the action until it has ended. -/
def sendThen (t : StreamTask) (m : Station) (stage : Stage) (content : Content)
    (actions : List StreamAction) : Outcome :=
  (t.act actions (.sending m.session.nextTicket), m.sendServed t.stream content, stage)

/-- Start the send of a message. -/
def sendMessage (t : StreamTask) (m : Station) (stage : Stage) (message : Message)
    (actions : List StreamAction) : Outcome :=
  match message.encode with
  | .ok p => t.sendThen m stage (.payload p) actions
  | .error e => t.failWith m stage (.encode e)

/-- The text of an echo message. -/
def decodeEcho (p : Payload) : Except CodecError String :=
  match Message.decode .echo p with
  | .ok (.echo s) => .ok s
  | .ok _ => .ok ""
  | .error e => .error e

/-- Receive a payload and go on with it, or with none at the end of the stream. -/
def receiveThen? (t : StreamTask) (m : Station) (k : Station → Option Payload → Outcome) :
    Option Outcome :=
  match m.receiveServed t.stream with
  | (.message p, m) => some (k m (some p))
  | (.ended, m) => some (k m none)
  | (.blocked, _) => none

/-- Carry out the first action, if nothing keeps it waiting. -/
def act? (t : StreamTask) (m : Station) (stage : Stage) (stream : ServedStream StreamScript)
    (action : StreamAction) (left : List StreamAction) : Option Outcome :=
  let note (stage : Stage) (n : HandlerNote) := stage.note stream.method stream.id n
  let next := t.act left .none
  match action with
  | .ready => some (t.sendThen m stage (.ready true) (action :: left))
  | .send data => some (t.sendMessage m stage (.echo data) (action :: left))
  | .trySend data => some (t.sendMessage m stage (.echo data) (action :: left))
  | .sendRaw p => some (t.sendThen m stage (.payload p) (action :: left))
  | .sendBad => some (t.sendMessage m stage .byteKeyed (action :: left))
  | .receive => t.receiveThen? m fun
    | m, none => (next, m, note stage (.received none))
    | m, some p =>
      match decodeEcho p with
      | .ok s => (next, m, note stage (.received (some s)))
      | .error e => t.failWith m stage (.decode e)
  | .tryReceive => t.receiveThen? m fun
    | m, none => (next, m, note stage (.received none))
    | m, some p =>
      match decodeEcho p with
      | .ok s => (next, m, note stage (.received (some s)))
      | .error e => (next, m, note stage (.receiveFailed (.decode e)))
  | .receiveRaw => t.receiveThen? m fun m p? => (next, m, note stage (.receivedRaw p?))
  | .echo => t.receiveThen? m fun
    | m, none => (next, m, stage)
    | m, some p =>
      match decodeEcho p with
      | .ok s => t.sendMessage m stage (.echo s) (action :: left)
      | .error e => t.failWith m stage (.decode e)
  | .echoRaw => t.receiveThen? m fun
    | m, none => (next, m, stage)
    | m, some p => t.sendThen m stage (.payload p) (action :: left)
  | .close =>
    let ticket := m.session.nextTicket
    match m.closeByHandler? t.stream with
    | none => some (next, m, stage)
    | some m => some (t.act (action :: left) (.sending ticket), m, stage)
  | .log => some (next, m, note stage (.stream (describe m stream)))
  | .wait =>
    if m.isCancelled stream.lifetime then some (next, m, note stage .lifetimeCancelled) else none
  | .cancel => some (next, m.cancel stream.lifetime, stage)
  | .gate key => if stage.isOpen key then some (next, m, stage) else none
  | .sleep d => some (t.act left (.asleep (m.now + d.nanos)), m, stage)
  | .fail failure => some (t.finish m stage (.error failure))

/-- The send of an action has ended. An echo goes on, any other action is done; one that was refused
ends the handler, unless it was only tried. -/
def sent (t : StreamTask) (m : Station) (stage : Stage) (stream : ServedStream StreamScript)
    (left : List StreamAction) (result : SendResult) : Outcome :=
  match left, result with
  | .trySend _ :: left, .accepted =>
    (t.act left .none, m, stage.note stream.method stream.id (.sent (.ok ())))
  | .trySend _ :: left, .refused =>
    (t.act left .none, m, stage.note stream.method stream.id (.sent (.error .sessionClosed)))
  | _, .refused => t.failWith m stage .sessionClosed
  | .echo :: _, .accepted => (t.act left .none, m, stage)
  | .echoRaw :: _, .accepted => (t.act left .none, m, stage)
  | left, .accepted => (t.act (left.drop 1) .none, m, stage)

/-- The handler moves on, if it can. -/
def step? (t : StreamTask) (m : Station) (stage : Stage) : Option Outcome :=
  match m.session.servedStreams[t.stream]? with
  | none => none
  | some stream =>
    match t.progress with
    | .fresh =>
      match stream.handler with
      | .actions actions => some (t.act actions .none, m, stage)
      | .dropped key =>
        some ({ t with progress := .atGate key }, m, stage.note stream.method stream.id .dropped)
    | .acting left (.sending ticket) =>
      (m.session.sendResult? ticket).map (t.sent m stage stream left)
    | .acting left (.asleep wakeAt) =>
      if wakeAt ≤ m.now then some (t.act left .none, m, stage) else none
    | .acting [] .none => some (t.finish m stage (.ok ()))
    | .acting (action :: left) .none => t.act? m stage stream action left
    | .atGate key => if stage.isOpen key then some (t.finish m stage (.ok ())) else none
    | .returned => none

/-- When the handler wakes up, if it is asleep. -/
def wakeAt? (t : StreamTask) : Option Nat :=
  match t.progress with
  | .acting _ (.asleep wakeAt) => some wakeAt
  | _ => none

end StreamTask

end PeerLink

import PeerLink.Session.Basic

/-! A session at work. A `Machine` is a session with what it shares with others: the clock, the forest
of lifetimes, the counts and the notes. The operations below are the things that can happen to it in
one go: an envelope of the remote peer is handled, a task of the session moves on, or the program that
owns the session uses it. -/
namespace PeerLink

/-- What the sessions of one program share. Time is counted in nanoseconds. -/
structure Host where
  now : Nat
  lifetimes : Lifetimes
  meter : Meter
  journal : List LogEvent
  deriving DecidableEq, Repr

namespace Host

def new (active : Bool) : Host :=
  ⟨0, .empty, .new active, []⟩

def log (h : Host) (e : LogEvent) : Host :=
  { h with journal := h.journal ++ [e] }

def cancel (h : Host) (l : LifetimeId) : Host :=
  { h with lifetimes := h.lifetimes.cancel l }

def isCancelled (h : Host) (l : LifetimeId) : Bool :=
  h.lifetimes.isCancelled l

end Host

structure Machine (M S : Type) extends Host where
  session : Session M S

namespace Machine

variable {M S : Type}

def onHost (m : Machine M S) (f : Host → Host) : Machine M S :=
  { m with toHost := f m.toHost }

def onSession (m : Machine M S) (f : Session M S → Session M S) : Machine M S :=
  { m with session := f m.session }

def log (m : Machine M S) (e : LogEvent) : Machine M S :=
  m.onHost (·.log e)

def cancel (m : Machine M S) (l : LifetimeId) : Machine M S :=
  m.onHost (·.cancel l)

/-- Create a lifetime. -/
def addLifetime (m : Machine M S) (parent : Option LifetimeId) : Machine M S :=
  m.onHost fun h => { h with lifetimes := h.lifetimes.add parent }

/-- The session has ended. -/
def isEnded (m : Machine M S) : Bool :=
  m.isCancelled m.session.lifetime

/-- A machine with a new session, whose lifetime has no parent. -/
def new (host : Host) (registry : Registry M S) (callTimeout : Option Duration)
    (capacity : Nat) : Machine M S :=
  { host with
    lifetimes := host.lifetimes.add none
    session := .new registry callTimeout capacity host.lifetimes.next }

/-! ### Calls -/

/-- A call is over: its slot is freed. -/
def endCall (m : Machine M S) (c : CallId) (state : CallState) : Machine M S :=
  match m.session.calls[c]? with
  | none => m
  | some call =>
    m.onSession fun s =>
      { s with pending := s.pending.erase call.id }.modifyCall c fun x => { x with state }

/-- Start a call; on an ended session it fails at once. -/
def startCall (m : Machine M S) (method : String) (payload : Payload) (timeout : Option Duration)
    (lifetime : Option LifetimeId) : Except CallError (Machine M S) :=
  if m.isEnded then .error .sessionClosed
  else .ok (m.onSession fun s =>
    let c := s.calls.length
    let t := s.nextTicket
    let (id, s) := s.allocate (.call c true)
    let call : Call :=
      { id, method, lifetime
        timeout := timeout.or s.callTimeout
        response := none
        state := .sending t }
    { s with calls := s.calls ++ [call] }.beginSend (.call c)
      (.request { id, method, payload, isStream := false }))

/-- Nobody will ever answer the call: its slot is gone or was used. -/
def isOrphaned (m : Machine M S) (c : CallId) (call : Call) : Bool :=
  match m.session.pending.get? call.id with
  | some (.call owner isOpen) => owner ≠ c || !isOpen
  | _ => true

/-- A waiting call returns if it can. A response counts more than a cancelled lifetime, and that more
than the deadline. -/
def pollCall? (m : Machine M S) (c : CallId) : Option (Machine M S) :=
  match m.session.calls[c]? with
  | some call =>
    match call.state with
    | .waiting deadline? =>
      let finish (r : Except CallError Payload) := some (m.endCall c (.returned r))
      if let some content := call.response then finish content.callResult
      else if m.isOrphaned c call then finish (.error .sessionClosed)
      else if call.lifetime.any m.isCancelled then finish (.error .cancelled)
      else if deadline?.any fun d => d ≤ m.now then
        finish (.error (.timeout (call.timeout.getD ⟨0⟩)))
      else none
    | _ => none
  | none => none

/-- The owner of a call drops it. -/
def dropCall (m : Machine M S) (c : CallId) : Machine M S :=
  match m.session.calls[c]? with
  | some call =>
    match call.state with
    | .sending t => (m.onSession (·.giveUp t)).endCall c .dropped
    | .waiting _ => m.endCall c .dropped
    | _ => m
  | none => m

/-! ### Sends -/

/-- A send has ended. A call whose request is queued starts to wait, and its time to run; one whose
request was refused fails. -/
def finishSend (m : Machine M S) (t : Ticket) (result : SendResult) : Machine M S :=
  let m := m.onSession (·.setSendState t (.done result))
  match m.session.sends[t]? with
  | some ⟨.call c, _, _⟩ =>
    match result with
    | .accepted =>
      m.onSession (·.modifyCall c fun call =>
        { call with state := .waiting (call.timeout.map fun d => m.now + d.nanos) })
    | .refused => m.endCall c (.returned (.error .sessionClosed))
  | _ => m

/-- A sender goes on, if it can. -/
def advanceOutbound? (m : Machine M S) (t : Ticket) : Option (Machine M S) :=
  match m.session.outbound.advance? t with
  | none => none
  | some (outbound, result?) =>
    let m := m.onSession fun s => { s with outbound }
    match result? with
    | none => some m
    | some result => some (m.finishSend t result)

/-- The transport takes the next envelope. -/
def takeOutbound? (m : Machine M S) : Option (Envelope × Machine M S) :=
  match m.session.outbound.take? with
  | none => none
  | some (e, outbound) => some (e, m.onSession fun s => { s with outbound })

/-- The transport will take no more envelopes. -/
def abandonOutbound (m : Machine M S) : Machine M S :=
  m.onSession fun s => { s with outbound := s.outbound.abandon }

/-- Start the send of an answer to a request that no handler serves. -/
def startRefusal? (m : Machine M S) (k : RefusalId) : Option (Machine M S) :=
  match m.session.refusals[k]? with
  | some ⟨response, false⟩ =>
    some (m.onSession fun s =>
      { s with refusals := s.refusals.modify k fun x => { x with started := true } }.beginSend
        (.refusal k) (.response response))
  | _ => none

/-! ### Envelopes of the remote peer -/

/-- End a stream that is served: nothing more arrives for its handler. -/
def closeServed (m : Machine M S) (i : ServedStreamId) : Machine M S :=
  match m.session.servedStreams[i]? with
  | none => m
  | some stream =>
    (m.onSession (·.modifyServed i fun x => { x with inboxClosed := true })).cancel stream.lifetime

/-- End all streams that are served. -/
def closeOpenStreams (m : Machine M S) : Machine M S :=
  let m' := m.session.openStreams.entries.foldl (fun m e => m.closeServed e.2) m
  m'.onSession fun s => { s with openStreams := .empty }

/-- Note the answer for a request that no handler serves. A task of its own sends it. -/
def refuse (m : Machine M S) (id : Int32) (error : RemoteError) : Machine M S :=
  m.onSession fun s => { s with refusals := s.refusals ++ [⟨⟨id, .error error⟩, false⟩] }

/-- A response goes to whoever waits for its id. -/
def deliver (m : Machine M S) (r : Response) : Machine M S :=
  match m.session.pending.get? r.id with
  | some (.call c true) =>
    m.onSession fun s =>
      { s with pending := s.pending.modify r.id fun _ => .call c false }.modifyCall c fun x =>
        { x with response := some r.content }
  | some (.stream c) =>
    m.onSession (·.modifyClient c fun x => { x with responses := x.responses ++ [r.content] })
  | _ => m.log .unknownRequestAnswered

/-- A call of the remote peer starts a run of its handler, under a lifetime below the session's. -/
def handleCall (m : Machine M S) (r : Request) : Machine M S :=
  match m.session.registry.method? r.method with
  | none => (m.log .methodNotFound).refuse r.id (.methodNotFound r.method)
  | some method =>
    let lifetime := m.lifetimes.next
    (m.addLifetime (some m.session.lifetime)).onSession fun s =>
      { s with runs := s.runs ++
          [{ id := r.id, method := r.method, handler := method.handler, payload := r.payload,
             lifetime, result := none }] }

/-- A stream message of the remote peer goes to the open stream with its id; if there is none, it
opens one. -/
def handleStream (m : Machine M S) (r : Request) : Machine M S :=
  match m.session.openStreams.get? r.id with
  | some i => m.onSession (·.modifyServed i fun x => { x with inbox := x.inbox ++ [r.payload] })
  | none =>
    match m.session.registry.stream? r.method with
    | none => (m.log .streamNotFound).refuse r.id (.streamNotFound r.method)
    | some method =>
      let lifetime := m.lifetimes.next
      (m.addLifetime (some m.session.lifetime)).onSession fun s =>
        { s with
          openStreams := s.openStreams.insert r.id s.servedStreams.length
          servedStreams := s.servedStreams ++
            [{ id := r.id, method := r.method, handler := method.handler, lifetime
               inbox := [r.payload], inboxClosed := false, closeSent := false
               result := none }] }

/-- The remote peer sends no more messages on a stream. -/
def handleStreamClose (m : Machine M S) (id : Int32) : Machine M S :=
  match m.session.openStreams.get? id with
  | some i => (m.closeServed i).onSession fun s => { s with openStreams := s.openStreams.erase id }
  | none => m.log .unknownStreamClosed

def handle (m : Machine M S) (e : Envelope) : Machine M S :=
  match e with
  | .bye => m.closeOpenStreams
  | .streamClose id => m.handleStreamClose id
  | .response r => m.deliver r
  | .request r => if r.isStream then m.handleStream r else m.handleCall r
  | .opening _ => m
  | .openingAck _ => m

/-- The session takes an envelope, as long as it has not ended. -/
def receive? (m : Machine M S) (e : Envelope) : Option (Machine M S) :=
  if m.session.consuming && !m.isEnded then some (m.handle e) else none

/-- The session stops taking envelopes, once it has ended or no more will come. -/
def stopConsuming? (m : Machine M S) (exhausted : Bool) : Option (Machine M S) :=
  if m.session.consuming && (m.isEnded || exhausted) then
    some ((m.closeOpenStreams.cancel m.session.lifetime).onSession fun s =>
      { s with consuming := false })
  else none

/-! ### Handlers -/

/-- The handler of a call has returned. -/
def finishRun (m : Machine M S) (r : RunId) (result : Except HandlerError Payload) :
    Machine M S :=
  match m.session.runs[r]? with
  | none => m
  | some run =>
    let m := (m.cancel run.lifetime).onSession fun s =>
      { s with runs := s.runs.modify r fun x => { x with result := some result } }
    match result with
    | .ok payload =>
      (m.onHost fun h => { h with meter := h.meter.success }).onSession
        (·.beginSend (.run r) (.response ⟨run.id, .payload payload⟩))
    | .error e =>
      ((m.log .handlerFailed).onHost fun h => { h with meter := h.meter.failure }).onSession
        (·.beginSend (.run r) (.response ⟨run.id, .error e.toRemote⟩))

/-- A handler sends a message or mark on its stream. -/
def sendServed (m : Machine M S) (i : ServedStreamId) (content : Content) : Machine M S :=
  match m.session.servedStreams[i]? with
  | none => m
  | some stream => m.onSession (·.beginSend (.served i) (.response ⟨stream.id, content⟩))

/-- A handler closes its stream. Only the first close is sent; `none` if there was one before. -/
def closeByHandler? (m : Machine M S) (i : ServedStreamId) : Option (Machine M S) :=
  match m.session.servedStreams[i]? with
  | none => none
  | some stream =>
    if stream.closeSent then none
    else some ((m.onSession (·.modifyServed i fun x => { x with closeSent := true })).sendServed i
      (.close true))

/-- What a handler receives: a queued message, or nothing more once the stream has ended. -/
inductive Receipt (α : Type) where
  | message (a : α)
  | ended
  | blocked

/-- A handler receives. Queued messages come before the end of the stream. -/
def receiveServed (m : Machine M S) (i : ServedStreamId) : Receipt Payload × Machine M S :=
  match m.session.servedStreams[i]? with
  | none => (.ended, m)
  | some stream =>
    match stream.inbox with
    | p :: rest => (.message p, m.onSession (·.modifyServed i fun x => { x with inbox := rest }))
    | [] => (if stream.inboxClosed || m.isCancelled stream.lifetime then .ended else .blocked, m)

/-- Take a stream whose handler has returned from the table, unless its id is in use again. -/
def removeServed (m : Machine M S) (i : ServedStreamId) (id : Int32) : Machine M S :=
  if m.session.openStreams.get? id = some i then
    (m.closeServed i).onSession fun s => { s with openStreams := s.openStreams.erase id }
  else m

/-- The handler of a stream has returned. Unless it closed the stream itself, the end is sent now. -/
def finishServed (m : Machine M S) (i : ServedStreamId) (result : Except Failure Unit) :
    Machine M S :=
  match m.session.servedStreams[i]? with
  | none => m
  | some stream =>
    let m := (m.removeServed i stream.id).cancel stream.lifetime
    let m := m.onSession (·.modifyServed i fun x => { x with result := some result })
    match result with
    | .ok () =>
      let m := m.onHost fun h => { h with meter := h.meter.success }
      if stream.closeSent then m
      else m.onSession fun s =>
        (s.modifyServed i fun x => { x with closeSent := true }).beginSend (.completion i)
          (.response ⟨stream.id, .close true⟩)
    | .error e =>
      ((m.log .streamHandlerFailed).onHost fun h => { h with meter := h.meter.failure }).onSession
        (·.beginSend (.completion i) (.response ⟨stream.id, .error e.toRemote⟩))

/-! ### Streams opened here -/

/-- Open a stream. The remote peer learns of it with the first message. -/
def openStream (m : Machine M S) (method : String) : Machine M S :=
  let lifetime := m.lifetimes.next
  (m.addLifetime (some m.session.lifetime)).onSession fun s =>
    let (id, s) := s.allocate (.stream s.clientStreams.length)
    { s with clientStreams := s.clientStreams ++
        [{ id, method, lifetime, responses := [], ready := false, ended := false, messages := []
           closeSent := false }] }

/-- Responses of a stream are no longer sorted: its slot is freed and its lifetime ends. -/
def endClient (m : Machine M S) (c : ClientStreamId) (stream : ClientStream) : Machine M S :=
  (m.onSession fun s =>
    { s with pending := s.pending.erase stream.id }.modifyClient c fun x =>
      { x with ended := true }).cancel stream.lifetime

/-- Sort one response. The first one makes the stream ready, and only tells that if it is a plain mark
of readiness. A close or an error ends the stream. -/
def sortResponse (m : Machine M S) (c : ClientStreamId) (stream : ClientStream)
    (content : Content) (rest : List Content) : Machine M S :=
  let m := m.onSession (·.modifyClient c fun x => { x with responses := rest, ready := true })
  let put (message : Except RemoteError Payload) :=
    m.onSession (·.modifyClient c fun x => { x with messages := x.messages ++ [message] })
  match content with
  | .payload p => put (.ok p)
  | .error e => (put (.error e)).endClient c stream
  | .close _ => m.endClient c stream
  | .ready _ => m

/-- The task that sorts the responses of a stream moves on, if it can. Once the lifetime of the stream
is cancelled it stops and leaves what was not sorted. -/
def pollClient? (m : Machine M S) (c : ClientStreamId) : Option (Machine M S) :=
  match m.session.clientStreams[c]? with
  | none => none
  | some stream =>
    if stream.ended then none
    else if m.isCancelled stream.lifetime then some (m.endClient c stream)
    else match stream.responses with
      | [] => none
      | content :: rest => some (m.sortResponse c stream content rest)

/-- Send a message on a stream. A message on an ended stream would open a new one. -/
def sendClient (m : Machine M S) (c : ClientStreamId) (payload : Payload) :
    Except StreamError (Machine M S) :=
  match m.session.clientStreams[c]? with
  | none => .error .ended
  | some stream =>
    if m.isEnded then .error .sessionClosed
    else if m.isCancelled stream.lifetime || stream.closeSent then .error .ended
    else .ok (m.onSession (·.beginSend (.client c)
      (.request { id := stream.id, method := stream.method, payload, isStream := true })))

/-- Close a stream. Only the first close is sent; `none` if there was one before. -/
def closeClient? (m : Machine M S) (c : ClientStreamId) : Option (Machine M S) :=
  match m.session.clientStreams[c]? with
  | none => none
  | some stream =>
    if stream.closeSent then none
    else some (m.onSession fun s =>
      (s.modifyClient c fun x => { x with closeSent := true }).beginSend (.client c)
        (.streamClose stream.id))

/-- Receive a message of a stream. -/
def receiveClient (m : Machine M S) (c : ClientStreamId) :
    Receipt (Except RemoteError Payload) × Machine M S :=
  match m.session.clientStreams[c]? with
  | none => (.ended, m)
  | some stream =>
    match stream.messages with
    | x :: rest =>
      (.message x, m.onSession (·.modifyClient c fun x => { x with messages := rest }))
    | [] => (if stream.ended then .ended else .blocked, m)

/-- Whether a stream is ready; `none` as long as that is open. -/
def clientReady? (m : Machine M S) (c : ClientStreamId) : Option (Except StreamError Unit) :=
  match m.session.clientStreams[c]? with
  | none => some (.error .ended)
  | some stream =>
    if stream.ready then some (.ok ())
    else if stream.ended then some (.error .ended)
    else none

/-- The owner of a stream drops it. -/
def dropClient (m : Machine M S) (c : ClientStreamId) : Machine M S :=
  match m.session.clientStreams[c]? with
  | none => m
  | some stream => m.cancel stream.lifetime

/-! ### The session as a whole -/

/-- Tell the remote peer that this side is going away. -/
def bye (m : Machine M S) : Machine M S :=
  m.onSession (·.beginSend .bye .bye)

/-- End the session. -/
def close (m : Machine M S) : Machine M S :=
  m.cancel m.session.lifetime

/-- Let time pass. -/
def tick (m : Machine M S) (d : Duration) : Machine M S :=
  m.onHost fun h => { h with now := h.now + d.nanos }

def debug (m : Machine M S) : String :=
  Text.record "Session"
    [("pending", toString m.session.pending.size),
      ("open_streams", toString m.session.openStreams.size),
      ("lifetime", m.lifetimes.debug m.session.lifetime)]

end Machine

end PeerLink

import PeerLink.Config
import PeerLink.HandlerError
import PeerLink.IdTable
import PeerLink.Lifetime
import PeerLink.Meter
import PeerLink.Outbound
import PeerLink.Registry

/-! The state of a session. Everything that a session starts (calls, streams in both directions, runs
of handlers, sends) has a number of its own besides the id that it uses on the wire: the place in a
list that only grows. Ids can be used again, numbers never are. -/
namespace PeerLink

abbrev CallId := Nat
abbrev ClientStreamId := Nat
abbrev ServedStreamId := Nat
abbrev RunId := Nat
abbrev RefusalId := Nat

/-- Why a call has no result. -/
inductive CallError where
  | encode (cause : CodecError)
  | sessionClosed
  | remote (error : RemoteError)
  | decode (cause : CodecError)
  | timeout (after : Duration)
  | cancelled
  | unexpected (content : Content)
  deriving DecidableEq, Repr

namespace CallError

def message : CallError → String
  | .encode _ => "Failed to encode request"
  | .sessionClosed => sessionClosedMessage
  | .remote e => "Remote peer returned error " ++ e.display
  | .decode _ => "Failed to decode response"
  | .timeout d => "Call timed out after " ++ d.text
  | .cancelled => "Call was cancelled"
  | .unexpected content => "Unexpected response " ++ content.debug

/-- The messages of the errors behind this one. -/
def sources : CallError → List String
  | .encode cause => cause.message :: cause.sources
  | .decode cause => cause.message :: cause.sources
  | _ => []

end CallError

/-- What a call makes of the response it got. -/
def Content.callResult : Content → Except CallError Payload
  | .payload p => .ok p
  | .error e => .error (.remote e)
  | content => .error (.unexpected content)

/-- Whose envelope a send carries. -/
inductive Sender where
  /-- The request of a call. -/
  | call (c : CallId)
  /-- The response of a handler's run. -/
  | run (r : RunId)
  /-- The answer to a request that no handler serves. -/
  | refusal (k : RefusalId)
  /-- A message, mark or close that a handler sends on its stream. -/
  | served (s : ServedStreamId)
  /-- The last response of a stream, after its handler has returned. -/
  | completion (s : ServedStreamId)
  /-- A message or close on a stream opened here. -/
  | client (c : ClientStreamId)
  | bye
  deriving DecidableEq, Repr

inductive SendState where
  | pending
  | done (result : SendResult)
  | givenUp
  deriving DecidableEq, Repr

structure Send where
  sender : Sender
  envelope : Envelope
  state : SendState
  deriving DecidableEq, Repr

/-- Who gets the responses with an id. -/
inductive Slot where
  /-- A call. Only the first response counts, after which the slot is no longer open. -/
  | call (c : CallId) (isOpen : Bool)
  | stream (c : ClientStreamId)
  deriving DecidableEq, Repr

inductive CallState where
  /-- The request is on its way into the queue. -/
  | sending (t : Ticket)
  /-- The request is queued; the call times out at `deadline?`. -/
  | waiting (deadline? : Option Nat)
  | returned (result : Except CallError Payload)
  | dropped

structure Call where
  id : Int32
  method : String
  timeout : Option Duration
  lifetime : Option LifetimeId
  /-- The response that was delivered. -/
  response : Option Content
  state : CallState

/-- A stream opened here. -/
structure ClientStream where
  id : Int32
  method : String
  lifetime : LifetimeId
  /-- Responses that were delivered and not yet sorted. -/
  responses : List Content
  /-- A response has arrived. -/
  ready : Bool
  /-- Responses are no longer sorted. -/
  ended : Bool
  /-- Sorted messages that were not yet received, and at most one error behind them. -/
  messages : List (Except RemoteError Payload)
  closeSent : Bool

/-- A stream opened by the remote peer. -/
structure ServedStream (S : Type) where
  id : Int32
  method : String
  handler : S
  lifetime : LifetimeId
  /-- Messages that the handler has not yet received. -/
  inbox : List Payload
  inboxClosed : Bool
  closeSent : Bool
  result : Option (Except Failure Unit)

/-- A run of a handler for a call of the remote peer. -/
structure Run (M : Type) where
  id : Int32
  method : String
  handler : M
  payload : Payload
  lifetime : LifetimeId
  result : Option (Except HandlerError Payload)

/-- An answer to a request that no handler serves, and whether its send has been started. -/
structure Refusal where
  response : Response
  started : Bool
  deriving DecidableEq, Repr

structure Session (M S : Type) where
  registry : Registry M S
  callTimeout : Option Duration
  outbound : Outbound
  pending : IdTable Slot
  openStreams : IdTable ServedStreamId
  nextId : Int32
  lifetime : LifetimeId
  /-- Envelopes of the remote peer are still handled. -/
  consuming : Bool
  calls : List Call
  clientStreams : List ClientStream
  servedStreams : List (ServedStream S)
  runs : List (Run M)
  refusals : List Refusal
  sends : List Send

namespace Session

variable {M S : Type}

def new (registry : Registry M S) (callTimeout : Option Duration) (capacity : Nat)
    (lifetime : LifetimeId) : Session M S :=
  { registry, callTimeout, lifetime
    outbound := .new capacity
    pending := .empty
    openStreams := .empty
    nextId := 0
    consuming := true
    calls := []
    clientStreams := []
    servedStreams := []
    runs := []
    refusals := []
    sends := [] }

/-- The number that the next send gets. -/
def nextTicket (s : Session M S) : Ticket :=
  s.sends.length

/-- One round of the search: the counter's id is tried, and the counter moves on. The slot is returned
unless the id took it. -/
def tryNext (s : Session M S) (slot : Slot) : Int32 × Option Slot × Session M S :=
  let (pending, slot?) := s.pending.insertIfNew s.nextId slot
  (s.nextId, slot?, { s with pending, nextId := s.nextId + 1 })

/-- Rounds until an id takes the slot; `none` if so many are not enough. -/
def search (s : Session M S) (slot : Slot) : (rounds : Nat) → Option (Int32 × Session M S)
  | 0 => none
  | rounds + 1 =>
    match s.tryNext slot with
    | (id, none, s') => some (id, s')
    | (_, some slot, s') => s'.search slot rounds

/-- Take the next free id for `slot`: what the search comes to, with the number of rounds that it needs. -/
def allocate (s : Session M S) (slot : Slot) : Int32 × Session M S :=
  let id := s.pending.free s.nextId
  (id, { s with pending := s.pending.insert id slot, nextId := id + 1 })

/-- A send arrives at the queue. -/
def beginSend (s : Session M S) (sender : Sender) (e : Envelope) : Session M S :=
  { s with
    outbound := s.outbound.enqueue s.nextTicket e
    sends := s.sends ++ [⟨sender, e, .pending⟩] }

def setSendState (s : Session M S) (t : Ticket) (state : SendState) : Session M S :=
  { s with sends := s.sends.modify t fun x => { x with state } }

/-- How a send ended, if it did. -/
def sendResult? (s : Session M S) (t : Ticket) : Option SendResult :=
  match s.sends[t]? with
  | some ⟨_, _, .done result⟩ => some result
  | _ => none

/-- Somebody stops waiting for a send. One that has ended stays as it is. -/
def giveUp (s : Session M S) (t : Ticket) : Session M S :=
  if (s.sendResult? t).isSome then s
  else { s with outbound := s.outbound.giveUp t }.setSendState t .givenUp

def modifyCall (s : Session M S) (c : CallId) (f : Call → Call) : Session M S :=
  { s with calls := s.calls.modify c f }

def modifyClient (s : Session M S) (c : ClientStreamId) (f : ClientStream → ClientStream) :
    Session M S :=
  { s with clientStreams := s.clientStreams.modify c f }

def modifyServed (s : Session M S) (i : ServedStreamId) (f : ServedStream S → ServedStream S) :
    Session M S :=
  { s with servedStreams := s.servedStreams.modify i f }

end Session

end PeerLink

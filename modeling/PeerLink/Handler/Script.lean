import PeerLink.Session.Machine

/-! Handlers written as scripts: lists of actions that are carried out in order. A gate is a place
where scripts wait until somebody opens it. -/
namespace PeerLink

/-- An action of a handler that serves calls. -/
inductive CallAction where
  /-- Note the state of the call. -/
  | log
  | gate (key : String)
  | sleep (d : Duration)
  /-- Wait until the lifetime of the call is cancelled. -/
  | wait
  /-- Note when the lifetime of the call is cancelled, also after the handler has returned. -/
  | watch
  /-- Cancel the lifetime of the call. -/
  | cancel
  | fail (failure : Failure)
  /-- Reply with a message that cannot be encoded. -/
  | badReply
  deriving DecidableEq, Repr

/-- What a handler of calls replies. -/
inductive Reply where
  /-- The request, decoded as a message of this type and encoded again. -/
  | typed (type : MessageType)
  /-- The payload of the request. -/
  | echo
  | fixed (payload : Payload)
  deriving DecidableEq, Repr

structure CallScript where
  actions : List CallAction
  reply : Reply
  deriving DecidableEq, Repr

/-- An action of a handler that serves streams. Unless said otherwise an action that fails ends the
handler. Messages are of the echo type, or payloads if raw. -/
inductive StreamAction where
  | ready
  | send (data : String)
  | sendRaw (payload : Payload)
  /-- Send a message that cannot be encoded. -/
  | sendBad
  | receive
  /-- Receive, and go on if that fails. -/
  | tryReceive
  | receiveRaw
  /-- Send back what is received, until the end of the stream. -/
  | echo
  | echoRaw
  | close
  /-- Send, and go on if that fails. -/
  | trySend (data : String)
  /-- Note the state of the stream. -/
  | log
  /-- Wait until the lifetime of the stream is cancelled. -/
  | wait
  | cancel
  | gate (key : String)
  | sleep (d : Duration)
  | fail (failure : Failure)
  deriving DecidableEq, Repr

inductive StreamScript where
  | actions (actions : List StreamAction)
  /-- Drop the stream, wait at a gate, and return. -/
  | dropped (gate : String)
  deriving DecidableEq, Repr

/-- What handlers note. -/
inductive HandlerNote where
  /-- The state of a call. -/
  | call (cancelled : Bool) (debug : String)
  /-- The lifetime of the call or stream is cancelled. -/
  | lifetimeCancelled
  | received (data : Option String)
  | receivedRaw (payload : Option Payload)
  | receiveFailed (error : StreamError)
  | sent (result : Except StreamError Unit)
  /-- The state of a stream. -/
  | stream (debug : String)
  | dropped

/-- A note, and the call or stream it is about. -/
structure HandlerEvent where
  method : String
  id : Int32
  note : HandlerNote

/-- A machine whose handlers are scripts. -/
abbrev Station := Machine CallScript StreamScript

/-- The registry of a station. -/
abbrev ScriptRegistry := Registry CallScript StreamScript

abbrev ScriptService := Service CallScript StreamScript

/-- What scripts see of the world beside their session, and what they note. -/
structure Stage where
  openGates : List String
  notes : List HandlerEvent

namespace Stage

def isOpen (s : Stage) (key : String) : Bool :=
  s.openGates.contains key

def note (s : Stage) (method : String) (id : Int32) (note : HandlerNote) : Stage :=
  { s with notes := s.notes ++ [⟨method, id, note⟩] }

end Stage

end PeerLink

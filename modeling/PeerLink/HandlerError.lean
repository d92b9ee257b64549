import PeerLink.Message

/-! Failures of handlers and of streams, and the errors that the remote peer gets to see for them. A
failure is a root with notes that were added on the way, each of which is a text or an error of its
own. The remote peer sees the outermost error among them, and otherwise all messages joined. -/
namespace PeerLink

/-- Why an operation on a stream fails. -/
inductive StreamError where
  | encode (cause : CodecError)
  | decode (cause : CodecError)
  | remote (error : RemoteError)
  /-- The stream has ended or was closed. -/
  | ended
  | sessionClosed
  deriving DecidableEq, Repr

/-- What is said when an envelope cannot be queued because the session ended. -/
def sessionClosedMessage : String := "Session is closed"

namespace StreamError

def message : StreamError → String
  | .encode _ => "Failed to encode stream message"
  | .decode _ => "Failed to decode stream message"
  | .remote e => "Remote peer returned error " ++ e.display
  | .ended => "Stream has ended"
  | .sessionClosed => sessionClosedMessage

/-- The messages of the errors behind this one. -/
def sources : StreamError → List String
  | .encode cause => cause.message :: cause.sources
  | .decode cause => cause.message :: cause.sources
  | _ => []

end StreamError

/-- What a failure started from. -/
inductive Root where
  | error (error : RemoteError)
  | stream (error : StreamError)
  | codec (error : CodecError)
  | message (text : String)
  deriving DecidableEq, Repr

/-- What was added to a failure. -/
inductive Note where
  | text (text : String)
  | error (error : RemoteError)
  deriving DecidableEq, Repr

/-- A root and the notes added to it, the first one innermost. -/
structure Failure where
  root : Root
  notes : List Note
  deriving DecidableEq, Repr

namespace Root

/-- The message of a root and of the errors behind it. -/
def messages : Root → List String
  | .error e => [e.display]
  | .stream e => e.message :: e.sources
  | .codec e => e.message :: e.sources
  | .message s => [s]

/-- The error that a root is. One inside a stream error does not count. -/
def error? : Root → Option RemoteError
  | .error e => some e
  | _ => none

end Root

namespace Note

def message : Note → String
  | .text s => s
  | .error e => e.display

def error? : Note → Option RemoteError
  | .error e => some e
  | .text _ => none

end Note

namespace Failure

def ofRoot (root : Root) : Failure :=
  ⟨root, []⟩

/-- Add a note outside all others. -/
def note (f : Failure) (n : Note) : Failure :=
  { f with notes := f.notes ++ [n] }

/-- All messages, outermost first. -/
def chain (f : Failure) : List String :=
  f.notes.reverse.map Note.message ++ f.root.messages

/-- The outermost error among the notes and the root. -/
def error? (f : Failure) : Option RemoteError :=
  match f.notes.reverse.findSome? Note.error? with
  | some e => some e
  | none => f.root.error?

/-- The error that the remote peer gets to see. -/
def toRemote (f : Failure) : RemoteError :=
  match f.error? with
  | some e => e.normalized
  | none => .new RemoteError.handlerFailedName (": ".intercalate f.chain)

end Failure

/-- Why a call has no result. -/
inductive HandlerError where
  | failed (failure : Failure)
  | responseEncoding (cause : CodecError)
  deriving DecidableEq, Repr

namespace HandlerError

def message : HandlerError → String
  | .failed _ => "Handler failed"
  | .responseEncoding _ => "Failed to encode response"

/-- The error that the remote peer gets to see. -/
def toRemote : HandlerError → RemoteError
  | .failed f => f.toRemote
  | .responseEncoding cause => .new RemoteError.responseEncodingName cause.message

end HandlerError

end PeerLink

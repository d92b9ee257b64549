import PeerLink.RemoteError

/-! The messages of the protocol. Requests and responses belong to an id that the requesting side
chose; a response carries a payload, an error, or one of two marks of a stream. -/
namespace PeerLink

/-- An application message that a session does not look into, with an optional name of its type. -/
structure Payload where
  typeUrl : String
  value : Bytes
  deriving DecidableEq, Repr

namespace Payload

/-- The payload with this value and no type. -/
def ofValue (value : Bytes) : Payload :=
  ⟨"", value⟩

def debug (p : Payload) : String :=
  Text.record "Payload"
    [("type_url", Text.quoted p.typeUrl), ("value", Text.quoted (Text.Utf8.decodeLossy p.value))]

end Payload

structure Request where
  id : Int32
  method : String
  payload : Payload
  isStream : Bool
  deriving DecidableEq, Repr

/-- What a response says. -/
inductive Content where
  | payload (payload : Payload)
  | error (error : RemoteError)
  /-- The server sends no more messages on the stream. -/
  | close (value : Bool)
  /-- The server is ready for the stream. -/
  | ready (value : Bool)
  deriving DecidableEq, Repr

def Content.debug : Content → String
  | .payload p => Text.tuple "Payload" [p.debug]
  | .error e => Text.tuple "Error" [e.debug]
  | .close b => Text.tuple "Close" [Text.bool b]
  | .ready b => Text.tuple "StreamReady" [Text.bool b]

structure Response where
  id : Int32
  content : Content
  deriving DecidableEq, Repr

/-- The response says that the stream is ready. -/
def Response.isReady (r : Response) : Bool :=
  r.content == .ready true

inductive Envelope where
  | request (request : Request)
  | response (response : Response)
  /-- The client sends no more messages on a stream. -/
  | streamClose (id : Int32)
  /-- The peer is going away. -/
  | bye
  /-- Reserved; has no effect. -/
  | opening (value : Bool)
  /-- Reserved; has no effect. -/
  | openingAck (value : Bool)
  deriving DecidableEq, Repr

namespace Envelope

/-- The id an envelope belongs to, `0` if it belongs to none. -/
def id : Envelope → Int32
  | .request r => r.id
  | .response r => r.id
  | .streamClose id => id
  | _ => 0

def debug : Envelope → String
  | .request r =>
    Text.tuple "Request" [Text.record "Request"
      [("id", toString r.id.toInt), ("method", Text.quoted r.method),
        ("payload", r.payload.debug), ("is_stream", Text.bool r.isStream)]]
  | .response r =>
    Text.tuple "Response" [Text.record "Response"
      [("id", toString r.id.toInt), ("content", r.content.debug)]]
  | .streamClose id => Text.record "StreamClose" [("id", toString id.toInt)]
  | .bye => "Bye"
  | .opening b => Text.tuple "Open" [Text.bool b]
  | .openingAck b => Text.tuple "OpenAck" [Text.bool b]

end Envelope

end PeerLink

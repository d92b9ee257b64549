import PeerLink.Envelope
import PeerLink.Wire.Header

/-! The binary form of envelopes. A packet is a header and a body. Requests and payloads have strings
in the body, each behind its length in two bytes, and then the value; errors have JSON; all other
bodies are empty. `encode` writes a packet, `decode` reads one. -/
namespace PeerLink.Wire

/-- A string in a body. -/
inductive StringField where
  | method
  | typeUrl
  deriving DecidableEq, Repr

def StringField.name : StringField → String
  | .method => "method"
  | .typeUrl => "type_url"

/-- Why a body is no body of its kind. -/
inductive PacketError where
  | errorBody (body : Bytes) (cause : Json.Error)
  | stringEncoding (field : StringField) (cause : Text.Utf8.Error)
  /-- A string is cut off; `length` bytes are left from its length prefix on. -/
  | truncated (kind : Kind) (length : Nat)
  | unexpectedBody (kind : Kind)
  deriving DecidableEq, Repr

namespace PacketError

def message : PacketError → String
  | .errorBody _ _ => "Failed to decode error response body"
  | .stringEncoding field _ => "Invalid string in " ++ field.name
  | .truncated kind n =>
    "Body of " ++ kind.name ++ " envelope ends after " ++ toString n ++ " bytes"
  | .unexpectedBody kind => "Unexpected body for " ++ kind.name ++ " envelope"

/-- The messages of the errors behind this one. -/
def sources : PacketError → List String
  | .errorBody _ cause => [cause.message]
  | .stringEncoding _ cause => [cause.message]
  | _ => []

end PacketError

/-- Why an envelope has no packet. -/
inductive EncodeError where
  | fieldTooLong (field : StringField) (length : Nat)
  | bodyTooLong (length : Nat)
  deriving DecidableEq, Repr

/-- The most bytes a string in a body can have. -/
def maxString : Nat := 0xFFFF

/-- The most bytes a body can have. -/
def maxBody : Nat := 0xFFFFFFFF

def EncodeError.message : EncodeError → String
  | .fieldTooLong field n =>
    field.name ++ " is " ++ toString n ++ " bytes long, at most " ++ toString maxString ++
      " bytes are allowed"
  | .bodyTooLong n =>
    "Body is " ++ toString n ++ " bytes long, at most " ++ toString maxBody ++
      " bytes are allowed"

/-- Why a byte string is no packet. -/
inductive DecodeError where
  | missingHeader
  | header (cause : HeaderError)
  | bodyLength (expected : UInt32) (actual : Nat)
  | packet (cause : PacketError)
  deriving DecidableEq, Repr

namespace DecodeError

def message : DecodeError → String
  | .missingHeader => "Message is shorter than the envelope header"
  | .header _ => "Failed to parse envelope header"
  | .bodyLength expected actual =>
    "Message body length " ++ toString actual ++ " does not match header length " ++
      toString expected.toNat
  | .packet _ => "Failed to parse envelope"

/-- The messages of the errors behind this one. -/
def sources : DecodeError → List String
  | .header cause => [cause.message]
  | .packet cause => cause.message :: cause.sources
  | _ => []

end DecodeError

/-- A string behind its length. -/
def putString (field : StringField) (s : String) : Except EncodeError Bytes :=
  let bytes := Text.Utf8.encode s
  if bytes.length ≤ maxString then .ok (Bytes.ofWord16 bytes.length.toUInt16 ++ bytes)
  else .error (.fieldTooLong field bytes.length)

def putPayload (p : Payload) : Except EncodeError Bytes := do
  let typeUrl ← putString .typeUrl p.typeUrl
  return typeUrl ++ p.value

/-- Kind, flag and id of the packet of an envelope. -/
def headerFields : Envelope → Kind × Bool × Int32
  | .request r => (.request, r.isStream, r.id)
  | .response r =>
    match r.content with
    | .payload _ => (.responsePayload, false, r.id)
    | .error _ => (.responseError, false, r.id)
    | .close b => (.responseClose, b, r.id)
    | .ready b => (.responseReady, b, r.id)
  | .streamClose id => (.streamClose, false, id)
  | .bye => (.bye, false, 0)
  | .opening b => (.opening, b, 0)
  | .openingAck b => (.openingAck, b, 0)

/-- The body of the packet of an envelope. -/
def body : Envelope → Except EncodeError Bytes
  | .request r => do
    let method ← putString .method r.method
    let payload ← putPayload r.payload
    return method ++ payload
  | .response r =>
    match r.content with
    | .payload p => putPayload p
    | .error e => .ok (Text.Utf8.encode e.toJson)
    | _ => .ok []
  | _ => .ok []

/-- The packet of an envelope. -/
def encode (e : Envelope) : Except EncodeError Bytes := do
  let body ← body e
  let (kind, flag, id) := headerFields e
  if body.length ≤ maxBody then
    return ({ kind, flag, bodyLength := body.length.toUInt32, id } : Header).build ++ body
  else throw (.bodyTooLong body.length)

/-- Read a string and the bytes behind it. -/
def readString (kind : Kind) (field : StringField) (s : Bytes) :
    Except PacketError (String × Bytes) :=
  match s with
  | a :: b :: rest =>
    let length := Bytes.toNat [a, b]
    if rest.length < length then .error (.truncated kind s.length)
    else match Text.Utf8.decode (rest.take length) with
      | .ok text => .ok (text, rest.drop length)
      | .error cause => .error (.stringEncoding field cause)
  | _ => .error (.truncated kind s.length)

/-- Read a payload, which takes all bytes. -/
def readPayload (kind : Kind) (s : Bytes) : Except PacketError Payload := do
  let (typeUrl, value) ← readString kind .typeUrl s
  return { typeUrl, value }

/-- The envelope `e`, if the body is empty. -/
def expectEmpty (kind : Kind) (body : Bytes) (e : Envelope) : Except PacketError Envelope :=
  if body.isEmpty then .ok e else .error (.unexpectedBody kind)

/-- The envelope with this header and body. The length in the header is not looked at. -/
def parse (h : Header) (body : Bytes) : Except PacketError Envelope :=
  match h.kind with
  | .request => do
    let (method, rest) ← readString h.kind .method body
    let payload ← readPayload h.kind rest
    return .request { id := h.id, method, payload, isStream := h.flag }
  | .responsePayload => do
    let payload ← readPayload h.kind body
    return .response ⟨h.id, .payload payload⟩
  | .responseError =>
    match RemoteError.ofJson body with
    | .ok e => .ok (.response ⟨h.id, .error e.normalized⟩)
    | .error cause => .error (.errorBody body cause)
  | .responseClose => expectEmpty h.kind body (.response ⟨h.id, .close h.flag⟩)
  | .responseReady => expectEmpty h.kind body (.response ⟨h.id, .ready h.flag⟩)
  | .streamClose => expectEmpty h.kind body (.streamClose h.id)
  | .bye => expectEmpty h.kind body .bye
  | .opening => expectEmpty h.kind body (.opening h.flag)
  | .openingAck => expectEmpty h.kind body (.openingAck h.flag)

/-- Read a byte string that is exactly one packet. -/
def decode (data : Bytes) : Except DecodeError Envelope :=
  if data.length < Header.size then .error .missingHeader
  else match Header.parse (data.take Header.size) with
    | .error cause => .error (.header cause)
    | .ok h =>
      let body := data.drop Header.size
      if h.bodyLength.toNat ≠ body.length then .error (.bodyLength h.bodyLength body.length)
      else (parse h body).mapError .packet

end PeerLink.Wire

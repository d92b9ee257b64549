import PeerLink.Envelope

/-! Typed application messages and the payloads that carry them. A message is encoded as compact JSON
in a payload without a type; decoding reads the value of a payload as a message of a given type. -/
namespace PeerLink

inductive Message where
  /-- A record with the one field `data`. -/
  | echo (data : String)
  | text (value : String)
  | unit
  | bool (value : Bool)
  | int (value : Int)
  | texts (values : List String)
  | optionalText (value : Option String)
  /-- A map whose keys are no texts, which has no JSON form. -/
  | byteKeyed
  deriving DecidableEq, Repr

/-- The types as which a payload can be decoded. -/
inductive MessageType where
  | echo
  | text
  | unit
  | bool
  | int32
  | word8
  | texts
  | optionalText
  deriving DecidableEq, Repr

/-- Why a message has no payload, or a payload no message. -/
inductive CodecError where
  | encode (cause : Json.Error)
  | decode (typeUrl : String) (cause : Json.Error)
  deriving DecidableEq, Repr

namespace CodecError

def message : CodecError → String
  | .encode _ => "Failed to encode message"
  | .decode typeUrl _ => "Failed to decode message of type \"" ++ typeUrl ++ "\""

/-- The messages of the errors behind this one. -/
def sources : CodecError → List String
  | .encode cause => [cause.message]
  | .decode _ cause => [cause.message]

/-- The error of a message that has no JSON form. -/
def keyNotText : CodecError :=
  .encode ⟨.keyNotString, none⟩

end CodecError

namespace MessageType

def int32Kind : Json.IntKind :=
  ⟨"i32", -0x80000000, 0x7FFFFFFF⟩

def word8Kind : Json.IntKind :=
  ⟨"u8", 0, 0xFF⟩

def echoKind : Json.RecordKind :=
  { name := "EchoMessage", fields := [⟨"data", ⟨.text, false⟩, none⟩] }

def shape : MessageType → Json.Shape
  | .echo => .record echoKind
  | .text => .item ⟨.text, false⟩
  | .unit => .item ⟨.unit, false⟩
  | .bool => .item ⟨.bool, false⟩
  | .int32 => .item ⟨.int int32Kind, false⟩
  | .word8 => .item ⟨.int word8Kind, false⟩
  | .texts => .list .text
  | .optionalText => .item ⟨.text, true⟩

end MessageType

namespace Message

def textOf? : Json.Scalar → Option String
  | .text s => some s
  | _ => none

/-- The message that a value of the shape of `type` stands for. -/
def ofValue? (type : MessageType) (value : Json.Value) : Option Message :=
  match type, value with
  | .echo, .record [.text s] => some (.echo s)
  | .text, .item (.text s) => some (.text s)
  | .unit, .item .unit => some .unit
  | .bool, .item (.bool b) => some (.bool b)
  | .int32, .item (.int n) => some (.int n)
  | .word8, .item (.int n) => some (.int n)
  | .texts, .list items => (items.mapM textOf?).map .texts
  | .optionalText, .item (.text s) => some (.optionalText (some s))
  | .optionalText, .item .absent => some (.optionalText none)
  | _, _ => none

/-- The JSON text of a message, if it has one. -/
def toJson? : Message → Option String
  | .echo s => some ("\x7b\"data\":" ++ Json.quote s ++ "\x7d")
  | .text s => some (Json.quote s)
  | .unit => some "null"
  | .bool b => some (Text.bool b)
  | .int n => some (toString n)
  | .texts items => some ("[" ++ ",".intercalate (items.map Json.quote) ++ "]")
  | .optionalText (some s) => some (Json.quote s)
  | .optionalText none => some "null"
  | .byteKeyed => none

def encode (m : Message) : Except CodecError Payload :=
  match m.toJson? with
  | some s => .ok (.ofValue (Text.Utf8.encode s))
  | none => .error .keyNotText

def decode (type : MessageType) (p : Payload) : Except CodecError Message :=
  match Json.read type.shape p.value with
  | .error cause => .error (.decode p.typeUrl cause)
  | .ok value =>
    match ofValue? type value with
    | some m => .ok m
    | none => .error (.decode p.typeUrl ⟨.expectedValue, none⟩)

end Message

end PeerLink

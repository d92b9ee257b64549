import PeerLink.Wire.Packet
import PeerLink.Wire.ReadBuffer

/-! Envelopes from bytes that arrive in chunks. A `PacketReader` collects a header and then a body;
a `PacketStream` feeds it from a source that yields chunks, fails now and then, and may end. A
partly read packet survives a failure of the source. Behind a header that cannot be used, reading
goes on with the next byte. -/
namespace PeerLink.Wire

/-- The longest body that is read from a stream. -/
def maxStreamBody : Nat := 64 * 1024 * 1024

inductive StreamReadError where
  /-- The source failed, with this message. -/
  | source (message : String)
  | invalidHeader (cause : HeaderError)
  | bodyTooLarge (length : UInt32)
  | packet (cause : PacketError)
  | unexpectedEnd
  deriving DecidableEq, Repr

namespace StreamReadError

def message : StreamReadError → String
  | .source _ => "Failed to read bytes"
  | .invalidHeader _ => "Failed to parse packet header"
  | .bodyTooLarge n =>
    "Packet body of " ++ toString n.toNat ++ " bytes exceeds the limit of " ++
      toString maxStreamBody ++ " bytes"
  | .packet _ => "Failed to parse packet"
  | .unexpectedEnd => "Unexpected end of stream while parsing packet"

/-- The messages of the errors behind this one. -/
def sources : StreamReadError → List String
  | .source m => [m]
  | .invalidHeader cause => [cause.message]
  | .packet cause => cause.message :: cause.sources
  | _ => []

end StreamReadError

/-- What a stream of packets yields. -/
abbrev Item := Except StreamReadError Envelope

inductive PacketReader where
  | header (buffer : ReadBuffer)
  | body (header : Header) (buffer : ReadBuffer)
  deriving DecidableEq, Repr

namespace PacketReader

def new : PacketReader :=
  .header (.new Header.size)

/-- No packet has been started. -/
def isEmpty : PacketReader → Bool
  | .header buffer => buffer.isEmpty
  | .body _ _ => false

/-- The item for a header and its body. -/
def item (h : Header) (body : Bytes) : Item :=
  (parse h body).mapError .packet

/-- Go on with a body. Returns the reader, the rest of `data`, and an item if one is complete. -/
def putBody (h : Header) (buffer : ReadBuffer) (data : Bytes) :
    PacketReader × Bytes × Option Item :=
  match buffer.put data with
  | (_, rest, some bytes) => (new, rest, some (item h bytes))
  | (buffer, rest, none) => (.body h buffer, rest, none)

/-- Go on after the bytes of a header. -/
def putHeader (bytes data : Bytes) : PacketReader × Bytes × Option Item :=
  match Header.parse bytes with
  | .error cause => (new, data, some (.error (.invalidHeader cause)))
  | .ok h =>
    if h.bodyLength.toNat > maxStreamBody then
      (new, data, some (.error (.bodyTooLarge h.bodyLength)))
    else if h.bodyLength = 0 then (new, data, some (item h []))
    else putBody h (.new h.bodyLength.toNat) data

/-- Take bytes from the front of `data` up to the end of an item or of `data`. Returns the reader,
the rest of `data`, and an item if one is complete. -/
def put (r : PacketReader) (data : Bytes) : PacketReader × Bytes × Option Item :=
  match r with
  | .header buffer =>
    match buffer.put data with
    | (_, rest, some bytes) => putHeader bytes rest
    | (buffer, rest, none) => (.header buffer, rest, none)
  | .body h buffer => putBody h buffer data

end PacketReader

/-- What a source of bytes does when it is asked. -/
inductive SourceEvent where
  | chunk (data : Bytes)
  /-- It fails, with this message, and can be asked again. -/
  | failure (message : String)
  /-- It has nothing yet. -/
  | notReady
  deriving DecidableEq, Repr

/-- A reader and the bytes of the last chunk that it has not taken. -/
structure PacketStream where
  reader : PacketReader
  buffer : Bytes
  deriving DecidableEq, Repr

namespace PacketStream

def new : PacketStream :=
  ⟨.new, []⟩

/-- Feed the reader from the buffer. -/
def feed (s : PacketStream) (data : Bytes) : PacketStream × Option Item :=
  match s.reader.put data with
  | (reader, rest, item) => (⟨reader, rest⟩, item)

/-- The item at the end of the source: none if it ends between two packets. -/
def atEnd (s : PacketStream) : Option Item :=
  if s.reader.isEmpty then none else some (.error .unexpectedEnd)

/-- Take in one event of the source, with nothing left in the buffer. -/
def accept (s : PacketStream) : SourceEvent → PacketStream × Option Item
  | .chunk data => s.feed data
  | .failure message => (s, some (.error (.source message)))
  | .notReady => (s, none)

/-- The items still in the buffer. Every round takes at least one byte. -/
def drain : (fuel : Nat) → PacketStream → PacketStream × List Item
  | 0, s => (s, [])
  | fuel + 1, s =>
    if s.buffer.isEmpty then (s, [])
    else match s.feed s.buffer with
      | (s, none) => drain fuel s
      | (s, some item) =>
        let (s, items) := drain fuel s
        (s, item :: items)

/-- All items that one event of the source completes. -/
def step (s : PacketStream) (event : SourceEvent) : PacketStream × List Item :=
  let (s, first) := s.accept event
  let (s, items) := drain s.buffer.length s
  (s, first.toList ++ items)

/-- The items for a source that ends after these events, up to the first unexpected end. -/
def items (s : PacketStream) : List SourceEvent → List Item
  | [] => s.atEnd.toList
  | event :: events =>
    let (s, out) := s.step event
    out ++ items s events

end PacketStream

end PeerLink.Wire

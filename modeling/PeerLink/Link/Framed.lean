import PeerLink.Link.Inlet
import PeerLink.Link.Sink
import PeerLink.Session.Machine
import PeerLink.Wire.PacketStream

/-! A session over a byte transport. A reader turns chunks of bytes into envelopes, however they are
cut, and a writer turns envelopes into buffers, one for each. The reader stops at the first error. The
writer passes over envelopes that have no packet; when a write fails it ends the session, and when
the session ends it closes the transport. -/
namespace PeerLink.Link

inductive FramedWriter where
  | idle
  /-- A packet waits for the transport; the id is that of its envelope. -/
  | writing (id : Int32) (data : Bytes)
  | closing
  | stopped
  deriving DecidableEq, Repr

/-- A packet that was written, with the id of its envelope. -/
structure Written where
  id : Int32
  data : Bytes
  deriving DecidableEq, Repr

structure Framed where
  /-- What the transport has for the reader. -/
  source : List Wire.SourceEvent
  sourceEnded : Bool
  stream : Wire.PacketStream
  inlet : Inlet
  writer : FramedWriter
  sink : Sink Written Unit

namespace Framed

variable {M S : Type}

def new (capacity : Nat) : Framed :=
  { source := [], sourceEnded := false, stream := .new, inlet := .new capacity, writer := .idle
    sink := .new }

/-- The reader has got an item, or nothing. -/
def gotItem (m : Machine M S) (l : Framed) : Option Wire.Item → Machine M S × Framed
  | none => (m, l)
  | some (.ok e) => (m, { l with inlet := l.inlet.offer e })
  | some (.error _) => (m.log .envelopeNotRead, { l with inlet := l.inlet.stop })

/-- The reader moves on, if it can. -/
def read? (m : Machine M S) (l : Framed) : Option (Machine M S × Framed) :=
  if l.inlet.reader ≠ .reading then
    (l.inlet.advance? m.session.consuming).map fun inlet => (m, { l with inlet })
  else if m.isEnded then some (m, { l with inlet := l.inlet.stop })
  else if !l.stream.buffer.isEmpty then
    let (stream, item) := l.stream.feed l.stream.buffer
    some (gotItem m { l with stream } item)
  else match l.source with
    | event :: source =>
      let (stream, item) := l.stream.accept event
      some (gotItem m { l with stream, source } item)
    | [] =>
      if !l.sourceEnded then none
      else match l.stream.atEnd with
        | none => some (m, { l with inlet := l.inlet.stop })
        | some item => some (gotItem m l (some item))

/-- The session takes an envelope from the reader, or stops, if it can. -/
def consume? (m : Machine M S) (l : Framed) : Option (Machine M S × Framed) :=
  match m.stopConsuming? l.inlet.isExhausted, l.inlet.queued with
  | some m, _ => some (m, l)
  | none, e :: queued =>
    (m.receive? e).map fun m => (m, { l with inlet := { l.inlet with queued } })
  | none, [] => none

/-- The writer is done. -/
def stopWriting (m : Machine M S) (l : Framed) : Machine M S × Framed :=
  (m.abandonOutbound, { l with writer := .stopped })

/-- The writer moves on, if it can. -/
def write? (m : Machine M S) (l : Framed) : Option (Machine M S × Framed) :=
  match l.writer with
  | .idle =>
    if m.isEnded then some (m, { l with writer := .closing })
    else match m.takeOutbound? with
      | none => none
      | some (e, m) =>
        match Wire.encode e with
        | .ok data => some (m, { l with writer := .writing e.id data })
        | .error _ =>
          some ((m.log .envelopeNotEncoded).onHost fun h =>
            { h with meter := h.meter.failure }, l)
  | .writing id data =>
    match l.sink.poll with
    | (.blocked, _) => none
    | (.ready, sink) => some (m, { l with sink := sink.put ⟨id, data⟩, writer := .idle })
    | (.failed _, sink) =>
      some (stopWriting ((m.log .envelopeNotWritten).cancel m.session.lifetime) { l with sink })
  | .closing => some (stopWriting m { l with sink := l.sink.close })
  | .stopped => none

end Framed

end PeerLink.Link

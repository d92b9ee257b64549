import PeerLink.Wire.PacketStream

/-! A source of chunks made from a reader that fills a caller's buffer. Each read returns up to
4096 bytes; a read of no bytes ends the source. -/
namespace PeerLink.Wire

/-- The most bytes one read returns. -/
def readSize : Nat := 4096

/-- A source read to its end, item by item: a chunk, or the message of a failure. What one event
holds beyond the size of the caller's buffer is kept for the next read. -/
def chunksFrom (fuel : Nat) (events : List SourceEvent) : List (Except String Bytes) :=
  match fuel, events with
  | 0, _ => []
  | _, [] => []
  | fuel + 1, .notReady :: events => chunksFrom fuel events
  | fuel + 1, .failure message :: events => .error message :: chunksFrom fuel events
  | fuel + 1, .chunk data :: events =>
    if data.isEmpty then []
    else
      let rest := data.drop readSize
      .ok (data.take readSize) ::
        chunksFrom fuel (if rest.isEmpty then events else .chunk rest :: events)

/-- The number of reads that the events can need. -/
def readsNeeded : List SourceEvent → Nat
  | [] => 0
  | .chunk data :: events => data.length + 1 + readsNeeded events
  | _ :: events => 1 + readsNeeded events

/-- The chunks and failures of a source, up to its end. -/
def chunks (events : List SourceEvent) : List (Except String Bytes) :=
  chunksFrom (readsNeeded events) events

end PeerLink.Wire

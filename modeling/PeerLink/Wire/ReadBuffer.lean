import PeerLink.Bytes

/-! A buffer for a fixed number of bytes that arrive in pieces. -/
namespace PeerLink.Wire

/-- Of `size` wanted bytes the buffer holds `count`, last one first. -/
structure ReadBuffer where
  size : Nat
  count : Nat
  reversed : Bytes
  deriving DecidableEq, Repr

namespace ReadBuffer

def new (size : Nat) : ReadBuffer :=
  ⟨size, 0, []⟩

/-- The bytes in the buffer, in the order in which they came. -/
def bytes (b : ReadBuffer) : Bytes :=
  b.reversed.reverse

/-- How many bytes are missing. -/
def need (b : ReadBuffer) : Nat :=
  b.size - b.count

/-- Take the missing bytes from the front of `data`. Once all are there they are handed out, and the
buffer is left with size zero. Returns the buffer, the rest of `data`, and the bytes if complete. -/
def put (b : ReadBuffer) (data : Bytes) : ReadBuffer × Bytes × Option Bytes :=
  let piece := data.take b.need
  let filled : ReadBuffer :=
    { b with count := b.count + piece.length, reversed := piece.reverseAux b.reversed }
  let rest := data.drop b.need
  if filled.count = b.size then (new 0, rest, some filled.bytes) else (filled, rest, none)

/-- No byte is held. -/
def isEmpty (b : ReadBuffer) : Bool :=
  b.count == 0

end ReadBuffer

end PeerLink.Wire

import PeerLink.Link.Sink
import PeerLink.Session.Machine

/-! A session over plain queues of envelopes: one from which it takes, and one into which it sends and
from which somebody else takes. -/
namespace PeerLink.Link

structure Queues where
  incoming : List Envelope
  incomingEnded : Bool
  flow : Flow
  /-- The envelopes taken from the session, and not yet looked at. -/
  taken : List Envelope
  deriving DecidableEq, Repr

namespace Queues

variable {M S : Type}

def new : Queues :=
  ⟨[], false, .free, []⟩

/-- The session takes an envelope, or stops, if it can. -/
def consume? (m : Machine M S) (l : Queues) : Option (Machine M S × Queues) :=
  match m.stopConsuming? (l.incoming.isEmpty && l.incomingEnded), l.incoming with
  | some m, _ => some (m, l)
  | none, e :: incoming => (m.receive? e).map fun m => (m, { l with incoming })
  | none, [] => none

/-- Somebody takes an envelope that the session sent, if there is one and nothing holds it. -/
def write? (m : Machine M S) (l : Queues) : Option (Machine M S × Queues) :=
  if l.flow.isOpen then
    m.takeOutbound?.map fun (e, m) =>
      (m, { l with taken := l.taken ++ [e], flow := l.flow.pass })
  else none

end Queues

end PeerLink.Link

import PeerLink.Outbound

/-! Two connected ends in one program. Each end sends into a queue from which the other end receives.
A queue takes `capacity + 1` envelopes, and then no more until one is received. -/
namespace PeerLink

/-- One direction of a channel. -/
structure ChannelQueue where
  capacity : Nat
  queued : List Envelope
  /-- The sending side was closed or dropped. -/
  senderGone : Bool
  /-- The receiving side was dropped. -/
  receiverGone : Bool
  deriving DecidableEq, Repr

namespace ChannelQueue

def new (capacity : Nat) : ChannelQueue :=
  ⟨capacity, [], false, false⟩

def isDead (q : ChannelQueue) : Bool :=
  q.senderGone || q.receiverGone

def isFull (q : ChannelQueue) : Bool :=
  q.capacity < q.queued.length

inductive SendOutcome where
  | sent
  | full
  | gone
  deriving DecidableEq, Repr

def send (q : ChannelQueue) (e : Envelope) : ChannelQueue × SendOutcome :=
  if q.isDead then (q, .gone)
  else if q.isFull then (q, .full)
  else ({ q with queued := q.queued ++ [e] }, .sent)

/-- Everything sent has left the sender: a dead queue holds nothing back. -/
def isFlushed (q : ChannelQueue) : Bool :=
  q.isDead || !q.isFull

def closeSender (q : ChannelQueue) : ChannelQueue :=
  { q with senderGone := true }

def dropReceiver (q : ChannelQueue) : ChannelQueue :=
  { q with receiverGone := true, queued := [] }

inductive Receipt where
  | envelope (e : Envelope)
  | ended
  | pending
  deriving DecidableEq, Repr

def receive (q : ChannelQueue) : ChannelQueue × Receipt :=
  match q.queued with
  | e :: rest => ({ q with queued := rest }, .envelope e)
  | [] => (q, if q.senderGone then .ended else .pending)

end ChannelQueue

/-- What is said to a sender whose receiver is gone. -/
def receiverGoneMessage : String := "send failed because receiver is gone"

/-- The two ends of a channel. -/
inductive Side where
  | a
  | b
  deriving DecidableEq, Repr

def Side.other : Side → Side
  | .a => .b
  | .b => .a

/-- Two ends, with the queue into which each sends. -/
structure ChannelPair where
  fromA : ChannelQueue
  fromB : ChannelQueue
  deriving DecidableEq, Repr

namespace ChannelPair

def new (capacity : Nat) : ChannelPair :=
  ⟨.new capacity, .new capacity⟩

/-- The queue into which a side sends. -/
def sending (p : ChannelPair) : Side → ChannelQueue
  | .a => p.fromA
  | .b => p.fromB

def setSending (p : ChannelPair) (s : Side) (q : ChannelQueue) : ChannelPair :=
  match s with
  | .a => { p with fromA := q }
  | .b => { p with fromB := q }

def send (p : ChannelPair) (s : Side) (e : Envelope) :
    ChannelPair × ChannelQueue.SendOutcome :=
  let (q, r) := (p.sending s).send e
  (p.setSending s q, r)

def receive (p : ChannelPair) (s : Side) : ChannelPair × ChannelQueue.Receipt :=
  let (q, r) := (p.sending s.other).receive
  (p.setSending s.other q, r)

def close (p : ChannelPair) (s : Side) : ChannelPair :=
  p.setSending s (p.sending s).closeSender

/-- An end goes away: it neither sends nor receives any more. -/
def drop (p : ChannelPair) (s : Side) : ChannelPair :=
  (p.close s).setSending s.other ((p.close s).sending s.other).dropReceiver

end ChannelPair

/-- A source of items and a sink for items, used as one value. -/
structure Duplex (α : Type) where
  incoming : List α
  sent : List α

namespace Duplex

variable {α : Type}

def ofList (incoming : List α) : Duplex α :=
  ⟨incoming, []⟩

def receive? (d : Duplex α) : Option (α × Duplex α) :=
  match d.incoming with
  | [] => none
  | x :: rest => some (x, { d with incoming := rest })

def send (d : Duplex α) (x : α) : Duplex α :=
  { d with sent := d.sent ++ [x] }

/-- How many items can be received. -/
def size (d : Duplex α) : Nat :=
  d.incoming.length

end Duplex

end PeerLink

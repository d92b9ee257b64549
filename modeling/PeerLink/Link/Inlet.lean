import PeerLink.Envelope

/-! The queue from the reader of a transport to its session. The reader is the only one who puts
envelopes in. One that fills the queue keeps the reader waiting until there is room again. -/
namespace PeerLink.Link

inductive ReaderState where
  | reading
  /-- An envelope waits for room in the queue. -/
  | offering (e : Envelope)
  /-- The envelope that filled the queue is in it. -/
  | flushing
  | stopped
  deriving DecidableEq, Repr

structure Inlet where
  capacity : Nat
  queued : List Envelope
  reader : ReaderState
  deriving DecidableEq, Repr

namespace Inlet

def new (capacity : Nat) : Inlet :=
  ⟨capacity, [], .reading⟩

def isFull (i : Inlet) : Bool :=
  i.capacity < i.queued.length

/-- Nothing is queued and nothing more will be. -/
def isExhausted (i : Inlet) : Bool :=
  i.queued.isEmpty && i.reader == .stopped

def offer (i : Inlet) (e : Envelope) : Inlet :=
  { i with reader := .offering e }

def stop (i : Inlet) : Inlet :=
  { i with reader := .stopped }

/-- A reader that waits goes on, if it can. It stops if the session takes no more. -/
def advance? (i : Inlet) (consuming : Bool) : Option Inlet :=
  match i.reader with
  | .offering e =>
    if !consuming then some i.stop
    else if i.isFull then none
    else
      let i := { i with queued := i.queued ++ [e] }
      some { i with reader := if i.isFull then .flushing else .reading }
  | .flushing => if !consuming || !i.isFull then some { i with reader := .reading } else none
  | _ => none

end Inlet

end PeerLink.Link

import PeerLink.Outbound

/-! Which of the senders of a session goes next. The queue leaves that open; a world decides it here. One
sender has the turn until its send has ended. A sender that arrives while nobody has the turn gets it at
once, any other takes a place: the one that was left last, or a new one behind all others. A turn that
nobody has goes to the sender in the first place. -/
namespace PeerLink

structure SendLine where
  /-- The sender that has the turn. -/
  turn : Option Ticket
  places : List (Option Ticket)
  /-- Places that were left, the one left last first. -/
  free : List Nat
  deriving DecidableEq, Repr

namespace SendLine

def new : SendLine :=
  ⟨none, [], []⟩

/-- A place is left. -/
def leave (l : SendLine) (place : Nat) : SendLine :=
  { l with places := l.places.set place none, free := place :: l.free }

/-- A sender arrives. -/
def arrive (l : SendLine) (t : Ticket) : SendLine :=
  if l.turn = none then { l with turn := some t }
  else match l.free with
    | [] => { l with places := l.places ++ [some t] }
    | place :: free => { l with places := l.places.set place (some t), free }

/-- Whoever is gone from the queue leaves, and whoever is new there arrives. -/
def follow (l : SendLine) (o : Outbound) : SendLine :=
  let isGone (place : Nat) : Bool :=
    match l.places[place]? with
    | some (some t) => !o.tickets.contains t
    | _ => false
  let l := ((List.range l.places.length).filter isGone).foldl leave l
  let l := { l with turn := l.turn.filter o.tickets.contains }
  let isNew (t : Ticket) : Bool := l.turn ≠ some t && !l.places.contains (some t)
  ((o.waiting.map Prod.fst).filter isNew).foldl arrive l

/-- Who is next when nobody has the turn. -/
def next? (l : SendLine) (o : Outbound) : Option Ticket :=
  let place (t : Ticket) : Nat := l.places.idxOf (some t)
  ((o.waiting.map Prod.fst).mergeSort fun t u => place t ≤ place u).head?

/-- A sender whose turn it is leaves its place. -/
def give (l : SendLine) (t : Ticket) : SendLine :=
  let place := l.places.idxOf (some t)
  { (if place < l.places.length then l.leave place else l) with turn := some t }

end SendLine

end PeerLink

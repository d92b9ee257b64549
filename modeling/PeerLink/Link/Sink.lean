/-! The receiving end of what a session writes. A sink may refuse one item or one close, and it may be
held, so that it takes no items or only a few more. -/
namespace PeerLink.Link

inductive Flow where
  | free
  /-- So many more items are taken. -/
  | held (permits : Nat)
  deriving DecidableEq, Repr

def Flow.isOpen : Flow → Bool
  | .free => true
  | .held n => n != 0

/-- One item has passed. -/
def Flow.pass : Flow → Flow
  | .free => .free
  | .held n => .held (n - 1)

/-- A sink for items of type `α` that fails with errors of type `ε`. -/
structure Sink (α ε : Type) where
  flow : Flow
  /-- The next item is refused, with this error. -/
  failure? : Option ε
  /-- The next close fails. -/
  closeFails : Bool
  /-- The items taken, and not yet looked at. -/
  taken : List α
  closed : Bool
  deriving DecidableEq, Repr

namespace Sink

variable {α ε : Type}

def new : Sink α ε :=
  ⟨.free, none, false, [], false⟩

/-- Whether the sink is ready for an item, which it is also when it is about to refuse it. -/
inductive Readiness (ε : Type) where
  | ready
  | blocked
  | failed (error : ε)

/-- Ask for room for an item. A failure happens once. -/
def poll (s : Sink α ε) : Readiness ε × Sink α ε :=
  if s.flow.isOpen then
    match s.failure? with
    | some e => (.failed e, { s with failure? := none })
    | none => (.ready, s)
  else (.blocked, s)

/-- Put an item into a sink that is ready. -/
def put (s : Sink α ε) (a : α) : Sink α ε :=
  { s with taken := s.taken ++ [a], flow := s.flow.pass }

def close (s : Sink α ε) : Sink α ε :=
  if s.closeFails then { s with closeFails := false } else { s with closed := true }

end Sink

end PeerLink.Link

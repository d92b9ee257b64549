import PeerLink.Text.Quoted

/-! Lifetimes form a forest. Cancelling one cancels everything below it and nothing else, once and for
all. Nodes are numbered in the order of their creation, so a parent has a smaller number than its
children. -/
namespace PeerLink

/-- A lifetime in a forest. -/
abbrev LifetimeId := Nat

/-- A node of the forest: its parent, and whether it was itself cancelled. -/
structure LifetimeNode where
  parent : Option LifetimeId
  cancelled : Bool
  deriving DecidableEq, Repr

structure Lifetimes where
  nodes : List LifetimeNode
  deriving DecidableEq, Repr

namespace Lifetimes

def empty : Lifetimes :=
  ⟨[]⟩

/-- The lifetime `l` and everything above it, from below. -/
def ancestry (ls : Lifetimes) (l : LifetimeId) : List LifetimeId :=
  match ls.nodes[l]? with
  | none => []
  | some node =>
    match node.parent with
    | none => [l]
    | some p => if _h : p < l then l :: ls.ancestry p else [l]
termination_by l

/-- The lifetime was itself cancelled. -/
def isFlagged (ls : Lifetimes) (l : LifetimeId) : Bool :=
  (ls.nodes[l]?.map LifetimeNode.cancelled).getD false

/-- The lifetime or one above it was cancelled. -/
def isCancelled (ls : Lifetimes) (l : LifetimeId) : Bool :=
  (ls.ancestry l).any ls.isFlagged

/-- The number that the next lifetime gets. -/
def next (ls : Lifetimes) : LifetimeId :=
  ls.nodes.length

/-- Create a lifetime. -/
def add (ls : Lifetimes) (parent : Option LifetimeId) : Lifetimes :=
  ⟨ls.nodes ++ [⟨parent, false⟩]⟩

def cancel (ls : Lifetimes) (l : LifetimeId) : Lifetimes :=
  ⟨ls.nodes.modify l fun node => { node with cancelled := true }⟩

def hasParent (ls : Lifetimes) (l : LifetimeId) : Bool :=
  (ls.nodes[l]?.bind LifetimeNode.parent).isSome

def debug (ls : Lifetimes) (l : LifetimeId) : String :=
  Text.record "Lifetime"
    [("cancelled", Text.bool (ls.isCancelled l)), ("has_parent", Text.bool (ls.hasParent l))]

end Lifetimes

end PeerLink

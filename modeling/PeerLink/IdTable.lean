/-! Tables with at most one entry for an id, in the order of insertion. -/
namespace PeerLink

/-- The entries of a table. -/
structure IdTable (α : Type) where
  entries : List (Int32 × α)
  deriving DecidableEq, Repr

namespace IdTable

variable {α : Type}

def empty : IdTable α :=
  ⟨[]⟩

def get? (t : IdTable α) (id : Int32) : Option α :=
  t.entries.lookup id

def contains (t : IdTable α) (id : Int32) : Bool :=
  (t.get? id).isSome

def size (t : IdTable α) : Nat :=
  t.entries.length

def erase (t : IdTable α) (id : Int32) : IdTable α :=
  ⟨t.entries.filter fun e => e.1 ≠ id⟩

/-- Set the entry for an id, behind all others. -/
def insert (t : IdTable α) (id : Int32) (a : α) : IdTable α :=
  ⟨(t.erase id).entries ++ [(id, a)]⟩

/-- Insert a value under an id without entry. An id with an entry keeps it and hands the value back. -/
def insertIfNew (t : IdTable α) (id : Int32) (a : α) : IdTable α × Option α :=
  if t.contains id then (t, some a) else (t.insert id a, none)

/-- Change the entry for an id, if there is one. -/
def modify (t : IdTable α) (id : Int32) (f : α → α) : IdTable α :=
  ⟨t.entries.map fun e => if e.1 = id then (e.1, f e.2) else e⟩

/-- The first id from `id` on that has no entry, if at most `fuel` others come before it. The ids in use are
no more than the entries, so `fuel` need not be larger than their number. -/
def freeFrom (t : IdTable α) : (fuel : Nat) → (id : Int32) → Int32
  | 0, id => id
  | fuel + 1, id => if t.contains id then t.freeFrom fuel (id + 1) else id

/-- The first id from `id` on that has no entry. -/
def free (t : IdTable α) (id : Int32) : Int32 :=
  t.freeFrom t.size id

end IdTable

end PeerLink

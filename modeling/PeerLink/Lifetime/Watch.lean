import PeerLink.Lifetime

/-! Named handles to lifetimes, and tasks that wait for them. Whether a lifetime is cancelled is read
off flags; a waiter is woken by a signal instead, which a lifetime gives when it is cancelled and also
when nothing refers to it any more. Handles, unfinished waiters and children keep a lifetime, so the
second kind of signal reaches nobody. -/
namespace PeerLink

/-- A task that waits for a lifetime, and whether it has finished. -/
structure Waiter where
  tag : String
  lifetime : LifetimeId
  finished : Bool
  deriving DecidableEq, Repr

structure Watch where
  lifetimes : Lifetimes
  /-- The lifetimes that have given their signal. -/
  signals : List LifetimeId
  handles : List (String × LifetimeId)
  waiters : List Waiter
  deriving DecidableEq, Repr

namespace Watch

def empty : Watch :=
  ⟨.empty, [], [], []⟩

def handle? (w : Watch) (name : String) : Option LifetimeId :=
  w.handles.lookup name

/-- Something refers to the lifetime: a handle, an unfinished waiter, or a child that is referred to. -/
def isKept (w : Watch) (l : LifetimeId) : Bool :=
  (w.handles.any fun h => l ∈ w.lifetimes.ancestry h.2) ||
    w.waiters.any fun t => !t.finished && decide (l ∈ w.lifetimes.ancestry t.lifetime)

/-- Give the signals of lifetimes to which nothing refers. -/
def release (w : Watch) : Watch :=
  let lost := (List.range w.lifetimes.next).filter fun l => !w.isKept l && !w.signals.contains l
  { w with signals := w.signals ++ lost }

/-- A waiter hears the signals of its lifetime and of those above. -/
def isWoken (w : Watch) (t : Waiter) : Bool :=
  (w.lifetimes.ancestry t.lifetime).any fun l => w.signals.contains l

/-- Let every waiter that was woken finish. -/
def settle (w : Watch) : Watch :=
  { w with waiters := w.waiters.map fun t => { t with finished := t.finished || w.isWoken t } }

/-- Give a lifetime a handle, in place of the one of that name. -/
def bind (w : Watch) (name : String) (l : LifetimeId) : Watch :=
  { w with handles := w.handles.filter (fun h => h.1 ≠ name) ++ [(name, l)] }

inductive Op where
  | create (name : String)
  | child (parent name : String)
  | clone (source name : String)
  | cancel (name : String)
  | drop (name : String)
  | wait (name tag : String)
  deriving DecidableEq, Repr

/-- A new lifetime with a handle. -/
def create (w : Watch) (parent : Option LifetimeId) (name : String) : Watch :=
  { w with lifetimes := w.lifetimes.add parent }.bind name w.lifetimes.next

/-- Cancel a lifetime; the first time it gives its signal. -/
def cancel (w : Watch) (l : LifetimeId) : Watch :=
  if w.lifetimes.isFlagged l then w
  else { w with lifetimes := w.lifetimes.cancel l, signals := w.signals ++ [l] }

/-- One operation. A name without a handle has no effect. -/
def apply (w : Watch) (op : Op) : Watch :=
  match op with
  | .create name => w.create none name
  | .child parent name =>
    match w.handle? parent with
    | some p => w.create (some p) name
    | none => w
  | .clone source name =>
    match w.handle? source with
    | some l => w.bind name l
    | none => w
  | .cancel name =>
    match w.handle? name with
    | some l => w.cancel l
    | none => w
  | .drop name => { w with handles := w.handles.filter fun h => h.1 ≠ name }
  | .wait name tag =>
    match w.handle? name with
    | some l => { w with waiters := w.waiters ++ [⟨tag, l, false⟩] }
    | none => w

/-- One operation, and everything that follows from it. -/
def step (w : Watch) (op : Op) : Watch :=
  (w.apply op).release.settle

/-- Whether each handle's lifetime is cancelled. -/
def cancelled (w : Watch) : List (String × Bool) :=
  w.handles.map fun h => (h.1, w.lifetimes.isCancelled h.2)

/-- The tags of the waiters that have finished. -/
def finishedTags (w : Watch) : List String :=
  (w.waiters.filter Waiter.finished).map Waiter.tag

/-- Two handles are of one lifetime. -/
def sameLifetime (w : Watch) (a b : String) : Bool :=
  (w.handle? a).isSome && w.handle? a == w.handle? b

def debug? (w : Watch) (name : String) : Option String :=
  (w.handle? name).map w.lifetimes.debug

end Watch

end PeerLink

import PeerLink.Envelope

/-! The queue of envelopes towards the remote peer. Senders take turns. Nothing says whose turn comes
next: each of those that wait may be the next one, also one that has just arrived. The one whose turn
it is puts its envelope into the queue as long as that holds at most `capacity` others, and if it held
just as many it then waits for room before its turn ends. A sender that gives up leaves an envelope
that is already queued where it is. -/
namespace PeerLink

/-- The number of a send. -/
abbrev Ticket := Nat

/-- How a send ends. -/
inductive SendResult where
  /-- The envelope was queued. -/
  | accepted
  /-- Nobody takes envelopes any more, and the envelope was not queued. -/
  | refused
  deriving DecidableEq, Repr

structure Outbound where
  capacity : Nat
  queued : List Envelope
  /-- The sender whose envelope filled the queue and who waits for room. -/
  flushing : Option Ticket
  /-- Senders whose envelopes are not queued, in the order of their arrival. -/
  waiting : List (Ticket × Envelope)
  /-- Nobody takes envelopes any more. -/
  abandoned : Bool
  deriving DecidableEq, Repr

namespace Outbound

def new (capacity : Nat) : Outbound :=
  ⟨capacity, [], none, [], false⟩

/-- The largest capacity of a queue. -/
def maxCapacity : Nat := 0x3FFFFFFFFFFFFFFE

/-- The queue takes no envelope until one was taken out. -/
def isFull (o : Outbound) : Bool :=
  o.capacity < o.queued.length

/-- A sender arrives. -/
def enqueue (o : Outbound) (t : Ticket) (e : Envelope) : Outbound :=
  { o with waiting := o.waiting ++ [(t, e)] }

/-- The sends that have not ended. -/
def tickets (o : Outbound) : List Ticket :=
  o.flushing.toList ++ o.waiting.map Prod.fst

/-- A sender goes on, if it can: the one whose envelope filled the queue before any other. Returns how
the send ended, if it did. -/
def advance? (o : Outbound) (t : Ticket) : Option (Outbound × Option SendResult) :=
  match o.flushing with
  | some u =>
    if u = t ∧ (o.abandoned || !o.isFull) then some ({ o with flushing := none }, some .accepted)
    else none
  | none =>
    match o.waiting.find? fun w => w.1 = t with
    | none => none
    | some (_, e) =>
      let waiting := o.waiting.eraseP fun w => w.1 = t
      if o.abandoned then some ({ o with waiting }, some .refused)
      else if o.isFull then none
      else
        let o := { o with queued := o.queued ++ [e], waiting }
        if o.isFull then some ({ o with flushing := some t }, none) else some (o, some .accepted)

/-- Who can go on: as long as there is room or nobody takes envelopes any more, the one whose envelope
filled the queue, or else each of those that wait. -/
theorem advance?_ne_none_iff {o : Outbound} {t : Ticket} :
    o.advance? t ≠ none ↔ (o.abandoned = true ∨ o.isFull = false) ∧
      (o.flushing = some t ∨ o.flushing = none ∧ t ∈ o.waiting.map Prod.fst) := by
  unfold advance?
  cases hFlushing : o.flushing with
  | some u =>
      simp only [Option.some.injEq, reduceCtorEq, false_and, or_false]
      split
      · next hReady => simpa [hReady.1] using hReady.2
      · next hStuck =>
          refine ⟨nofun, fun ⟨hReady, hSame⟩ => absurd ⟨hSame, ?_⟩ hStuck⟩
          simpa using hReady
  | none =>
      simp only [reduceCtorEq, true_and, false_or]
      cases hFind : o.waiting.find? fun w => w.1 = t with
      | none =>
          refine ⟨nofun, fun ⟨_, hIn⟩ => ?_⟩
          obtain ⟨w, hw, rfl⟩ := List.mem_map.mp hIn
          exact absurd (List.find?_eq_none.mp hFind w hw) (by simp)
      | some w =>
          obtain ⟨u, e⟩ := w
          have hIn : t ∈ o.waiting.map Prod.fst :=
            List.mem_map.mpr ⟨_, List.mem_of_find?_eq_some hFind, by simpa using List.find?_some hFind⟩
          cases o.abandoned <;> cases hFull : o.isFull <;> simp [hIn]
          split <;> simp

/-- The envelope that has been queued longest is taken. -/
def take? (o : Outbound) : Option (Envelope × Outbound) :=
  match o.queued with
  | [] => none
  | e :: rest => some (e, { o with queued := rest })

/-- A sender gives up. -/
def giveUp (o : Outbound) (t : Ticket) : Outbound :=
  { o with
    flushing := if o.flushing = some t then none else o.flushing
    waiting := o.waiting.filter fun w => w.1 ≠ t }

/-- Nobody will take envelopes any more; those in the queue are lost. -/
def abandon (o : Outbound) : Outbound :=
  { o with queued := [], abandoned := true }

end Outbound

end PeerLink

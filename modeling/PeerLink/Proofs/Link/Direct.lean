import PeerLink.Proofs.Link.Writing
import PeerLink.Proofs.Session.Shared

/-! Sessions over queues of envelopes, with nothing between the program and the session. Whoever holds the
queue into which a session sends may take envelopes from it or drop it. -/
namespace PeerLink

variable {M S : Type}

namespace Direct

/-- What can happen to a session over queues in one go. -/
inductive Action where
  | link (x : Linked.Action)
  /-- The queue into which the session sends is dropped. -/
  | drop

def step? (l : Linked M S) : Action → Option (Linked M S)
  | .link x => l.step? x
  | .drop => some ⟨l.toMachine.abandonOutbound, l.transport⟩

/-- What has happened, in order: every action with the state in which it was done. -/
abbrev History (M S : Type) := List (Linked M S × Action)

/-- A session over queues gets from `start` to a state by the actions of a history. -/
inductive Execution (start : Linked M S) : History M S → Linked M S → Prop where
  | refl : Execution start [] start
  | step {past : History M S} {l l' : Linked M S} {y : Action}
      (prior : Execution start past l) (last : step? l y = some l') :
      Execution start (past ++ [(l, y)]) l'

/-- The envelopes that were put into the queue from which the session takes. -/
def History.fed (past : History M S) : List Envelope :=
  past.flatMap fun x => match x.2 with
    | .link (.outside (.envelopes es)) => es
    | _ => []

section Steps

variable {r : Linked M S} {q : Machine M S} {incoming taken : List Envelope}

theorem step?_stop
    (hQueues : r.transport = .queues { incoming, incomingEnded := false, flow := .free, taken })
    (hStop : r.stopConsuming? false = some q) :
    step? r (.link .consume) = some ⟨q, r.transport⟩ := by
  simp only [step?, Linked.step?, Transport.consume?, Link.Queues.consume?, hQueues, Bool.and_false, hStop,
    Option.map_some]

theorem step?_receive {e : Envelope}
    (hQueues : r.transport =
      .queues { incoming := e :: incoming, incomingEnded := false, flow := .free, taken })
    (hGoing : r.stopConsuming? false = none) (hReceive : r.receive? e = some q) :
    step? r (.link .consume) =
      some ⟨q, .queues { incoming, incomingEnded := false, flow := .free, taken }⟩ := by
  simp only [step?, Linked.step?, Transport.consume?, Link.Queues.consume?, hQueues, Bool.and_false, hGoing,
    hReceive, Option.map_some]

theorem step?_take {e : Envelope}
    (hQueues : r.transport = .queues { incoming, incomingEnded := false, flow := .free, taken })
    (hTake : r.takeOutbound? = some (e, q)) : step? r (.link .write) =
      some ⟨q, .queues { incoming, incomingEnded := false, flow := .free, taken := taken ++ [e] }⟩ := by
  simp only [step?, Linked.step?, Transport.write?, Link.Queues.write?, hQueues, hTake, Option.map_some,
    Link.Flow.isOpen, Link.Flow.pass, if_true]

end Steps

theorem History.fed_append {past : History M S} {l : Linked M S} {y : Action} :
    History.fed (past ++ [(l, y)]) = past.fed ++ History.fed [(l, y)] :=
  List.flatMap_append

end Direct

namespace Transport

variable {t : Transport} {m : Machine M S}

theorem consumes_cases {a : Machine.Action} (h : t.consumes m = some a) :
    (a = .stop t.isExhausted ∧ ∃ m', m.stopConsuming? t.isExhausted = some m') ∨
      ∃ e, a = .receive e ∧ m.stopConsuming? t.isExhausted = none := by
  unfold consumes at h
  split at h
  · next hStop =>
      cases h
      exact .inl ⟨rfl, _, hStop⟩
  · next e hGoing _ =>
      cases h
      exact .inr ⟨e, rfl, hGoing⟩
  · cases h

end Transport

namespace Linked

variable {r : Linked M S} {along : Direct.History M S}

/-! ### What is counted -/

theorem Event.change?_queues {event : Event} {link : Link.Queues} {t : Transport}
    (h : event.change? (.queues link) = some t) : ∃ link', t = .queues link' := by
  cases event with
  | envelopes es =>
      obtain ⟨_, hArrive⟩ := Option.ite_none_left_eq_some.mp h
      exact ⟨_, (Option.some.inj hArrive).symm⟩
  | _ => exact ⟨_, (Option.some.inj h).symm⟩

theorem step?_over_queues {y : Direct.Action} {link : Link.Queues} {r' : Linked M S}
    (hQueues : r.transport = .queues link) (h : Direct.step? r y = some r')
    (hOwn : ∀ meter journal, y ≠ .link (.act (.others meter journal))) :
    (∃ link', r'.transport = .queues link') ∧ r'.meter.pings = r.meter.pings := by
  have hStep : ∀ {a : Machine.Action} {m : Machine M S}, r.toMachine.step? a = some m →
      (∀ meter journal, a ≠ .others meter journal) → m.meter.pings = r.meter.pings := fun h hOwn => by
    rw [(Machine.step?_shared h).2, (Machine.Action.samePings hOwn _).pings]
  obtain ⟨m, t⟩ := r
  dsimp only at hQueues
  subst hQueues
  cases y with
  | drop =>
      cases h
      exact ⟨⟨link, rfl⟩, rfl⟩
  | link x =>
      cases x with
      | act a =>
          rw [Direct.step?, step?] at h
          split at h
          · obtain ⟨m', hAct, rfl⟩ := Option.map_eq_some_iff.mp h
            exact ⟨⟨link, rfl⟩, hStep hAct fun meter journal he => hOwn meter journal (he ▸ rfl)⟩
          · cases h
      | read => cases h
      | consume =>
          obtain ⟨⟨m', t⟩, hConsume, rfl⟩ := Option.map_eq_some_iff.mp h
          obtain ⟨a, hView, hAct, _⟩ := Transport.consume?_frame hConsume
          obtain ⟨⟨_, link'⟩, _, he⟩ := Option.map_eq_some_iff.mp hConsume
          obtain ⟨rfl, rfl⟩ := Prod.mk.inj he
          refine ⟨⟨link', rfl⟩, hStep hAct ?_⟩
          obtain ⟨rfl, _⟩ | ⟨e, rfl, _⟩ := Transport.consumes_cases hView
          · simp
          · simp
      | write =>
          obtain ⟨⟨m', t⟩, hWrite, rfl⟩ := Option.map_eq_some_iff.mp h
          obtain ⟨_, _, _, hTake⟩ | ⟨_, _, hSome, _, _⟩ := Transport.write?_step hWrite
          · obtain ⟨⟨_, link'⟩, _, he⟩ := Option.map_eq_some_iff.mp hWrite
            obtain ⟨rfl, rfl⟩ := Prod.mk.inj he
            exact ⟨⟨link', rfl⟩, hStep hTake (by simp)⟩
          · cases hSome
      | outside event =>
          obtain ⟨t, hChange, rfl⟩ := Option.map_eq_some_iff.mp h
          exact ⟨Event.change?_queues hChange, rfl⟩

/-- Over queues no ping is counted. -/
theorem pings_over_queues {host : Host} {registry : Registry M S} {callTimeout : Option Duration}
    {capacity : Nat}
    (run : Direct.Execution (new host registry callTimeout capacity (.queues .new)) along r)
    (hAlone : ∀ x ∈ along, ∀ meter journal, x.2 ≠ .link (.act (.others meter journal))) :
    (∃ link, r.transport = .queues link) ∧ r.meter.pings = host.meter.pings := by
  induction run with
  | refl => exact ⟨⟨.new, rfl⟩, rfl⟩
  | @step along r r' y _ last ih =>
      obtain ⟨⟨link, hQueues⟩, hPings⟩ := ih fun x hx => hAlone x (List.mem_append_left _ hx)
      obtain ⟨hStays, hSame⟩ := step?_over_queues hQueues last
        (hAlone (r, y) (List.mem_append_right _ (List.mem_singleton.mpr rfl)))
      exact ⟨hStays, hSame.trans hPings⟩

end Linked

end PeerLink

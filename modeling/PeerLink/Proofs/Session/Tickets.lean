import Mathlib.Data.List.Nodup
import PeerLink.Proofs.Session.Owning
import PeerLink.Proofs.Session.Sending

/-! The sends that are under way, and the calls behind them. The queue knows a send by its number only,
so the end of a send could reach a call that is long over. It does not: as long as the queue holds the
number, the call still waits for its request to be queued. -/
namespace PeerLink

variable {M S : Type}

namespace Outbound

theorem tickets_enqueue (o : Outbound) (t : Ticket) (e : Envelope) :
    (o.enqueue t e).tickets = o.tickets ++ [t] := by
  simp [tickets, enqueue]

theorem tickets_giveUp (o : Outbound) (t : Ticket) :
    (o.giveUp t).tickets = o.tickets.filter (· ≠ t) := by
  simp only [tickets, giveUp, List.filter_append, List.filter_map]
  congr 1
  cases o.flushing with
  | none => rfl
  | some f => by_cases hf : f = t <;> simp [hf]

theorem tickets_advance {o o' : Outbound} {t : Ticket} (h : o.advance? t = some (o', none)) :
    o'.tickets.Perm o.tickets := by
  cases advance?_cases h with
  | filled e front back flushing waiting =>
      simp only [tickets, flushing, waiting, Option.toList_some, Option.toList_none, List.nil_append,
        List.singleton_append, List.map_append, List.map_cons]
      exact List.perm_middle.symm

/-- What the queue holds is what it held, without the send that has ended. -/
theorem tickets_complete {o o' : Outbound} {t : Ticket} {result : SendResult}
    (h : o.advance? t = some (o', some result)) : o.tickets.Perm (t :: o'.tickets) := by
  cases advance?_cases h with
  | flushed flushing => simp [tickets, flushing]
  | refused e front back flushing waiting => simp [tickets, flushing, waiting, List.perm_middle]
  | entered e front back flushing waiting => simp [tickets, flushing, waiting, List.perm_middle]

theorem tickets_take {o o' : Outbound} {e : Envelope} (h : o.take? = some (e, o')) :
    o'.tickets = o.tickets := by
  obtain ⟨rest, _, rfl⟩ := take?_eq_some h
  rfl

end Outbound

namespace Machine

variable {m m' : Machine M S} {a : Action}

/-- What the queue still holds is still wanted. -/
structure Tracked (s : Session M S) : Prop where
  nodup : s.outbound.tickets.Nodup
  pending : ∀ t ∈ s.outbound.tickets, ∃ x, s.sends[t]? = some x ∧ x.state = .pending
  sending : ∀ t ∈ s.outbound.tickets, ∀ x, s.sends[t]? = some x →
    ∀ c, x.sender = .call c → ∃ call, s.calls[c]? = some call ∧ call.state = .sending t

theorem tracked_new (registry : Registry M S) (callTimeout : Option Duration) (capacity : Nat)
    (lifetime : LifetimeId) : Tracked (Session.new registry callTimeout capacity lifetime) :=
  ⟨List.nodup_nil, nofun, nofun⟩

theorem Tracked.lt_length (h : Tracked m.session) {t : Ticket} (ht : t ∈ m.session.outbound.tickets) :
    t < m.session.sends.length := by
  obtain ⟨x, hx, _⟩ := h.pending t ht
  exact (List.getElem?_eq_some_iff.mp hx).1

/-- A send that was given up is gone from the queue. -/
theorem Tracked.giveUp (hTracked : Tracked m.session) (t : Ticket) :
    ((m.session.giveUp t).outbound.tickets).Sublist m.session.outbound.tickets ∧
      t ∉ (m.session.giveUp t).outbound.tickets ∧
      ∀ j, j ≠ t → (m.session.giveUp t).sends[j]? = m.session.sends[j]? := by
  unfold Session.giveUp
  split
  · next hDone =>
      refine ⟨List.Sublist.refl _, fun ht => ?_, fun _ _ => rfl⟩
      obtain ⟨⟨sender, e, state⟩, hx, hState⟩ := hTracked.pending t ht
      subst hState
      simp [Session.sendResult?, hx] at hDone
  · refine ⟨?_, ?_, fun j hj => ?_⟩
    · simp only [Session.setSendState, Outbound.tickets_giveUp]
      exact List.filter_sublist
    · simp [Session.setSendState, Outbound.tickets_giveUp]
    · simp [Session.setSendState, Ne.symm hj]

/-- After an action the queue holds what it held before, unchanged, and at most the send that has just
begun. -/
theorem step?_tickets (hTracked : Tracked m.session) (h : m.step? a = some m') :
    m'.session.outbound.tickets.Nodup ∧ ∀ t ∈ m'.session.outbound.tickets,
      t ∈ m.session.outbound.tickets ∧ m'.session.sends[t]? = m.session.sends[t]? ∨
      t = m.session.sends.length ∧
        ∃ x e, m.Says a x e ∧ m'.session.sends[t]? = some ⟨x, e, .pending⟩ := by
  cases step?_sends h with
  | kept sends outbound =>
      rw [outbound, sends]
      exact ⟨hTracked.nodup, fun t ht => .inl ⟨ht, rfl⟩⟩
  | began x e cause sends outbound =>
      rw [outbound, sends, Outbound.tickets_enqueue]
      refine ⟨?_, fun t ht => ?_⟩
      · rw [List.nodup_append]
        refine ⟨hTracked.nodup, List.nodup_singleton _, fun t ht u hu => ?_⟩
        rw [List.mem_singleton.mp hu]
        exact Nat.ne_of_lt (hTracked.lt_length ht)
      · rcases List.mem_append.mp ht with ht | ht
        · exact .inl ⟨ht, List.getElem?_append_left (hTracked.lt_length ht)⟩
        · have hNew := List.mem_singleton.mp ht
          exact .inr ⟨hNew, x, e, cause, by simp [hNew]⟩
  | gaveUp t _ sends outbound =>
      obtain ⟨hSub, hGone, hSends⟩ := hTracked.giveUp t
      rw [outbound, sends]
      refine ⟨hTracked.nodup.sublist hSub, fun j hj => .inl ⟨hSub.subset hj, hSends j ?_⟩⟩
      rintro rfl
      exact hGone hj
  | queued outbound t _ advance next =>
      have hTickets := Outbound.tickets_advance advance
      rw [next]
      exact ⟨hTickets.nodup_iff.mpr hTracked.nodup, fun u hu => .inl ⟨hTickets.subset hu, rfl⟩⟩
  | completed outbound t result _ advance next =>
      have hTickets := Outbound.tickets_complete advance
      obtain ⟨hOut, hNodup⟩ := List.nodup_cons.mp (hTickets.nodup_iff.mp hTracked.nodup)
      rw [next, finishSend_outbound, finishSend_sends]
      refine ⟨hNodup, fun j hj => .inl ⟨?_, ?_⟩⟩
      · exact hTickets.symm.subset (List.mem_cons_of_mem t hj)
      · have hne : t ≠ j := fun he => hOut (he ▸ hj)
        simp [hne]
  | taken e outbound _ take next =>
      have hTickets : m'.session.outbound.tickets = m.session.outbound.tickets := by
        rw [next]
        exact Outbound.tickets_take take
      rw [hTickets, next]
      exact ⟨hTracked.nodup, fun t ht => .inl ⟨ht, rfl⟩⟩
  | abandoned _ next =>
      rw [next]
      exact ⟨hTracked.nodup, fun t ht => .inl ⟨ht, rfl⟩⟩

/-- Once a send has ended, the queue no longer holds it. -/
theorem Tracked.completed (hTracked : Tracked m.session) {t : Ticket} (h : m.step? (.advance t) = some m')
    {outbound : Outbound} {result : SendResult}
    (advance : m.session.outbound.advance? t = some (outbound, some result)) :
    t ∉ m'.session.outbound.tickets := by
  have hNodup := (Outbound.tickets_complete advance).nodup_iff.mp hTracked.nodup
  obtain ⟨o, ⟨hAdvance, _⟩ | ⟨r, hAdvance, rfl⟩⟩ := advanceOutbound?_cases h
  · cases advance.symm.trans hAdvance
  · cases advance.symm.trans hAdvance
    rw [finishSend_outbound]
    exact (List.nodup_cons.mp hNodup).1

/-- The call whose request's send ends has waited for just that. -/
theorem Tracked.advancing (hTracked : Tracked m.session) {outbound : Outbound} {t : Ticket}
    {result : SendResult} (advance : m.session.outbound.advance? t = some (outbound, some result))
    {x : Send} (send : m.session.sends[t]? = some x) {c : CallId} (sender : x.sender = .call c) :
    ∃ call, m.session.calls[c]? = some call ∧ call.state = .sending t :=
  hTracked.sending t ((Outbound.tickets_complete advance).symm.subset List.mem_cons_self) x send c sender

/-- A call whose request is still to be queued goes on waiting for that, or its send is gone. -/
theorem step?_sending (hTracked : Tracked m.session) (h : m.step? a = some m') {c : CallId} {call : Call}
    {t : Ticket} (hCall : m.session.calls[c]? = some call) (hState : call.state = .sending t)
    (ht : t ∈ m'.session.outbound.tickets) :
    ∃ call', m'.session.calls[c]? = some call' ∧ call'.state = .sending t := by
  -- Every way out of the state `.sending t` takes `t` out of the queue in the same step.
  have hGone : ∀ {outbound : Outbound} {u : Ticket} {result : SendResult} {z : Send},
      m.step? (.advance u) = some m' → m.session.outbound.advance? u = some (outbound, some result) →
      m.session.sends[u]? = some z → z.sender = .call c → False := fun h advance send sender => by
    obtain ⟨x, hx, hSending⟩ := hTracked.advancing advance send sender
    cases hx.symm.trans hCall
    cases hSending.symm.trans hState
    exact hTracked.completed h advance ht
  cases step?_callTurn h c with
  | same calls => exact ⟨call, calls.trans hCall, hState⟩
  | made new => cases new.symm.trans hCall
  | answered x found r _ _ now =>
      cases found.symm.trans hCall
      exact ⟨_, now, hState⟩
  | queued x _ cause advance send sender => exact (hGone (cause ▸ h) advance send sender).elim
  | ended x found _ cause =>
      cases found.symm.trans hCall
      cases cause with
      | dropped _ =>
          cases h
          have hOutbound : (m.dropCall c).session.outbound = (m.session.giveUp t).outbound := by
            simp only [dropCall, hCall, hState]
            rw [endCall_session]
            rfl
          rw [hOutbound] at ht
          exact absurd ht (hTracked.giveUp t).2.1
      | returned waiting _ => cases waiting.symm.trans hState
      | refused advance send sender => exact (hGone h advance send sender).elim

theorem Tracked.step (hTracked : Tracked m.session) (h : m.step? a = some m') : Tracked m'.session := by
  obtain ⟨hNodup, hTickets⟩ := step?_tickets hTracked h
  refine ⟨hNodup, fun t ht => ?_, fun t ht x hx c hSender => ?_⟩
  · obtain ⟨hOld, hSame⟩ | ⟨_, x, e, _, hNew⟩ := hTickets t ht
    · rw [hSame]
      exact hTracked.pending t hOld
    · exact ⟨_, hNew, rfl⟩
  · obtain ⟨hOld, hSame⟩ | ⟨rfl, y, e, cause, hNew⟩ := hTickets t ht
    · rw [hSame] at hx
      obtain ⟨call, hCall, hState⟩ := hTracked.sending t hOld x hx c hSender
      exact step?_sending hTracked h hCall hState ht
    · rw [hNew] at hx
      cases hx
      cases cause <;> cases hSender
      obtain ⟨_, rfl⟩ := step?_call_eq_some h
      exact ⟨_, List.getElem?_concat_length, rfl⟩

theorem Life.tracked {start s : Session M S} {past : History M S} (hStart : Tracked start)
    (life : Life start past s) : Tracked s := by
  induction life with
  | refl => exact hStart
  | step _ last ih => exact Tracked.step ih last

end Machine

end PeerLink

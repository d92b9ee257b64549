import Mathlib.Algebra.GroupWithZero.Nat
import PeerLink.Proofs.Session.Tickets

/-! How much the tasks of a session have still to do. What a task does next can make work for another: a
request that nobody serves is refused, the refusal is sent, and the remote peer hands it to a stream. Each
piece of work is counted with all that can follow from it, so every step of a task leaves less. Handlers
and the program that owns the session are not counted; nothing here waits for them. -/
namespace PeerLink

variable {M S : Type}

/-- The work behind an envelope that the remote peer has still to handle. -/
def Envelope.work : Envelope → Nat
  | .request _ => 8
  | .response _ => 2
  | _ => 1

namespace Outbound

def work (o : Outbound) : Nat :=
  (o.queued.map Envelope.work).sum + (o.waiting.map fun w => w.2.work + 4).sum +
    2 * o.flushing.toList.length

theorem work_enqueue (o : Outbound) (t : Ticket) (e : Envelope) :
    (o.enqueue t e).work = o.work + e.work + 4 := by
  simp only [work, enqueue, List.map_append, List.sum_append, List.map_cons, List.map_nil,
    List.sum_cons, List.sum_nil]
  omega

/-- Two are more than the end of a send can give its call to do. -/
theorem work_advance {o o' : Outbound} {t : Ticket} {result? : Option SendResult}
    (h : o.advance? t = some (o', result?)) : o'.work + 2 ≤ o.work := by
  cases advance?_cases h with
  | flushed flushing => simp [work, flushing]
  | refused e front back flushing waiting =>
      simp only [work, waiting, List.map_append, List.map_cons, List.sum_append, List.sum_cons]
      omega
  | filled e front back flushing waiting =>
      simp only [work, waiting, flushing, List.map_cons, List.sum_cons, List.map_append,
        List.sum_append, List.map_nil, List.sum_nil, Option.toList_some, Option.toList_none,
        List.length_cons, List.length_nil]
      omega
  | entered e front back flushing waiting =>
      simp only [work, waiting, List.map_cons, List.sum_cons, List.map_append, List.sum_append,
        List.map_nil, List.sum_nil]
      omega

theorem work_take {o o' : Outbound} {e : Envelope} (h : o.take? = some (e, o')) :
    o.work = o'.work + e.work := by
  obtain ⟨rest, hQueued, rfl⟩ := take?_eq_some h
  simp only [work, hQueued, List.map_cons, List.sum_cons]
  omega

theorem work_abandon (o : Outbound) : o.abandon.work ≤ o.work := by
  simp only [work, abandon, List.map_nil, List.sum_nil]
  omega

end Outbound

def Call.work (call : Call) : Nat :=
  if call.state.isOver then 0 else 1

def ClientStream.work (x : ClientStream) : Nat :=
  x.responses.length + (!x.ended).toNat

def Refusal.work (x : Refusal) : Nat :=
  if x.started then 0 else 7

/-- The steps that are left to the tasks of a session, and to the remote peer because of them, at most. -/
def Session.work (s : Session M S) : Nat :=
  s.outbound.work + (s.calls.map Call.work).sum + (s.clientStreams.map ClientStream.work).sum +
    (s.refusals.map Refusal.work).sum + s.consuming.toNat

section Sums

variable {α : Type}

/-- One summand changes. -/
theorem sum_modify {l : List α} {i : Nat} {x : α} (h : l[i]? = some x) (f : α → α) (g : α → Nat) :
    ((l.modify i f).map g).sum + g x = (l.map g).sum + g (f x) := by
  obtain ⟨hi, rfl⟩ := List.getElem?_eq_some_iff.mp h
  obtain ⟨before, y, later, hSplit, hLength, hModify⟩ := List.exists_of_modify f hi
  have hy : l[i] = y := by simp [hSplit, ← hLength]
  rw [hModify, hy, hSplit]
  simp only [List.map_append, List.map_cons, List.sum_append, List.sum_cons]
  omega

/-- A summand that may not be there grows by so much at most. -/
theorem sum_modify_le {l : List α} (i : Nat) {f : α → α} {g : α → Nat} {k : Nat}
    (h : ∀ x, g (f x) ≤ g x + k) : ((l.modify i f).map g).sum ≤ (l.map g).sum + k := by
  cases hx : l[i]? with
  | none =>
      rw [List.modify_eq_self (List.getElem?_eq_none_iff.mp hx)]
      omega
  | some x =>
      have hSum := sum_modify hx f g
      have hStep := h x
      omega

end Sums

namespace Machine

variable {m m' : Machine M S} {a : Action}

/-! ### Steps of tasks -/

theorem work_endCall_le (m : Machine M S) (c : CallId) {state : CallState} (hOver : state.isOver = true) :
    (m.endCall c state).session.work ≤ m.session.work := by
  have hCalls := sum_modify_le (l := m.session.calls) c (f := fun x => { x with state })
    (g := Call.work) (k := 0) (fun x => by simp [Call.work, hOver])
  rw [← endCall_calls] at hCalls
  rw [endCall_session]
  simp only [Session.work] at hCalls ⊢
  omega

/-- A call that returns has nothing more to do. -/
theorem work_pollCall? {c : CallId} (h : m.pollCall? c = some m') : m'.session.work < m.session.work := by
  obtain ⟨call, deadline?, result, hCall, hState, rfl, -⟩ := pollCall?_cases h
  have hCalls := sum_modify hCall (fun x => { x with state := .returned result }) Call.work
  have hBefore : call.work = 1 := by simp [Call.work, hState, CallState.isOver]
  have hAfter : Call.work { call with state := .returned result } = 0 := by
    simp [Call.work, CallState.isOver]
  rw [← endCall_calls, hBefore, hAfter] at hCalls
  rw [endCall_session]
  simp only [Session.work] at hCalls ⊢
  omega

theorem work_modifyClient {s : Session M S} {c : ClientStreamId} {x : ClientStream}
    (h : s.clientStreams[c]? = some x) (f : ClientStream → ClientStream) :
    (s.modifyClient c f).work + x.work = s.work + (f x).work := by
  have hStreams := sum_modify h f ClientStream.work
  simp only [Session.work, Session.modifyClient] at hStreams ⊢
  omega

theorem work_endClient (m : Machine M S) (c : ClientStreamId) (x : ClientStream) :
    (m.endClient c x).session.work =
      (m.session.modifyClient c fun x => { x with ended := true }).work := rfl

/-- Sorting a response is done once, and so is the end of a stream. -/
theorem work_pollClient? {c : ClientStreamId} (h : m.pollClient? c = some m') :
    m'.session.work < m.session.work := by
  obtain ⟨x, hx, hOpen, ⟨-, rfl⟩ | ⟨content, rest, hResponses, rfl⟩⟩ := pollClient?_cases h
  · have hEnd := work_modifyClient hx fun x => { x with ended := true }
    simp only [ClientStream.work, hOpen, Bool.toNat_true, Bool.toNat_false, Bool.not_true,
      Bool.not_false] at hEnd
    rw [work_endClient]
    omega
  · obtain ⟨messages, he | he⟩ := sortResponse_cases m c x content rest
    · have hSorted := work_modifyClient hx (sorted rest messages)
      simp only [ClientStream.work, sorted, hResponses, List.length_cons] at hSorted
      rw [he, session_onSession]
      omega
    · have hBoth := work_modifyClient hx fun x => { sorted rest messages x with ended := true }
      simp only [ClientStream.work, sorted, hResponses, hOpen, List.length_cons, Bool.toNat_true,
        Bool.toNat_false, Bool.not_true, Bool.not_false] at hBoth
      have hSame : (m.session.modifyClient c (sorted rest messages)).modifyClient c
          (fun x => { x with ended := true }) = m.session.modifyClient c fun x =>
            { sorted rest messages x with ended := true } := by
        simp only [Session.modifyClient, List.modify_modify_eq]
        rfl
      rw [he, work_endClient, session_onSession, hSame]
      simp only [sorted]
      omega

theorem work_startRefusal? {k : RefusalId} (h : m.startRefusal? k = some m') :
    m'.session.work < m.session.work := by
  unfold startRefusal? at h
  split at h
  · next response hx =>
      cases h
      have hRefusals := sum_modify hx (fun x => { x with started := true }) Refusal.work
      simp only [Refusal.work, Bool.false_eq_true, if_false, if_true] at hRefusals
      simp only [session_onSession, Session.work, Session.beginSend, Outbound.work_enqueue, Envelope.work]
      omega
  · cases h

theorem work_finishSend (m : Machine M S) (t : Ticket) (result : SendResult) :
    (m.finishSend t result).session.work ≤ m.session.work + 1 := by
  obtain ⟨c, x, _, _, _, he⟩ | ⟨c, x, _, _, _, he⟩ | ⟨_, he⟩ := finishSend_cases m t result
  · have hCalls := sum_modify_le (l := m.session.calls) c (f := fun call => { call with
      state := .waiting (call.timeout.map fun d => m.now + d.nanos) }) (g := Call.work) (k := 1)
      (fun call => by simp [Call.work, CallState.isOver])
    rw [he]
    simp only [session_onSession, Session.work, Session.setSendState, Session.modifyCall] at hCalls ⊢
    omega
  · rw [he]
    exact Nat.le_succ_of_le (work_endCall_le _ c rfl)
  · rw [he]
    exact Nat.le_succ _

theorem work_advanceOutbound? {t : Ticket} (h : m.advanceOutbound? t = some m') :
    m'.session.work < m.session.work := by
  obtain ⟨outbound, ⟨hAdvance, rfl⟩ | ⟨result, hAdvance, rfl⟩⟩ := advanceOutbound?_cases h
  · have hLess := Outbound.work_advance hAdvance
    simp only [session_onSession, Session.work]
    omega
  · have hLess := Outbound.work_advance hAdvance
    have hEnd := work_finishSend (m.onSession fun s => { s with outbound }) t result
    simp only [session_onSession, Session.work] at hEnd ⊢
    omega

/-! ### What arrives, and the end -/

theorem work_closeOpenStreams (m : Machine M S) : m.closeOpenStreams.session.work = m.session.work := by
  rw [closeOpenStreams_session]
  rfl

theorem work_deliver (m : Machine M S) (r : Response) :
    (m.deliver r).session.work < m.session.work + 2 := by
  obtain ⟨c, _, he⟩ | ⟨c, _, he⟩ | ⟨_, he⟩ := deliver_cases m r
  · have hCalls := sum_modify_le (l := m.session.calls) c (f := fun x => { x with
      response := some r.content }) (g := Call.work) (k := 0) (fun x => Nat.le_refl _)
    rw [he]
    simp only [session_onSession, Session.work, Session.modifyCall] at hCalls ⊢
    omega
  · have hStreams := sum_modify_le (l := m.session.clientStreams) c (f := fun x => { x with
      responses := x.responses ++ [r.content] }) (g := ClientStream.work) (k := 1) (fun x => by
        simp only [ClientStream.work, List.length_append, List.length_singleton]
        omega)
    rw [he]
    simp only [session_onSession, Session.work, Session.modifyClient] at hStreams ⊢
    omega
  · rw [he, session_log]
    omega

theorem work_refuse (m : Machine M S) (id : Int32) (error : RemoteError) :
    (m.refuse id error).session.work = m.session.work + 7 := by
  simp only [refuse, session_onSession, Session.work, List.map_append, List.sum_append, List.map_cons,
    List.map_nil, List.sum_cons, List.sum_nil, Refusal.work, Bool.false_eq_true, if_false]
  omega

theorem work_handleCall (m : Machine M S) (r : Request) :
    (m.handleCall r).session.work < m.session.work + 8 := by
  obtain ⟨_, he⟩ | ⟨method, _, he⟩ := handleCall_cases m r
  · rw [he, work_refuse, session_log]
    omega
  · rw [he]
    exact Nat.lt_add_of_pos_right (by decide)

theorem work_handleStream (m : Machine M S) (r : Request) :
    (m.handleStream r).session.work < m.session.work + 8 := by
  obtain ⟨i, _, he⟩ | ⟨_, _, he⟩ | ⟨method, _, _, he⟩ := handleStream_cases m r
  · rw [he]
    exact Nat.lt_add_of_pos_right (by decide)
  · rw [he, work_refuse, session_log]
    omega
  · rw [he]
    exact Nat.lt_add_of_pos_right (by decide)

theorem work_handleStreamClose (m : Machine M S) (id : Int32) :
    (m.handleStreamClose id).session.work = m.session.work := by
  unfold handleStreamClose
  split
  · rw [session_onSession, closeServed_session]
    rfl
  · rfl

/-- What an envelope gives the session to do is less than it was counted for. -/
theorem work_receive? {e : Envelope} (h : m.receive? e = some m') :
    m'.session.work < m.session.work + e.work := by
  obtain ⟨_, _, rfl⟩ := receive?_eq_some h
  cases e with
  | request r =>
      simp only [handle, Envelope.work]
      split
      · exact work_handleStream m r
      · exact work_handleCall m r
  | response r => exact work_deliver m r
  | streamClose id =>
      simp only [handle, work_handleStreamClose, Envelope.work]
      omega
  | bye =>
      simp only [handle, work_closeOpenStreams, Envelope.work]
      omega
  | opening _ => exact Nat.lt_succ_self _
  | openingAck _ => exact Nat.lt_succ_self _

theorem work_stopConsuming? {exhausted : Bool} (h : m.stopConsuming? exhausted = some m') :
    m'.session.work < m.session.work := by
  obtain ⟨hConsuming, _, rfl⟩ := stopConsuming?_eq_some h
  have hStill : m.closeOpenStreams.session.consuming = true := by
    rw [closeOpenStreams_session]
    exact hConsuming
  have hSame := work_closeOpenStreams m
  simp only [session_onSession, session_cancel, Session.work, hConsuming, hStill, Bool.toNat_true,
    Bool.toNat_false] at hSame ⊢
  omega

theorem work_takeOutbound? {e : Envelope} (h : m.takeOutbound? = some (e, m')) :
    m.session.work = m'.session.work + e.work := by
  unfold takeOutbound? at h
  split at h
  · cases h
  · next outbound hTake =>
      cases h
      have hTaken := Outbound.work_take hTake
      simp only [session_onSession, Session.work]
      omega

theorem work_abandonOutbound (m : Machine M S) : m.abandonOutbound.session.work ≤ m.session.work := by
  have hLess := m.session.outbound.work_abandon
  simp only [abandonOutbound, session_onSession, Session.work]
  omega

/-! ### Sends that are under way are in the queue -/

/-- Every send that is neither over nor given up waits for its turn or for room. -/
def PendingQueued (s : Session M S) : Prop :=
  ∀ (t : Ticket) (x : Send), s.sends[t]? = some x → x.state = .pending → t ∈ s.outbound.tickets

theorem PendingQueued.giveUp {s : Session M S} (hQueued : PendingQueued s) (t : Ticket) :
    PendingQueued (s.giveUp t) := by
  unfold Session.giveUp
  split
  · exact hQueued
  · intro j x hx hPending
    simp only [Session.setSendState, List.getElem?_modify] at hx
    obtain ⟨old, hOld, rfl⟩ := Option.map_eq_some_iff.mp hx
    by_cases hj : t = j
    · rw [if_pos hj] at hPending
      cases hPending
    · rw [if_neg hj] at hPending
      simp only [Session.setSendState, Outbound.tickets_giveUp]
      exact List.mem_filter.mpr ⟨hQueued j old hOld hPending, by simpa using Ne.symm hj⟩

theorem PendingQueued.step (hQueued : PendingQueued m.session) (h : m.step? a = some m') :
    PendingQueued m'.session := by
  intro t x hx hPending
  cases step?_sends h with
  | kept sends outbound =>
      rw [outbound]
      exact hQueued t x (sends ▸ hx) hPending
  | began y e _ sends outbound =>
      rw [outbound, Outbound.tickets_enqueue]
      rw [sends] at hx
      rcases Nat.lt_or_ge t m.session.sends.length with hOld | hNew
      · rw [List.getElem?_append_left hOld] at hx
        exact List.mem_append_left _ (hQueued t x hx hPending)
      · have hLength := (List.getElem?_eq_some_iff.mp hx).1
        rw [List.length_append, List.length_singleton] at hLength
        have hLast : t = m.session.sends.length := Nat.le_antisymm (Nat.lt_succ_iff.mp hLength) hNew
        exact List.mem_append_right _ (List.mem_singleton.mpr hLast)
  | gaveUp u _ sends outbound =>
      rw [outbound]
      exact hQueued.giveUp u t x (sends ▸ hx) hPending
  | queued outbound _ _ advance next =>
      rw [next] at hx ⊢
      exact (Outbound.tickets_advance advance).symm.subset (hQueued t x hx hPending)
  | completed outbound u result _ advance next =>
      rw [next, finishSend_sends, session_onSession, List.getElem?_modify] at hx
      obtain ⟨old, hOld, rfl⟩ := Option.map_eq_some_iff.mp hx
      by_cases hu : u = t
      · rw [if_pos hu] at hPending
        cases hPending
      · rw [if_neg hu] at hPending
        have hTicket := (Outbound.tickets_complete advance).subset (hQueued t old hOld hPending)
        rw [next, finishSend_outbound]
        exact (List.mem_cons.mp hTicket).resolve_left (Ne.symm hu)
  | taken e outbound _ take next =>
      rw [next] at hx ⊢
      simp only [session_onSession, Outbound.tickets_take take]
      exact hQueued t x hx hPending
  | abandoned _ next =>
      rw [next] at hx ⊢
      exact hQueued t x hx hPending

theorem Life.pendingQueued {registry : Registry M S} {callTimeout : Option Duration} {capacity : Nat}
    {lifetime : LifetimeId} {past : History M S} {s : Session M S}
    (life : Life (Session.new registry callTimeout capacity lifetime) past s) : PendingQueued s := by
  induction life with
  | refl => exact fun t x hx => by simp [Session.new] at hx
  | step _ last ih => exact PendingQueued.step ih last

/-- A send is refused only when nobody takes envelopes any more. -/
def RefusedLate (s : Session M S) : Prop :=
  ∀ x ∈ s.sends, x.state = .done .refused → s.outbound.abandoned = true

theorem RefusedLate.giveUp {s : Session M S} (hLate : RefusedLate s) (t : Ticket) :
    RefusedLate (s.giveUp t) := by
  unfold Session.giveUp
  split
  · exact hLate
  · intro x hx hRefused
    obtain ⟨j, hj⟩ := List.mem_iff_getElem?.mp hx
    simp only [Session.setSendState, List.getElem?_modify] at hj
    obtain ⟨old, hOld, rfl⟩ := Option.map_eq_some_iff.mp hj
    by_cases htj : t = j
    · rw [if_pos htj] at hRefused
      cases hRefused
    · rw [if_neg htj] at hRefused
      exact hLate old (List.mem_of_getElem? hOld) hRefused

theorem RefusedLate.step (hLate : RefusedLate m.session) (h : m.step? a = some m') :
    RefusedLate m'.session := by
  intro x hx hRefused
  cases step?_sends h with
  | kept sends outbound =>
      rw [outbound]
      exact hLate x (sends ▸ hx) hRefused
  | began y e _ sends outbound =>
      rw [sends, List.mem_append, List.mem_singleton] at hx
      rw [outbound]
      rcases hx with hx | rfl
      · exact hLate x hx hRefused
      · cases hRefused
  | gaveUp u _ sends outbound =>
      rw [outbound]
      exact hLate.giveUp u x (sends ▸ hx) hRefused
  | queued outbound _ _ advance next =>
      rw [next] at hx ⊢
      cases Outbound.advance?_cases advance with
      | filled => exact hLate x hx hRefused
  | completed outbound u result _ advance next =>
      rw [next, finishSend_outbound]
      rw [next, finishSend_sends] at hx
      obtain ⟨j, hj⟩ := List.mem_iff_getElem?.mp hx
      rw [List.getElem?_modify] at hj
      obtain ⟨old, hOld, rfl⟩ := Option.map_eq_some_iff.mp hj
      by_cases huj : u = j
      · rw [if_pos huj] at hRefused
        cases hRefused
        cases Outbound.advance?_cases advance with
        | refused _ _ _ _ _ abandoned => exact abandoned
      · rw [if_neg huj] at hRefused
        have hBefore := hLate old (List.mem_of_getElem? hOld) hRefused
        cases Outbound.advance?_cases advance with
        | _ => exact hBefore
  | taken e outbound _ take next =>
      obtain ⟨rest, _, rfl⟩ := Outbound.take?_eq_some take
      rw [next] at hx ⊢
      exact hLate x hx hRefused
  | abandoned _ next =>
      rw [next]
      rfl

theorem Life.refusedLate {registry : Registry M S} {callTimeout : Option Duration} {capacity : Nat}
    {lifetime : LifetimeId} {past : History M S} {s : Session M S}
    (life : Life (Session.new registry callTimeout capacity lifetime) past s) : RefusedLate s := by
  induction life with
  | refl => exact fun x hx => by simp [Session.new] at hx
  | step _ last ih => exact RefusedLate.step ih last

end Machine

end PeerLink

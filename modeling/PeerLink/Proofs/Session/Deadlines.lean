import PeerLink.Proofs.Session.Growth
import PeerLink.Proofs.Session.Shared
import PeerLink.Proofs.Session.Tickets

/-! When calls time out. The time of a call runs from the moment at which its request is queued, and its
lifetime is looked at from then on. So a call is safe from a transport that stalls only once its request
has got past it: before that the call waits for as long as the queue is full. -/
namespace PeerLink

variable {M S : Type}

/-- A queue whose senders cannot go on has no room. -/
theorem Outbound.isFull_of_stuck {o : Outbound} (h : ∀ t, o.advance? t = none) {t : Ticket}
    (ht : t ∈ o.tickets) : o.isFull = true ∧ o.abandoned = false := by
  have hTurn : ∃ u, o.flushing = some u ∨ o.flushing = none ∧ u ∈ o.waiting.map Prod.fst := by
    cases hFlushing : o.flushing with
    | some u => exact ⟨u, .inl rfl⟩
    | none => exact ⟨t, .inr ⟨rfl, by simpa [tickets, hFlushing] using ht⟩⟩
  obtain ⟨u, hu⟩ := hTurn
  have hStuck : ¬ (o.abandoned = true ∨ o.isFull = false) := fun hReady =>
    advance?_ne_none_iff.mpr ⟨hReady, hu⟩ (h u)
  simpa [and_comm] using hStuck

/-- The two have the same options. -/
structure Call.SameOptions (x y : Call) : Prop where
  timeout : y.timeout = x.timeout
  lifetime : y.lifetime = x.lifetime

theorem Call.SameOptions.refl (x : Call) : x.SameOptions x := ⟨rfl, rfl⟩

theorem Call.SameOptions.trans (x y z : Call) (h : x.SameOptions y) (h' : y.SameOptions z) :
    x.SameOptions z :=
  ⟨h'.timeout.trans h.timeout, h'.lifetime.trans h.lifetime⟩

namespace Machine

variable {m m' : Machine M S} {a : Action} {past : History M S}

/-- Who sent it, if a send is accepted when its sender goes on. -/
def accepts? (m : Machine M S) (t : Ticket) : Option Sender :=
  match m.session.outbound.advance? t with
  | some (_, some .accepted) => m.session.sends[t]?.map Send.sender
  | _ => none

/-- When the request of a call was queued. -/
def History.queuedAt (past : History M S) (c : CallId) : List Nat :=
  past.filterMap fun x => match x.2 with
    | .advance t => if x.1.accepts? t = some (.call c) then some x.1.now else none
    | _ => none

theorem accepts?_eq_some {t : Ticket} {x : Sender} : m.accepts? t = some x ↔
    ∃ outbound send, m.session.outbound.advance? t = some (outbound, some .accepted) ∧
      m.session.sends[t]? = some send ∧ send.sender = x := by
  unfold accepts?
  split
  · next outbound hAdvance =>
      rw [Option.map_eq_some_iff]
      constructor
      · rintro ⟨send, hSend, hSender⟩
        exact ⟨outbound, send, hAdvance, hSend, hSender⟩
      · rintro ⟨_, send, _, hSend, hSender⟩
        exact ⟨send, hSend, hSender⟩
  · next hOther =>
      constructor
      · exact nofun
      · rintro ⟨outbound, _, hAdvance, _⟩
        exact absurd hAdvance (hOther outbound)

theorem History.queuedAt_append (c : CallId) : History.queuedAt (past ++ [(m, a)]) c =
    History.queuedAt past c ++ History.queuedAt [(m, a)] c :=
  List.filterMap_append

theorem History.queuedAt_single (c : CallId) :
    (∃ t, a = .advance t ∧ m.accepts? t = some (.call c) ∧ History.queuedAt [(m, a)] c = [m.now]) ∨
      (∀ t, a = .advance t → m.accepts? t ≠ some (.call c)) ∧ History.queuedAt [(m, a)] c = [] := by
  cases a with
  | advance t =>
      by_cases hAccepts : m.accepts? t = some (.call c)
      · exact .inl ⟨t, rfl, hAccepts, by simp [History.queuedAt, hAccepts]⟩
      · refine .inr ⟨fun u hu => ?_, by simp [History.queuedAt, hAccepts]⟩
        cases hu
        exact hAccepts
  | _ => exact .inr ⟨nofun, rfl⟩

/-- A call whose request is being queued now is one that waits for just that. -/
theorem Tracked.accepts (hTracked : Tracked m.session) {t : Ticket} {c : CallId}
    (h : m.accepts? t = some (.call c)) :
    ∃ call, m.session.calls[c]? = some call ∧ call.state = .sending t := by
  obtain ⟨outbound, send, hAdvance, hSend, hSender⟩ := accepts?_eq_some.mp h
  exact hTracked.advancing hAdvance hSend hSender

/-! ### What becomes of a call -/

/-- Where the record of a call comes from: it was made now, or it was there and has changed like this. -/
inductive CallStep (m : Machine M S) (a : Action) (c : CallId) (call : Call) : Prop where
  | made (method : String) (payload : Payload) (timeout : Option Duration)
      (cause : a = .call method payload timeout call.lifetime)
      (new : c = m.session.calls.length) (effective : call.timeout = timeout.or m.session.callTimeout)
      (state : call.state = .sending m.session.sends.length)
  | kept (before : Call) (found : m.session.calls[c]? = some before) (same : before.SameOptions call)
      (state : call.state = before.state)
  | ended (before : Call) (found : m.session.calls[c]? = some before) (same : before.SameOptions call)
      (state : call.state.isOver = true)
  | queued (before : Call) (found : m.session.calls[c]? = some before)
      (same : before.SameOptions call) {t : Ticket} (cause : a = .advance t)
      (accepts : m.accepts? t = some (.call c))
      (state : call.state = .waiting (call.timeout.map fun d => m.now + d.nanos))

theorem CallStep.same {c : CallId} {call : Call} (h : m.session.calls[c]? = some call) :
    m.CallStep a c call :=
  .kept call h (.refl call) rfl

theorem step?_callStep (h : m.step? a = some m') {c : CallId} {call : Call}
    (hCall : m'.session.calls[c]? = some call) : m.CallStep a c call := by
  cases step?_owners h with
  | kept calls => exact .same (calls ▸ hCall)
  | opened _ _ _ _ calls => exact .same (calls ▸ hCall)
  | passed _ _ _ calls => exact .same (calls ▸ hCall)
  | streamOver _ _ _ _ _ _ _ calls => exact .same (calls ▸ hCall)
  | started _ method payload timeout lifetime cause _ calls =>
      rw [calls] at hCall
      obtain hCall | ⟨rfl, rfl⟩ := getElem?_concat_eq_some hCall
      · exact .same hCall
      · exact .made method payload timeout cause rfl rfl rfl
  | callOver c' call' state _ cause calls =>
      rw [calls] at hCall
      obtain ⟨_, hCall⟩ | ⟨rfl, x, hx, rfl⟩ := getElem?_modify_eq_some hCall
      · exact .same hCall
      · exact .ended x hx ⟨rfl, rfl⟩ (by cases cause <;> rfl)
  | waits c' outbound t send cause advance found sender calls =>
      rw [calls] at hCall
      obtain ⟨_, hCall⟩ | ⟨rfl, x, hx, rfl⟩ := getElem?_modify_eq_some hCall
      · exact .same hCall
      · exact .queued x hx ⟨rfl, rfl⟩ cause
          (accepts?_eq_some.mpr ⟨outbound, send, advance, found, sender⟩) rfl
  | answered c' _ _ _ calls =>
      rw [calls] at hCall
      obtain ⟨_, hCall⟩ | ⟨rfl, x, hx, rfl⟩ := getElem?_modify_eq_some hCall
      · exact .same hCall
      · exact .kept x hx ⟨rfl, rfl⟩ rfl

theorem step?_options (h : m.step? a = some m') :
    Retained Call.SameOptions m.session.calls m'.session.calls := by
  intro c x hx
  obtain ⟨y, hy, _⟩ := step?_calls h c x hx
  refine ⟨y, hy, ?_⟩
  have hFound : ∀ before : Call, m.session.calls[c]? = some before → before.SameOptions y →
      x.SameOptions y := fun before found same => by
    rw [hx] at found
    cases found
    exact same
  cases step?_callStep h hy with
  | made _ _ _ _ new _ _ =>
      subst new
      exact absurd (List.getElem?_eq_some_iff.mp hx).1 (Nat.lt_irrefl _)
  | kept before found same _ => exact hFound before found same
  | ended before found same _ => exact hFound before found same
  | queued before found same _ _ _ => exact hFound before found same

theorem Life.options {start s : Session M S} (life : Life start past s) :
    Retained Call.SameOptions start.calls s.calls := by
  induction life with
  | refl => exact .refl Call.SameOptions.refl _
  | step _ last ih => exact ih.trans Call.SameOptions.trans (step?_options last)

theorem Life.callTimeout {start s : Session M S} (life : Life start past s) :
    s.callTimeout = start.callTimeout := by
  induction life with
  | refl => rfl
  | @step past s host a m' _ last ih =>
      rw [step?_frame last, ← ih]
      cases a with
      | receive e => cases e <;> rfl
      | _ => rfl

/-! ### Requests that are not queued -/

/-- A call whose request is not queued has its send under way. -/
def SendsHeld (s : Session M S) : Prop :=
  ∀ (c : CallId) (call : Call) (t : Ticket), s.calls[c]? = some call → call.state = .sending t →
    t ∈ s.outbound.tickets ∧ ∃ x, s.sends[t]? = some x ∧ x.sender = .call c

/-- A send leaves the queue because it ends, because somebody stops waiting for it, or together with its
call. -/
theorem step?_ticket_kept (h : m.step? a = some m') {t : Ticket}
    (ht : t ∈ m.session.outbound.tickets) :
    t ∈ m'.session.outbound.tickets ∨
      (∃ outbound result, a = .advance t ∧
        m.session.outbound.advance? t = some (outbound, some result)) ∨
      (∃ x, m.session.sends[t]? = some x ∧ x.sender.canGiveUp = true) ∨
      ∃ c call, a = .dropCall c ∧ m.session.calls[c]? = some call ∧ call.state = .sending t := by
  cases step?_sends h with
  | kept _ outbound => exact .inl (outbound ▸ ht)
  | began x e _ _ outbound =>
      rw [outbound, Outbound.tickets_enqueue]
      exact .inl (List.mem_append_left _ ht)
  | gaveUp u cause _ outbound =>
      by_cases hu : t = u
      · subst hu
        exact .inr (.inr cause)
      · left
        rw [outbound, Session.giveUp]
        split
        · exact ht
        · simp only [Session.setSendState, Outbound.tickets_giveUp]
          exact List.mem_filter.mpr ⟨ht, by simp [hu]⟩
  | queued outbound _ _ advance next =>
      rw [next]
      exact .inl ((Outbound.tickets_advance advance).symm.subset ht)
  | completed outbound u result cause advance next =>
      rcases List.mem_cons.mp ((Outbound.tickets_complete advance).subset ht) with rfl | ht
      · exact .inr (.inl ⟨outbound, result, cause, advance⟩)
      · rw [next, finishSend_outbound]
        exact .inl ht
  | taken e outbound _ take next =>
      rw [next]
      exact .inl (Outbound.tickets_take take ▸ ht)
  | abandoned _ next =>
      rw [next]
      exact .inl ht

/-- Once the send of its request has ended, a call no longer waits for that. -/
theorem advance_calls {outbound : Outbound} {t : Ticket} {result : SendResult} {x : Send}
    {c : CallId} (h : m.step? (.advance t) = some m')
    (advance : m.session.outbound.advance? t = some (outbound, some result))
    (found : m.session.sends[t]? = some x) (sender : x.sender = .call c) {call : Call}
    (hCall : m'.session.calls[c]? = some call) (u : Ticket) : call.state ≠ .sending u := by
  obtain ⟨o, ⟨hAdvance, _⟩ | ⟨result', hAdvance, rfl⟩⟩ := advanceOutbound?_cases h
  · rw [advance] at hAdvance
    cases hAdvance
  · rw [advance] at hAdvance
    cases hAdvance
    obtain ⟨c', y, hy, hSender, _, he⟩ | ⟨c', y, hy, hSender, _, he⟩ | ⟨hNone, _⟩ :=
      finishSend_cases (m.onSession fun s => { s with outbound }) t result
    · obtain rfl : y = x := Option.some.inj (hy.symm.trans found)
      obtain rfl : c' = c := Sender.call.inj (hSender.symm.trans sender)
      rw [he] at hCall
      obtain ⟨hne, _⟩ | ⟨_, z, _, rfl⟩ := getElem?_modify_eq_some hCall
      · exact absurd rfl hne
      · exact nofun
    · obtain rfl : y = x := Option.some.inj (hy.symm.trans found)
      obtain rfl : c' = c := Sender.call.inj (hSender.symm.trans sender)
      rw [he, endCall_calls] at hCall
      obtain ⟨hne, _⟩ | ⟨_, z, _, rfl⟩ := getElem?_modify_eq_some hCall
      · exact absurd rfl hne
      · exact nofun
    · exact absurd sender (hNone x found c)

/-- A call that is dropped before its request is queued is over. -/
theorem dropCall_calls {c : CallId} {call : Call} {t : Ticket}
    (found : m.session.calls[c]? = some call) (state : call.state = .sending t) :
    (m.dropCall c).session.calls =
      m.session.calls.modify c fun x => { x with state := .dropped } := by
  simp only [dropCall, found, state]
  rw [endCall_calls, session_onSession, giveUp_session]

theorem SendsHeld.step (hHeld : SendsHeld m.session) (h : m.step? a = some m') :
    SendsHeld m'.session := by
  intro c call t hCall hState
  have hOld : ∀ before : Call, m.session.calls[c]? = some before → before.state = .sending t →
      t ∈ m'.session.outbound.tickets ∧ ∃ x, m'.session.sends[t]? = some x ∧ x.sender = .call c := by
    intro before hBefore hSending
    obtain ⟨hTicket, x, hx, hSender⟩ := hHeld c before t hBefore hSending
    obtain ⟨y, hy, hKeeps⟩ := step?_sends_retained h t x hx
    refine ⟨?_, y, hy, hKeeps.sender.trans hSender⟩
    obtain hKept | ⟨outbound, result, rfl, hAdvance⟩ | ⟨z, hz, hCan⟩ | ⟨c', other, rfl, hOther, hAlso⟩ :=
      step?_ticket_kept h hTicket
    · exact hKept
    · exact absurd hState (advance_calls h hAdvance hx hSender hCall t)
    · rw [hx] at hz
      cases hz
      rw [hSender] at hCan
      cases hCan
    · obtain ⟨_, z, hz, hSame⟩ := hHeld c' other t hOther hAlso
      rw [hx] at hz
      cases hz
      rw [hSender] at hSame
      cases hSame
      cases h
      rw [dropCall_calls hOther hAlso] at hCall
      obtain ⟨hne, _⟩ | ⟨_, y, _, rfl⟩ := getElem?_modify_eq_some hCall
      · exact absurd rfl hne
      · cases hState
  cases step?_callStep h hCall with
  | made method payload timeout cause new effective state =>
      rw [hState] at state
      cases state
      subst cause new
      obtain ⟨_, rfl⟩ := step?_call_eq_some h
      simp [Session.beginSend, Session.allocate, Session.nextTicket, Outbound.tickets_enqueue]
  | kept before found _ state => exact hOld before found (state ▸ hState)
  | ended before found _ state =>
      rw [hState] at state
      cases state
  | queued before found _ _ _ state =>
      rw [hState] at state
      cases state

theorem Life.sendsHeld {start s : Session M S} (hStart : SendsHeld start)
    (life : Life start past s) : SendsHeld s := by
  induction life with
  | refl => exact hStart
  | step _ last ih => exact SendsHeld.step ih last

/-! ### Requests that were queued -/

/-- What the calls know of the times at which their requests were queued. -/
structure Timed (past : History M S) (s : Session M S) : Prop where
  unqueued : ∀ (c : CallId) (call : Call) (t : Ticket), s.calls[c]? = some call →
    call.state = .sending t → History.queuedAt past c = []
  waiting : ∀ (c : CallId) (call : Call) (deadline? : Option Nat), s.calls[c]? = some call →
    call.state = .waiting deadline? → ∃ time, History.queuedAt past c = [time] ∧
      deadline? = call.timeout.map fun d => time + d.nanos
  known : ∀ (c : CallId) (time : Nat), time ∈ History.queuedAt past c → c < s.calls.length

theorem Timed.unknown (hTimed : Timed past m.session) {c : CallId}
    (h : m.session.calls.length ≤ c) : History.queuedAt past c = [] :=
  List.eq_nil_iff_forall_not_mem.mpr fun time hTime =>
    Nat.not_lt_of_le h (hTimed.known c time hTime)

theorem Timed.step (hTimed : Timed past m.session) (hTracked : Tracked m.session)
    (h : m.step? a = some m') : Timed (past ++ [(m, a)]) m'.session := by
  refine ⟨fun c call t hCall hState => ?_, fun c call deadline? hCall hState => ?_,
    fun c time hTime => ?_⟩
  · rw [History.queuedAt_append]
    obtain ⟨u, rfl, hAccepts, _⟩ | ⟨_, hNone⟩ := History.queuedAt_single (m := m) (a := a) c
    · obtain ⟨outbound, send, hAdvance, hSend, hSender⟩ := accepts?_eq_some.mp hAccepts
      exact absurd hState (advance_calls h hAdvance hSend hSender hCall t)
    · rw [hNone, List.append_nil]
      cases step?_callStep h hCall with
      | made _ _ _ _ new _ _ => exact hTimed.unknown (Nat.le_of_eq new.symm)
      | kept before found _ state => exact hTimed.unqueued c before t found (state ▸ hState)
      | ended _ _ _ state =>
          rw [hState] at state
          cases state
      | queued _ _ _ _ _ state =>
          rw [hState] at state
          cases state
  · rw [History.queuedAt_append]
    cases step?_callStep h hCall with
    | made _ _ _ _ _ _ state =>
        rw [hState] at state
        cases state
    | ended _ _ _ state =>
        rw [hState] at state
        cases state
    | kept before found same state =>
        obtain ⟨time, hTime, hDeadline⟩ := hTimed.waiting c before deadline? found (state ▸ hState)
        obtain ⟨u, rfl, hAccepts, _⟩ | ⟨_, hNone⟩ := History.queuedAt_single (m := m) (a := a) c
        · obtain ⟨other, hOther, hSending⟩ := hTracked.accepts hAccepts
          rw [found] at hOther
          cases hOther
          rw [hState, hSending] at state
          cases state
        · exact ⟨time, by rw [hTime, hNone, List.append_nil], same.timeout ▸ hDeadline⟩
    | queued before found same cause accepts state =>
        obtain ⟨other, hOther, hSending⟩ := hTracked.accepts accepts
        obtain ⟨_, _, _, hNow⟩ | ⟨hNot, _⟩ := History.queuedAt_single (m := m) (a := a) c
        · rw [hTimed.unqueued c other _ hOther hSending, hNow]
          rw [hState] at state
          exact ⟨m.now, rfl, CallState.waiting.inj state⟩
        · exact absurd accepts (hNot _ cause)
  · have hLength := (step?_calls h).length_le
    rw [History.queuedAt_append] at hTime
    rcases List.mem_append.mp hTime with hTime | hTime
    · exact Nat.lt_of_lt_of_le (hTimed.known c time hTime) hLength
    · obtain ⟨_, _, hAccepts, _⟩ | ⟨_, hNone⟩ := History.queuedAt_single (m := m) (a := a) c
      · obtain ⟨call, hCall, _⟩ := hTracked.accepts hAccepts
        exact Nat.lt_of_lt_of_le (List.getElem?_eq_some_iff.mp hCall).1 hLength
      · rw [hNone] at hTime
        cases hTime

theorem timed_new (registry : Registry M S) (callTimeout : Option Duration) (capacity : Nat)
    (lifetime : LifetimeId) : Timed [] (Session.new registry callTimeout capacity lifetime) where
  unqueued c call t hCall := by simp [Session.new] at hCall
  waiting c call deadline? hCall := by simp [Session.new] at hCall
  known c time hTime := by simp [History.queuedAt] at hTime

theorem Life.timed {registry : Registry M S} {callTimeout : Option Duration} {capacity : Nat}
    {lifetime : LifetimeId} {s : Session M S}
    (life : Life (Session.new registry callTimeout capacity lifetime) past s) : Timed past s := by
  induction life with
  | refl => exact timed_new registry callTimeout capacity lifetime
  | step prior last ih => exact Timed.step ih (prior.tracked (tracked_new _ _ _ _)) last

/-- Time never goes back. -/
theorem Execution.now_le {start : Machine M S} (exec : Execution start past m) :
    start.now ≤ m.now ∧ ∀ x ∈ past, start.now ≤ x.1.now := by
  induction exec with
  | refl => exact ⟨Nat.le_refl _, fun x hx => absurd hx List.not_mem_nil⟩
  | step _ last ih =>
      rw [(step?_shared last).1]
      refine ⟨Nat.le_add_right_of_le ih.1, fun x hx => ?_⟩
      rcases List.mem_append.mp hx with hx | hx
      · exact ih.2 x hx
      · rw [List.mem_singleton.mp hx]
        exact ih.1

theorem History.mem_queuedAt {c : CallId} {time : Nat} (h : time ∈ History.queuedAt past c) :
    ∃ x ∈ past, time = x.1.now := by
  obtain ⟨⟨q, a⟩, hMem, hx⟩ := List.mem_filterMap.mp h
  refine ⟨(q, a), hMem, ?_⟩
  cases a with
  | advance =>
      dsimp only at hx
      split at hx
      · exact (Option.some.inj hx).symm
      · cases hx
  | _ => cases hx

/-- A request is queued when its call has been made, and not before. -/
theorem Execution.queuedAt_ge {host : Host} {registry : Registry M S}
    {callTimeout : Option Duration} {capacity : Nat} {before after : History M S} {q : Machine M S}
    (exec : Execution (Machine.new host registry callTimeout capacity) (before ++ (q, a) :: after) m)
    {time : Nat}
    (h : time ∈ History.queuedAt (before ++ (q, a) :: after) q.session.calls.length) :
    q.now ≤ time := by
  obtain ⟨hBefore, q', hStep, hAfter⟩ := exec.split
  obtain ⟨x, hMem, rfl⟩ : ∃ x ∈ (q, a) :: after, time = x.1.now := by
    rw [History.queuedAt, List.filterMap_append, ← History.queuedAt,
      hBefore.life.timed.unknown (Nat.le_refl _), List.nil_append] at h
    exact History.mem_queuedAt h
  rcases List.mem_cons.mp hMem with rfl | hMem
  · exact Nat.le_refl _
  · exact Nat.le_trans (((step?_shared hStep).1 ▸ Nat.le_add_right _ _)) (hAfter.now_le.2 x hMem)

/-- The record of a call keeps the options with which the call was made. -/
theorem Execution.call_options {host : Host} {registry : Registry M S}
    {callTimeout : Option Duration} {capacity : Nat} {before after : History M S} {q : Machine M S}
    {method : String} {payload : Payload} {timeout : Option Duration} {lifetime : Option LifetimeId}
    (exec : Execution (Machine.new host registry callTimeout capacity)
      (before ++ (q, .call method payload timeout lifetime) :: after) m) :
    ∃ call, m.session.calls[q.session.calls.length]? = some call ∧
      call.timeout = timeout.or callTimeout ∧ call.lifetime = lifetime := by
  obtain ⟨hBefore, q', hStep, hAfter⟩ := exec.split
  have hDefault : q.session.callTimeout = callTimeout := hBefore.life.callTimeout
  obtain ⟨_, rfl⟩ := step?_call_eq_some hStep
  obtain ⟨call, hCall, hSame⟩ := hAfter.life.options _ _ List.getElem?_concat_length
  refine ⟨call, hCall, ?_, hSame.lifetime⟩
  rw [hSame.timeout, ← hDefault]

/-- A call that waits in a settled state has a lifetime that lasts and a deadline that is still to come. -/
theorem Settled.waiting (hSettled : m.Settled) {c : CallId} {call : Call} {deadline? : Option Nat}
    (hCall : m.session.calls[c]? = some call) (hState : call.state = .waiting deadline?) :
    (∀ l, call.lifetime = some l → m.isCancelled l = false) ∧
      ∀ deadline, deadline? = some deadline → m.now < deadline := by
  have hPoll := hSettled.calls c
  simp only [pollCall?, hCall, hState] at hPoll
  split at hPoll
  · cases hPoll
  · split at hPoll
    · cases hPoll
    · split at hPoll
      · cases hPoll
      · next hLifetime =>
          split at hPoll
          · cases hPoll
          · next hDeadline =>
              refine ⟨fun l hl => ?_, fun deadline hd => ?_⟩
              · rw [hl] at hLifetime
                exact Bool.eq_false_iff.mpr hLifetime
              · rw [hd] at hDeadline
                simpa using hDeadline

/-- Calls keep to their deadlines from the moment at which their request is queued. A settled session has
no call that is past its time counted from there, or whose lifetime is cancelled, and that still waits. A
request that was never queued is behind a queue that is full, and then the call may wait for ever. -/
theorem call_over_after_deadline {host : Host} {registry : Registry M S}
    {callTimeout : Option Duration} {capacity : Nat} {before after : History M S} {q : Machine M S}
    {method : String} {payload : Payload} {timeout : Option Duration} {lifetime : Option LifetimeId}
    (exec : Execution (Machine.new host registry callTimeout capacity)
      (before ++ (q, .call method payload timeout lifetime) :: after) m)
    (hSettled : m.Settled) :
    ∃ call, m.session.calls[q.session.calls.length]? = some call ∧
      (∀ time ∈ History.queuedAt (before ++ (q, .call method payload timeout lifetime) :: after)
          q.session.calls.length,
        q.now ≤ time ∧
        ((∃ d, timeout.or callTimeout = some d ∧ time + d.nanos ≤ m.now) ∨
          (∃ l, lifetime = some l ∧ m.isCancelled l = true) → call.state.isOver = true)) ∧
      (History.queuedAt (before ++ (q, .call method payload timeout lifetime) :: after)
          q.session.calls.length = [] →
        call.state.isOver = true ∨
          (∃ t, call.state = .sending t ∧ t ∈ m.session.outbound.tickets) ∧
            m.session.outbound.isFull = true ∧ m.session.outbound.abandoned = false) := by
  obtain ⟨call, hCall, hTimeout, hLifetime⟩ := exec.call_options
  have hTimed := exec.life.timed
  have hHeld := exec.life.sendsHeld fun c call t h => by simp [Machine.new, Session.new] at h
  refine ⟨call, hCall, fun time hTime => ⟨exec.queuedAt_ge hTime, fun hDue => ?_⟩, fun hNever => ?_⟩
  · cases hState : call.state with
    | returned _ => rfl
    | dropped => rfl
    | sending t =>
        rw [hTimed.unqueued _ call t hCall hState] at hTime
        cases hTime
    | waiting deadline? =>
        obtain ⟨at', hAt, hDeadline⟩ := hTimed.waiting _ call deadline? hCall hState
        rw [hAt] at hTime
        obtain rfl := List.mem_singleton.mp hTime
        obtain ⟨hLive, hEarly⟩ := hSettled.waiting hCall hState
        rcases hDue with ⟨d, hd, hLate⟩ | ⟨l, hl, hCancelled⟩
        · have hSoon := hEarly (time + d.nanos) (by rw [hDeadline, hTimeout, hd]; rfl)
          omega
        · rw [hLive l (hLifetime.trans hl)] at hCancelled
          cases hCancelled
  · cases hState : call.state with
    | returned _ => exact .inl rfl
    | dropped => exact .inl rfl
    | sending t =>
        obtain ⟨hTicket, _⟩ := hHeld _ call t hCall hState
        have hStuck : ∀ u, m.session.outbound.advance? u = none := fun u =>
          advanceOutbound?_eq_none_iff.mp (hSettled.outbound u)
        exact .inr ⟨⟨t, rfl, hTicket⟩, Outbound.isFull_of_stuck hStuck hTicket⟩
    | waiting deadline? =>
        obtain ⟨time, hTime, _⟩ := hTimed.waiting _ call deadline? hCall hState
        rw [hNever] at hTime
        cases hTime

/-- The queue of the transport has no room. A call with a timeout of 20 is made at once, its request gets
through after 5, and at 25 the call is over. -/
theorem call_over_after_deadline_of_late : ∃ (before after : History Unit Unit)
    (q m : Machine Unit Unit) (call : Call),
    Execution (Machine.new (Host.new false) Registry.empty none 0)
      (before ++ (q, .call "A.b" (.ofValue []) (some ⟨20⟩) none) :: after) m ∧
    m.Settled ∧ q.now = 0 ∧ m.now = 25 ∧
    History.queuedAt (before ++ (q, .call "A.b" (.ofValue []) (some ⟨20⟩) none) :: after)
      q.session.calls.length = [5] ∧
    m.session.calls[q.session.calls.length]? = some call ∧ call.state.isOver = true := by
  let made : Action := .call "A.b" (.ofValue []) (some ⟨20⟩) none
  let rest : List Action := [.advance 0, .tick ⟨5⟩, .take, .advance 0, .tick ⟨20⟩, .pollCall 0]
  have hPlay : ((Machine.new (Host.new false) (Registry.empty : Registry Unit Unit) none 0).play
      ([] ++ made :: rest)).map (fun x => (x.2.isSettled, x.2.now, History.queuedAt x.1 0)) =
        some (true, 25, [5]) := by decide +kernel
  obtain ⟨⟨past, m⟩, hRun, hFacts⟩ := Option.map_eq_some_iff.mp hPlay
  simp only [Prod.mk.injEq] at hFacts
  obtain ⟨hSettled, hNow, hQueued⟩ := hFacts
  have exec := Execution.refl.play hRun
  rw [List.nil_append] at exec
  obtain ⟨before, q, after, hq, rfl⟩ := play_at hRun
  obtain ⟨rfl, rfl⟩ := Prod.mk.inj (Option.some.inj hq)
  obtain ⟨call, hCall, hOver, _⟩ := call_over_after_deadline exec (isSettled_iff.mp hSettled)
  refine ⟨_, after, _, m, call, exec, isSettled_iff.mp hSettled, rfl, hNow, hQueued, hCall, ?_⟩
  exact (hOver 5 (hQueued ▸ List.mem_singleton.mpr rfl)).2 (.inl ⟨⟨20⟩, rfl, Nat.le_of_eq hNow.symm⟩)

/-- The queue of the transport has no room and stays that way. The timeout of a call is long over and its
lifetime is cancelled, but the call waits, and nothing in the session moves. -/
theorem call_waits_past_deadline : ∃ (before after : History Unit Unit)
    (q m : Machine Unit Unit) (call : Call),
    Execution (Machine.new (Host.new false) Registry.empty none 0)
      (before ++ (q, .call "A.b" (.ofValue []) (some ⟨20⟩) (some 1)) :: after) m ∧
    m.Settled ∧ q.now + 20 ≤ m.now ∧ m.isCancelled 1 = true ∧
    m.session.calls[q.session.calls.length]? = some call ∧ call.state.isOver = false := by
  let made : Action := .call "A.b" (.ofValue []) (some ⟨20⟩) (some 1)
  have hPlay : ((Machine.new (Host.new false) (Registry.empty : Registry Unit Unit) none 0).play
      ([.addLifetime none] ++ made :: [.advance 0, .tick ⟨50⟩, .cancel 1])).map
      (fun x => (x.2.isSettled, x.2.now, x.2.isCancelled 1,
        x.2.session.calls.map fun call => call.state.isOver)) =
        some (true, 50, true, [false]) := by decide +kernel
  have hFirst : ((Machine.new (Host.new false) (Registry.empty : Registry Unit Unit) none 0).play
      [.addLifetime none]).map (fun x => (x.2.now, x.2.session.calls.length)) = some (0, 0) := by
    decide +kernel
  obtain ⟨⟨past, m⟩, hRun, hFacts⟩ := Option.map_eq_some_iff.mp hPlay
  simp only [Prod.mk.injEq] at hFacts
  obtain ⟨hSettled, hNow, hCancelled, hOver⟩ := hFacts
  have exec := Execution.refl.play hRun
  rw [List.nil_append] at exec
  obtain ⟨before, q, after, hq, rfl⟩ := play_at hRun
  simp only [hq, Option.map_some, Option.some.injEq, Prod.mk.injEq] at hFirst
  obtain ⟨hStart, hLength⟩ := hFirst
  obtain ⟨call, hCall, hWaits⟩ : ∃ call, m.session.calls[0]? = some call ∧
      call.state.isOver = false := by
    have hHead := congrArg (fun l => l[0]?) hOver
    simpa using hHead
  exact ⟨before, after, q, m, call, exec, isSettled_iff.mp hSettled, by omega, hCancelled,
    by rw [hLength, hCall], hWaits⟩

end Machine

end PeerLink

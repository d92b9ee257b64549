import PeerLink.Proofs.Session.Closing
import PeerLink.Proofs.Session.FirstResponse

/-! When a call may be made again. A call that returns with the error that the session is closed has had its
request refused by the queue, so no such request has left the session, and none will
(`closed_call_unsent`). A request that is in the queue is never refused, and while a call waits its slot is
not lost, so the error has no other cause. -/
namespace PeerLink

variable {M S : Type}

/-- A request that was sent bears the id of its owner. -/
theorem Explained.owner {s : Session M S} {z : Sender} {r : Request} (h : Explained s z (.request r)) :
    (∃ c, z = .call c ∧ s.idOf? (.call c) = some r.id) ∨ ∃ c, s.idOf? (.stream c) = some r.id := by
  cases h with
  | call payload found => exact .inl ⟨_, rfl, by rw [Session.idOf?, found]; rfl⟩
  | message payload found => exact .inr ⟨_, by rw [Session.idOf?, found]; rfl⟩

namespace Machine

variable {m m' : Machine M S} {a : Action} {past : History M S} {s : Session M S} {c : CallId}
  {x y : Call} {t : Ticket}

/-! ### The request of a call -/

theorem Says.not_call {z : Sender} {e : Envelope} (cause : m.Says a z e)
    (hCall : ∀ method payload timeout lifetime, a ≠ .call method payload timeout lifetime) :
    z ≠ .call c := by
  cases cause with
  | call method payload timeout lifetime => exact absurd rfl (hCall method payload timeout lifetime)
  | _ => nofun

/-- Each call sends its request once. -/
theorem Life.call_said {start : Session M S} (hStart : start.said = [] ∧ start.calls = [])
    (life : Life start past s) (c : CallId) :
    s.said.countP (fun y => y.1 = .call c) = (decide (c < s.calls.length)).toNat := by
  induction life with
  | refl => rw [hStart.1, hStart.2]; rfl
  | @step past s host a m' prior last ih =>
      by_cases hCall : ∃ method payload timeout lifetime, a = .call method payload timeout lifetime
      · obtain ⟨method, payload, timeout, lifetime, rfl⟩ := hCall
        obtain ⟨call, hCalls, _, _, hSaid⟩ := step?_call last
        rw [hSaid, List.countP_append, ih, hCalls, List.length_append, List.countP_singleton]
        obtain hLess | rfl | hMore := Nat.lt_trichotomy c s.calls.length
        · simp [hLess, Nat.lt_succ_of_lt hLess, Nat.ne_of_gt hLess]
        · simp
        · rw [decide_eq_false (Nat.not_lt_of_gt hMore), List.length_singleton,
            decide_eq_false (Nat.not_lt_of_ge hMore)]
          simp [Nat.ne_of_lt hMore]
      · have hNot : ∀ method payload timeout lifetime, a ≠ .call method payload timeout lifetime :=
          fun method payload timeout lifetime he => hCall ⟨method, payload, timeout, lifetime, he⟩
        rw [step?_calls_length last hNot]
        obtain ⟨begun, hSaid, rfl | ⟨z, e, cause, rfl⟩, _⟩ := step?_flow last
        · rw [hSaid, List.append_nil, ih]
        · rw [hSaid, List.countP_append, ih]
          simp [cause.not_call hNot]

/-- Of the request of a call there is one send. -/
theorem Life.request_place {start : Session M S} (hStart : start.said = [] ∧ start.calls = [])
    (life : Life start past s) (found : s.calls[c]? = some x) :
    ∃ (t : Ticket) (z : Send), s.sends[t]? = some z ∧ z.sender = .call c ∧
      ∀ (u : Ticket) (y : Send), s.sends[u]? = some y → y.sender = .call c → u = t := by
  have hCount : s.sends.countP (fun z => z.sender = .call c) = 1 := by
    have hSaid := life.call_said hStart c
    rwa [Session.said, List.countP_map, decide_eq_true (List.getElem?_eq_some_iff.mp found).1] at hSaid
  simpa using exists_place_of_countP_eq_one hCount

/-! ### What a send was told -/

/-- What a send was told is not taken back. -/
theorem step?_sendResult (hTracked : Tracked m.session) (h : m.step? a = some m') {result : SendResult}
    (hTold : m.session.sendResult? t = some result) : m'.session.sendResult? t = some result := by
  obtain ⟨z, hz, hDone⟩ := sendResult?_eq_some hTold
  have hSame : m'.session.sends[t]? = some z → m'.session.sendResult? t = some result := fun hz' => by
    rw [Session.sendResult?, hz']
    obtain ⟨sender, e, state⟩ := z
    cases hDone
    rfl
  cases step?_sends h with
  | kept sends _ => exact hSame (sends ▸ hz)
  | began y e _ sends _ =>
      refine hSame ?_
      rw [sends, List.getElem?_append_left (List.getElem?_eq_some_iff.mp hz).1, hz]
  | gaveUp u _ sends _ =>
      refine hSame ?_
      rw [sends, Session.giveUp]
      split
      · exact hz
      · next hOpen =>
          have hne : u ≠ t := by
            rintro rfl
            rw [hTold] at hOpen
            exact hOpen rfl
          rw [Session.setSendState, List.getElem?_modify_ne _ _ hne, hz]
  | queued outbound _ _ _ next => exact hSame (next ▸ hz)
  | completed outbound u result' _ advance next =>
      -- The send that ends now is one that was still under way.
      have hne : u ≠ t := by
        rintro rfl
        obtain ⟨w, hw, hPending⟩ := hTracked.pending u
          ((Outbound.tickets_complete advance).symm.subset List.mem_cons_self)
        cases hw.symm.trans hz
        cases hPending.symm.trans hDone
      refine hSame ?_
      rw [next, finishSend_sends, List.getElem?_modify_ne _ _ hne]
      exact hz
  | taken e outbound _ _ next => exact hSame (next ▸ hz)
  | abandoned _ next => exact hSame (next ▸ hz)

/-! ### Calls that fail with the session closed -/

/-- A call fails that way when its request is refused, and at no other time. -/
theorem step?_call_closed (hTable : m.session.TableExact) (hUsed : UsedSlots m.session)
    (hTracked : Tracked m.session) (h : m.step? a = some m') (found' : m'.session.calls[c]? = some y)
    (hClosed : y.state = .returned (.error .sessionClosed)) :
    m.session.calls[c]? = some y ∨ ∃ t z, m'.session.sends[t]? = some z ∧ z.sender = .call c ∧
      m'.session.sendResult? t = some .refused := by
  cases step?_callTurn h c with
  | same calls => exact .inl (calls.symm.trans found')
  | made _ x now _ _ state =>
      cases now.symm.trans found'
      cases state.symm.trans hClosed
  | queued _ _ _ _ _ _ _ now =>
      cases now.symm.trans found'
      cases hClosed
  | answered x found _ _ _ now =>
      cases now.symm.trans found'
      have hStays := step?_call_over hTracked hTable h found (by rw [hClosed]; rfl)
      exact .inl (found.trans (hStays.symm.trans found'))
  | ended x found state cause now =>
      cases now.symm.trans found'
      obtain rfl : state = .returned (.error .sessionClosed) := hClosed
      obtain ⟨hUnfinished, _⟩ := cause.unfinished hTracked found
      cases cause with
      | returned _ _ =>
          obtain ⟨_, hAfter, hValue⟩ := pollCall?_verdict h found
            (not_isOrphaned hTable hUsed found hUnfinished)
          rw [now] at hAfter
          cases hAfter
          obtain ⟨content, _, hResult⟩ | ⟨_, hResult | ⟨d, hResult⟩⟩ := hValue
          · cases content <;> cases hResult
          · cases hResult
          · cases hResult
      | @refused outbound t z advance send sender =>
          have hSends : m'.session.sends[t]? = some { z with state := .done .refused } := by
            obtain ⟨_, ⟨hNone, _⟩ | ⟨_, hAdvance, rfl⟩⟩ := advanceOutbound?_cases h
            · cases hNone.symm.trans advance
            · cases hAdvance.symm.trans advance
              rw [finishSend_sends, List.getElem?_modify_eq]
              exact congrArg (Option.map _) send
          exact .inr ⟨t, _, hSends, sender, by rw [Session.sendResult?, hSends]⟩

section

variable {registry : Registry M S} {callTimeout : Option Duration} {capacity : Nat}
  {lifetime : LifetimeId}

/-- The request of a call that has failed that way was refused. -/
theorem Life.refused_of_closed (life : Life (Session.new registry callTimeout capacity lifetime) past s)
    (hRoom : past.HasRoom) (found : s.calls[c]? = some x)
    (hClosed : x.state = .returned (.error .sessionClosed)) :
    ∃ t z, s.sends[t]? = some z ∧ z.sender = .call c ∧ s.sendResult? t = some .refused := by
  induction life with
  | refl => simp [Session.new] at found
  | @step past s host a m' prior last ih =>
      obtain ⟨hBefore, _⟩ := List.forall_mem_append.mp hRoom
      have hTracked := prior.tracked (tracked_new registry callTimeout capacity lifetime)
      obtain hOld | hNow := step?_call_closed (m := ⟨host, s⟩) (prior.tableExact hBefore)
        (prior.usedSlots hBefore) hTracked last found hClosed
      · obtain ⟨t, z, hz, hSender, hTold⟩ := ih hBefore hOld
        obtain ⟨w, hw, hKeeps⟩ := (step?_grows last).sends t z hz
        exact ⟨t, w, hw, hKeeps.sender.trans hSender, step?_sendResult hTracked last hTold⟩
      · exact hNow

/-- The request of a call is not in the queue and never has been: it was refused there. A request with its id
was in the queue at most if the id was given out more than once. -/
structure Unsent (past : History M S) (s : Session M S) (c : CallId) (x : Call) : Prop where
  refused : ∃ t z, s.sends[t]? = some z ∧ z.sender = .call c ∧ s.sendResult? t = some .refused
  never : ∀ y ∈ History.entered past, ∀ z, s.sends[y.1]? = some z → z.sender ≠ .call c
  fresh : s.allocated ≤ 2 ^ 32 →
    ∀ r, .request r ∈ (History.entered past).map Prod.snd → r.id ≠ x.id

theorem Life.unsent (life : Life (Session.new registry callTimeout capacity lifetime) past s)
    (hRoom : past.HasRoom) (found : s.calls[c]? = some x)
    (hClosed : x.state = .returned (.error .sessionClosed)) : Unsent past s c x := by
  obtain ⟨t, z, hz, hSender, hRefused⟩ := life.refused_of_closed hRoom found hClosed
  have hNever : ∀ y ∈ History.entered past, ∀ w, s.sends[y.1]? = some w → w.sender ≠ .call c := by
    intro y hy w hw hAgain
    obtain ⟨u, _, _, _, hOnly⟩ := life.request_place ⟨rfl, rfl⟩ found
    have hPlace : y.1 = t := (hOnly _ w hw hAgain).trans (hOnly t z hz hSender).symm
    obtain ⟨v, hv, hDone⟩ := sendResult?_eq_some hRefused
    exact life.refusedOutside t v hv hDone (hPlace ▸ List.mem_map_of_mem hy)
  refine ⟨⟨t, z, hz, hSender, hRefused⟩, hNever, fun hSmall r hIn hId => ?_⟩
  obtain ⟨y, hy, hRequest⟩ := List.mem_map.mp hIn
  obtain ⟨w, hw, hEnvelope⟩ := Option.map_eq_some_iff.mp
    (life.queueing.known y (List.mem_append_left _ hy))
  have hExplained := life.explained rfl w.sender (.request r) (by
    rw [← hRequest, ← hEnvelope]
    exact List.mem_map_of_mem (List.mem_of_getElem? hw))
  have hOwn : s.idOf? (.call c) = some r.id := by rw [Session.idOf?, found, hId]; rfl
  obtain ⟨d, hCall, hOther⟩ | ⟨d, hOther⟩ := hExplained.owner
  · cases Session.owner_unique (life.ids_nodup hSmall) hOwn hOther
    exact hNever y hy w hw hCall
  · cases Session.owner_unique (life.ids_nodup hSmall) hOwn hOther

/-- A call that has failed that way stays as it is. -/
theorem Life.call_over {s' : Session M S} {later : History M S}
    (life : Life (Session.new registry callTimeout capacity lifetime) past s) (rest : Life s later s')
    (hRoom : History.HasRoom (past ++ later)) (found : s.calls[c]? = some x)
    (hOver : x.state.isOver = true) : s'.calls[c]? = some x := by
  induction rest with
  | refl => exact found
  | @step later s₁ host a m' prior last ih =>
      rw [← List.append_assoc] at hRoom
      obtain ⟨hBefore, _⟩ := List.forall_mem_append.mp hRoom
      have whole := life.append prior
      exact step?_call_over (whole.tracked (tracked_new registry callTimeout capacity lifetime))
        (whole.tableExact hBefore) last (ih hBefore) hOver

/-- The error that the session is closed means that the request of a call was never sent. A call that has
returned it has had its request refused by the queue, and its request is not among those that have been in
the queue, then or at any later time. A call whose request has got into the queue never returns it, whatever
happens. While a call is not over its slot is its own, and still open if there is no response, so no call
fails for want of a slot. A call that fails at once, which is on an ended session, does nothing at all. -/
theorem closed_call_unsent {host : Host}
    (exec : Execution (Machine.new host registry callTimeout capacity) past m) {later : History M S}
    (rest : Execution m later m') (hRoom : History.HasRoom (past ++ later)) :
    (∀ c x, m.session.calls[c]? = some x → x.state = .returned (.error .sessionClosed) →
      m'.session.calls[c]? = some x ∧ Unsent (past ++ later) m'.session c x) ∧
    (∀ y ∈ History.entered past, ∀ z c, m.session.sends[y.1]? = some z → z.sender = .call c →
      ∀ x, m'.session.calls[c]? = some x → x.state ≠ .returned (.error .sessionClosed)) ∧
    (∀ c x, m.session.calls[c]? = some x → x.state.isOver = false →
      m.session.pending.get? x.id = some (.call c x.response.isNone) ∧
        (x.response = none → m.isOrphaned c x = false)) ∧
    (∀ method payload timeout lifetime error, m.startCall method payload timeout lifetime = .error error →
      m.isEnded = true ∧ error = .sessionClosed ∧ m.step? (.call method payload timeout lifetime) = none) := by
  obtain ⟨hBefore, _⟩ := List.forall_mem_append.mp hRoom
  have whole := (exec.append rest).life
  have hTable := exec.life.tableExact hBefore
  have hUsed := exec.life.usedSlots hBefore
  refine ⟨fun c x found hClosed => ?_, fun y hy z c hz hSender x found hClosed => ?_,
    fun c x found hUnfinished => ⟨?_, not_isOrphaned hTable hUsed found hUnfinished⟩,
    fun method payload timeout lifetime error hFails => ?_⟩
  · have hStays := exec.life.call_over rest.life hRoom found (by rw [hClosed]; rfl)
    exact ⟨hStays, whole.unsent hRoom hStays hClosed⟩
  · obtain ⟨w, hw, hKeeps⟩ := (Life.grows rest.life).sends _ z hz
    refine (whole.unsent hRoom found hClosed).never y ?_ w hw (hKeeps.sender.trans hSender)
    rw [History.entered_append_later]
    exact List.mem_append_left _ hy
  · exact slot_of_unfinished hTable hUsed (exec.life.openSlots hBefore) found hUnfinished
  · unfold startCall at hFails
    split at hFails
    · next hEnded =>
        cases hFails
        exact ⟨hEnded, rfl, by simp [step?, startCall, hEnded, Except.toOption]⟩
    · cases hFails

/-- The transport goes away when the request of one call has filled the queue and that of another waits
behind it. The second call fails and was not sent. The first does not fail that way, be the session closed. -/
theorem closed_call_unsent_of_gone : ∃ (past : History Unit Unit) (m : Machine Unit Unit) (x y : Call),
    Execution (Machine.new (Host.new false) Registry.empty none 0) past m ∧
      History.HasRoom (past ++ [(m, .close)]) ∧
      m.session.calls[1]? = some x ∧ x.state = .returned (.error .sessionClosed) ∧
      Unsent (past ++ [(m, .close)]) m.close.session 1 x ∧
      m.close.session.calls[0]? = some y ∧ y.state ≠ .returned (.error .sessionClosed) := by
  have hPlay : ((Machine.new (Host.new false) (Registry.empty : Registry Unit Unit) none 0).play
      [.call "A.b" (.ofValue []) none none, .advance 0, .call "A.c" (.ofValue []) none none, .abandon,
        .advance 0, .advance 1]).map
      (fun r => ((History.entered r.1).map Prod.fst, r.2.session.sends.map Send.sender,
        decide r.1.HasRoom, r.2.session.calls.map fun x => match x.state with
          | .returned (.error error) => some error
          | .returned (.ok _) | .sending _ | .waiting _ | .dropped => none)) =
      some ([0], [.call 0, .call 1], true, [none, some .sessionClosed]) := by decide +kernel
  obtain ⟨⟨past, m⟩, hRun, hFacts⟩ := Option.map_eq_some_iff.mp hPlay
  simp only [Prod.mk.injEq] at hFacts
  obtain ⟨hEntered, hSenders, hRoom, hCalls⟩ := hFacts
  obtain ⟨y, _, hAll, -, hRest⟩ := List.map_eq_cons_iff.mp hCalls
  obtain ⟨x, rfl, hState⟩ := List.map_eq_singleton_iff.mp hRest
  have hClosed : x.state = .returned (.error .sessionClosed) := by
    split at hState
    · next hReturned => rw [hReturned, Option.some.inj hState]
    all_goals cases hState
  have found : m.session.calls[1]? = some x := by rw [hAll]; rfl
  have foundFirst : m.close.session.calls[0]? = some y := congrArg (fun l => l[0]?) hAll
  have exec := Execution.refl.play hRun
  rw [List.nil_append] at exec
  have rest : Execution m [(m, .close)] m.close := Execution.refl.step rfl
  have hRoom : History.HasRoom (past ++ [(m, .close)]) :=
    List.forall_mem_append.mpr ⟨of_decide_eq_true hRoom, by simp [Action.takesId]⟩
  obtain ⟨hUnsent, hQueued, -⟩ := closed_call_unsent exec rest hRoom
  obtain ⟨e, hFirst, hPlace⟩ := List.map_eq_singleton_iff.mp hEntered
  obtain ⟨z, _, hSends, hSender, -⟩ := List.map_eq_cons_iff.mp hSenders
  refine ⟨past, m, x, y, exec, hRoom, found, hClosed, (hUnsent 1 x found hClosed).2, foundFirst, ?_⟩
  refine hQueued e (hFirst ▸ List.mem_singleton.mpr rfl) z 0 ?_ hSender y foundFirst
  rw [hPlace, hSends]
  rfl

end

end Machine

end PeerLink

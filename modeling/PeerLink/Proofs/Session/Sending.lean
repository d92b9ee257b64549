import PeerLink.Proofs.Session.Frame

/-! What one action sends, and what it does to the queue. `Says` is the table of the envelopes that a
session ever sends, each with its reason; `SendStep` lists everything an action can do to the sends.
Whether a send gets into the queue is decided when its sender goes on; `Outbound.Advance` lists what can
happen then. -/
namespace PeerLink.Outbound

/-- What gets into the queue if a sender goes on. -/
def entering? (o : Outbound) (t : Ticket) : Option (Ticket × Envelope) :=
  if o.flushing.isSome || o.abandoned || o.isFull then none else o.waiting.find? fun w => w.1 = t

/-- What can happen when a sender goes on. -/
inductive Advance (o : Outbound) (t : Ticket) : Outbound → Option SendResult → Prop where
  /-- There is room again, or nobody takes envelopes any more. -/
  | flushed (flushing : o.flushing = some t) : Advance o t { o with flushing := none } (some .accepted)
  | refused (e : Envelope) (front back : List (Ticket × Envelope))
      (flushing : o.flushing = none) (waiting : o.waiting = front ++ (t, e) :: back)
      (abandoned : o.abandoned = true) :
      Advance o t { o with waiting := front ++ back } (some .refused)
  /-- The envelope has got into the queue and has filled it. -/
  | filled (e : Envelope) (front back : List (Ticket × Envelope))
      (flushing : o.flushing = none) (waiting : o.waiting = front ++ (t, e) :: back)
      (enters : o.entering? t = some (t, e)) (live : o.abandoned = false) :
      Advance o t { o with queued := o.queued ++ [e], waiting := front ++ back, flushing := some t } none
  | entered (e : Envelope) (front back : List (Ticket × Envelope))
      (flushing : o.flushing = none) (waiting : o.waiting = front ++ (t, e) :: back)
      (enters : o.entering? t = some (t, e)) (live : o.abandoned = false) :
      Advance o t { o with queued := o.queued ++ [e], waiting := front ++ back } (some .accepted)

/-- A sender that is found among those that wait leaves the others as they are. -/
theorem eraseP_waiting {o : Outbound} {t u : Ticket} {e : Envelope}
    (h : o.waiting.find? (fun w => w.1 = t) = some (u, e)) :
    u = t ∧ ∃ front back, o.waiting = front ++ (t, e) :: back ∧
      o.waiting.eraseP (fun w => w.1 = t) = front ++ back := by
  obtain ⟨hTicket, front, back, hWaiting, hFront⟩ := List.find?_eq_some_iff_append.mp h
  obtain rfl : u = t := by simpa using hTicket
  have hNone : ∀ w ∈ front, ¬ decide (w.1 = u) = true := fun w hw => by simpa using hFront w hw
  refine ⟨rfl, front, back, hWaiting, ?_⟩
  rw [hWaiting, List.eraseP_append_right _ hNone, List.eraseP_cons_of_pos (by simp)]

theorem advance?_cases {o o' : Outbound} {t : Ticket} {result? : Option SendResult}
    (h : o.advance? t = some (o', result?)) : o.Advance t o' result? := by
  unfold advance? at h
  split at h
  · next u hFlushing =>
      split at h
      · next hReady =>
          cases h
          exact .flushed (hReady.1 ▸ hFlushing)
      · cases h
  · next hFlushing =>
      split at h
      · cases h
      · next u e hFind =>
          obtain ⟨rfl, front, back, hWaiting, hErase⟩ := eraseP_waiting hFind
          dsimp only at h
          rw [hErase] at h
          split at h
          · next hAbandoned =>
              cases h
              exact .refused e front back hFlushing hWaiting hAbandoned
          · next hLive =>
              split at h
              · cases h
              · next hRoom =>
                  have hLive := Bool.eq_false_iff.mpr hLive
                  have hEnters : o.entering? u = some (u, e) := by
                    rw [entering?, hFlushing, hLive, Bool.eq_false_iff.mpr hRoom]
                    exact hFind
                  split at h
                  · cases h
                    exact .filled e front back hFlushing hWaiting hEnters hLive
                  · cases h
                    exact .entered e front back hFlushing hWaiting hEnters hLive

theorem take?_eq_some {o o' : Outbound} {e : Envelope} (h : o.take? = some (e, o')) :
    ∃ rest, o.queued = e :: rest ∧ o' = { o with queued := rest } := by
  unfold take? at h
  split at h
  · cases h
  · next rest hQueued =>
      cases h
      exact ⟨rest, hQueued, rfl⟩

end PeerLink.Outbound

namespace PeerLink.Machine

variable {M S : Type}

theorem sendResult?_eq_some {s : Session M S} {t : Ticket} {result : SendResult}
    (h : s.sendResult? t = some result) : ∃ x, s.sends[t]? = some x ∧ x.state = .done result := by
  unfold Session.sendResult? at h
  split at h
  · next x hx =>
      cases h
      exact ⟨_, hx, rfl⟩
  · cases h

/-- The action sends the envelope on behalf of the sender. -/
inductive Says (m : Machine M S) : Action → Sender → Envelope → Prop where
  | call (method : String) (payload : Payload) (timeout : Option Duration)
      (lifetime : Option LifetimeId) :
      Says m (.call method payload timeout lifetime) (.call m.session.calls.length)
        (.request { id := m.session.pending.free m.session.nextId, method, payload, isStream := false })
  | sendClient {c : ClientStreamId} {x : ClientStream} (payload : Payload)
      (found : m.session.clientStreams[c]? = some x) (unclosed : x.closeSent = false)
      (live : m.isCancelled x.lifetime = false) :
      Says m (.sendClient c payload) (.client c)
        (.request { id := x.id, method := x.method, payload, isStream := true })
  | closeClient {c : ClientStreamId} {x : ClientStream}
      (found : m.session.clientStreams[c]? = some x) (unclosed : x.closeSent = false) :
      Says m (.closeClient c) (.client c) (.streamClose x.id)
  | bye : Says m .bye .bye .bye
  | refusal {k : RefusalId} {x : Refusal} (found : m.session.refusals[k]? = some x)
      (unstarted : x.started = false) :
      Says m (.startRefusal k) (.refusal k) (.response x.response)
  | run {r : RunId} {x : Run M} (result : Except HandlerError Payload)
      (found : m.session.runs[r]? = some x) (running : x.result = none) :
      Says m (.finishRun r result) (.run r) (.response ⟨x.id, answer result⟩)
  | sendServed {i : ServedStreamId} {x : ServedStream S} (payload : Payload)
      (found : m.session.servedStreams[i]? = some x) :
      Says m (.sendServed i payload) (.served i) (.response ⟨x.id, .payload payload⟩)
  | readyServed {i : ServedStreamId} {x : ServedStream S}
      (found : m.session.servedStreams[i]? = some x) :
      Says m (.readyServed i) (.served i) (.response ⟨x.id, .ready true⟩)
  | closeServed {i : ServedStreamId} {x : ServedStream S}
      (found : m.session.servedStreams[i]? = some x) :
      Says m (.closeServed i) (.served i) (.response ⟨x.id, .close true⟩)
  | finishServed {i : ServedStreamId} {x : ServedStream S} (result : Except Failure Unit)
      (found : m.session.servedStreams[i]? = some x) :
      Says m (.finishServed i result) (.completion i) (.response ⟨x.id, completion result⟩)

/-- What one action does to the sends and to the queue. -/
inductive SendStep (m m' : Machine M S) (a : Action) : Prop where
  | kept (sends : m'.session.sends = m.session.sends)
      (outbound : m'.session.outbound = m.session.outbound)
  | began (x : Sender) (e : Envelope) (cause : m.Says a x e)
      (sends : m'.session.sends = m.session.sends ++ [⟨x, e, .pending⟩])
      (outbound : m'.session.outbound = m.session.outbound.enqueue m.session.sends.length e)
  /-- Somebody stops waiting for a send, alone or together with the call it belongs to. -/
  | gaveUp (t : Ticket)
      (cause : (∃ x, m.session.sends[t]? = some x ∧ x.sender.canGiveUp = true) ∨
        ∃ c call, a = .dropCall c ∧ m.session.calls[c]? = some call ∧ call.state = .sending t)
      (sends : m'.session.sends = (m.session.giveUp t).sends)
      (outbound : m'.session.outbound = (m.session.giveUp t).outbound)
  /-- An envelope gets into the queue, and its sender waits for room. -/
  | queued (outbound : Outbound) (t : Ticket) (cause : a = .advance t)
      (advance : m.session.outbound.advance? t = some (outbound, none))
      (next : m' = m.onSession fun s => { s with outbound })
  | completed (outbound : Outbound) (t : Ticket) (result : SendResult) (cause : a = .advance t)
      (advance : m.session.outbound.advance? t = some (outbound, some result))
      (next : m' = (m.onSession fun s => { s with outbound }).finishSend t result)
  | taken (e : Envelope) (outbound : Outbound) (cause : a = .take)
      (take : m.session.outbound.take? = some (e, outbound))
      (next : m' = m.onSession fun s => { s with outbound })
  | abandoned (cause : a = .abandon) (next : m' = m.abandonOutbound)

theorem takeOutbound?_eq_some {m m' : Machine M S} {e : Envelope}
    (h : m.takeOutbound? = some (e, m')) : ∃ rest, m.session.outbound.queued = e :: rest ∧
      m' = m.onSession fun s => { s with outbound := { s.outbound with queued := rest } } := by
  unfold takeOutbound? at h
  split at h
  · cases h
  · next hTake =>
      obtain ⟨rest, hQueued, rfl⟩ := Outbound.take?_eq_some hTake
      cases h
      exact ⟨rest, hQueued, rfl⟩

theorem finishSend_sends (m : Machine M S) (t : Ticket) (result : SendResult) :
    (m.finishSend t result).session.sends =
      m.session.sends.modify t fun x => { x with state := .done result } := by
  obtain ⟨c, _, _, _, _, he⟩ | ⟨c, _, _, _, _, he⟩ | ⟨_, he⟩ := finishSend_cases m t result
  · rw [he]
    rfl
  · rw [he, endCall_session]
    rfl
  · rw [he]
    rfl

theorem finishSend_outbound (m : Machine M S) (t : Ticket) (result : SendResult) :
    (m.finishSend t result).session.outbound = m.session.outbound := by
  rw [finishSend_session]

theorem finishServed_sends {m : Machine M S} {i : ServedStreamId} {x : ServedStream S}
    (found : m.session.servedStreams[i]? = some x) (result : Except Failure Unit) :
    m.SendStep (m.finishServed i result) (.finishServed i result) := by
  rw [finishServed_eq found]
  split
  · refine .kept ?_ ?_
    · rw [retire_session]
    · rw [retire_session]
  · refine .began _ _ (.finishServed result found) ?_ ?_
    · rw [session_onSession, retire_session]
      rfl
    · rw [session_onSession, retire_session]
      rfl

theorem sendServed_sends {m : Machine M S} {i : ServedStreamId} {a : Action} {content : Content}
    (cause : ∀ x, m.session.servedStreams[i]? = some x →
      m.Says a (.served i) (.response ⟨x.id, content⟩)) :
    m.SendStep (m.sendServed i content) a := by
  obtain ⟨x, hx, he⟩ | ⟨_, he⟩ := sendServed_cases m i content
  · rw [he]
    exact .began _ _ (cause x hx) rfl rfl
  · rw [he]
    exact .kept rfl rfl

theorem dropCall_sends (m : Machine M S) (c : CallId) : m.SendStep (m.dropCall c) (.dropCall c) := by
  obtain ⟨call, t, hCall, hState, he⟩ | ⟨_, _, _, _, he⟩ | he := dropCall_cases m c
  · rw [he]
    refine .gaveUp t (.inr ⟨c, call, rfl, hCall, hState⟩) ?_ ?_
    · rw [endCall_session, session_onSession]
    · rw [endCall_session, session_onSession]
  · rw [he]
    refine .kept ?_ ?_
    · rw [endCall_session]
    · rw [endCall_session]
  · rw [he]
    exact .kept rfl rfl

theorem step?_sends {m m' : Machine M S} {a : Action} (h : m.step? a = some m') :
    m.SendStep m' a := by
  cases a with
  | call method payload timeout lifetime =>
      obtain ⟨_, rfl⟩ := step?_call_eq_some h
      exact .began _ _ (.call method payload timeout lifetime) rfl rfl
  | dropCall c =>
      cases h
      exact dropCall_sends m c
  | sendClient c payload =>
      obtain ⟨x, hx, _, hLive, hUnclosed, rfl⟩ := step?_sendClient_eq_some h
      exact .began _ _ (.sendClient payload hx hUnclosed hLive) rfl rfl
  | closeClient c =>
      obtain ⟨x, hx, hUnclosed, rfl⟩ := closeClient?_eq_some h
      exact .began _ _ (.closeClient hx hUnclosed) rfl rfl
  | bye =>
      cases h
      exact .began _ _ .bye rfl rfl
  | giveUp t =>
      obtain ⟨x, hx, hCan, rfl⟩ := step?_giveUp_eq_some h
      exact .gaveUp t (.inl ⟨x, hx, hCan⟩) rfl rfl
  | startRefusal k =>
      obtain ⟨response, hRefusal, rfl⟩ := startRefusal?_eq_some h
      exact .began _ _ (.refusal hRefusal rfl) rfl rfl
  | advance t =>
      obtain ⟨outbound, ⟨hAdvance, rfl⟩ | ⟨result, hAdvance, rfl⟩⟩ := advanceOutbound?_cases h
      · exact .queued outbound t rfl hAdvance rfl
      · exact .completed outbound t result rfl hAdvance rfl
  | finishRun r result =>
      obtain ⟨run, hRun, hRunning, rfl⟩ := step?_finishRun_eq_some h
      refine .began _ _ (.run result hRun hRunning) ?_ ?_
      · rw [finishRun_session hRun]
        rfl
      · rw [finishRun_session hRun]
        rfl
  | sendServed i payload =>
      cases h
      exact sendServed_sends fun x hx => .sendServed payload hx
  | readyServed i =>
      cases h
      exact sendServed_sends fun x hx => .readyServed hx
  | closeServed i =>
      obtain ⟨x, hx, _, rfl⟩ := closeByHandler?_eq_some h
      exact .began _ _ (.closeServed hx) rfl rfl
  | finishServed i result =>
      obtain ⟨x, hx, _, rfl⟩ := step?_finishServed_eq_some h
      exact finishServed_sends hx result
  | receive e =>
      obtain ⟨_, _, rfl⟩ := receive?_eq_some h
      refine .kept ?_ ?_
      · rw [handle_session]
        cases e <;> rfl
      · rw [handle_session]
        cases e <;> rfl
  | take =>
      obtain ⟨e, outbound, hTake, rfl⟩ := step?_take_eq_some h
      exact .taken e outbound rfl hTake rfl
  | abandon =>
      cases h
      exact .abandoned rfl rfl
  | _ =>
      refine .kept ?_ ?_
      · rw [step?_frame h]
        rfl
      · rw [step?_frame h]
        rfl

end PeerLink.Machine

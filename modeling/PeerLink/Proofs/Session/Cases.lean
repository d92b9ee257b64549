import PeerLink.Proofs.Session.Execution

/-! What each operation of a session can do, said once. An operation that may fail has a lemma that lists
what held when it succeeded and what it made of the session; one that cannot fail has a lemma with its
cases. Proofs about actions take them apart by these lemmas and do not look at how the operations are
written. -/
namespace PeerLink.Machine

variable {M S : Type} {m m' : Machine M S}

/-! ### Calls -/

theorem step?_call_eq_some {method : String} {payload : Payload} {timeout : Option Duration}
    {lifetime : Option LifetimeId} (h : m.step? (.call method payload timeout lifetime) = some m') :
    m.isEnded = false ∧ m' = m.onSession fun s =>
      let call : Call :=
        { id := s.pending.free s.nextId, method, lifetime
          timeout := timeout.or s.callTimeout, response := none, state := .sending s.nextTicket }
      { (s.allocate (.call s.calls.length true)).2 with calls := s.calls ++ [call] }.beginSend
        (.call s.calls.length) (.request { id := call.id, method, payload, isStream := false }) := by
  simp only [step?, startCall] at h
  split at h
  · cases h
  · next hLive => exact ⟨Bool.eq_false_iff.mpr hLive, (Option.some.inj h).symm⟩

/-- A call that returns was waiting. It returns what its response says, and without a response a
failure that does not come from the remote peer. -/
theorem pollCall?_cases {c : CallId} (h : m.pollCall? c = some m') :
    ∃ call deadline? result, m.session.calls[c]? = some call ∧ call.state = .waiting deadline? ∧
      m' = m.endCall c (.returned result) ∧
      ((∃ content, call.response = some content ∧ result = content.callResult) ∨
        result = .error .sessionClosed ∨ result = .error .cancelled ∨
        ∃ d, result = .error (.timeout d)) := by
  unfold pollCall? at h
  split at h
  · next call hCall =>
      split at h
      · next deadline? hState =>
          refine ⟨call, deadline?, ?_⟩
          dsimp only at h
          split at h
          · next content hResponse =>
              exact ⟨_, hCall, hState, (Option.some.inj h).symm, .inl ⟨content, hResponse, rfl⟩⟩
          · split at h
            · exact ⟨_, hCall, hState, (Option.some.inj h).symm, .inr (.inl rfl)⟩
            · split at h
              · exact ⟨_, hCall, hState, (Option.some.inj h).symm, .inr (.inr (.inl rfl))⟩
              · split at h
                · exact ⟨_, hCall, hState, (Option.some.inj h).symm,
                    .inr (.inr (.inr ⟨_, rfl⟩))⟩
                · cases h
      · cases h
  · cases h

/-- A call that is dropped before its request is queued gives the send up with it. One that has returned
is dropped to no effect. -/
theorem dropCall_cases (m : Machine M S) (c : CallId) :
    (∃ call t, m.session.calls[c]? = some call ∧ call.state = .sending t ∧
      m.dropCall c = (m.onSession fun s => s.giveUp t).endCall c .dropped) ∨
    (∃ call deadline?, m.session.calls[c]? = some call ∧ call.state = .waiting deadline? ∧
      m.dropCall c = m.endCall c .dropped) ∨
    m.dropCall c = m := by
  unfold dropCall
  split
  · next call hCall =>
      split
      · next t hState => exact .inl ⟨call, t, hCall, hState, rfl⟩
      · next deadline? hState => exact .inr (.inl ⟨call, deadline?, hCall, hState, rfl⟩)
      · exact .inr (.inr rfl)
  · exact .inr (.inr rfl)

/-! ### Sends -/

theorem step?_giveUp_eq_some {t : Ticket} (h : m.step? (.giveUp t) = some m') :
    ∃ x, m.session.sends[t]? = some x ∧ x.sender.canGiveUp = true ∧
      m' = m.onSession fun s => s.giveUp t := by
  simp only [step?] at h
  split at h
  · next hSender =>
      obtain ⟨x, hx, hCan⟩ := (Option.any_eq_true _ _).mp hSender
      exact ⟨x, hx, hCan, (Option.some.inj h).symm⟩
  · cases h

/-- The end of a send matters to a call whose request it carried, and to nobody else. -/
theorem finishSend_cases (m : Machine M S) (t : Ticket) (result : SendResult) :
    (∃ c x, m.session.sends[t]? = some x ∧ x.sender = .call c ∧ result = .accepted ∧
      m.finishSend t result =
        (m.onSession fun s => s.setSendState t (.done result)).onSession fun s =>
          s.modifyCall c fun call =>
            { call with state := .waiting (call.timeout.map fun d => m.now + d.nanos) }) ∨
    (∃ c x, m.session.sends[t]? = some x ∧ x.sender = .call c ∧ result = .refused ∧
      m.finishSend t result =
        (m.onSession fun s => s.setSendState t (.done result)).endCall c
          (.returned (.error .sessionClosed))) ∨
    ((∀ x, m.session.sends[t]? = some x → ∀ c, x.sender ≠ .call c) ∧
      m.finishSend t result = m.onSession fun s => s.setSendState t (.done result)) := by
  have hSend : (m.onSession fun s => s.setSendState t (.done result)).session.sends[t]? =
      m.session.sends[t]?.map fun x => { x with state := .done result } := by
    simp [Session.setSendState]
  unfold finishSend
  dsimp only
  rw [hSend]
  cases hx : m.session.sends[t]? with
  | none => exact .inr (.inr ⟨nofun, rfl⟩)
  | some x =>
      obtain ⟨sender, e, state⟩ := x
      cases sender with
      | call c =>
          cases result with
          | accepted => exact .inl ⟨c, _, rfl, rfl, rfl, rfl⟩
          | refused => exact .inr (.inl ⟨c, _, rfl, rfl, rfl, rfl⟩)
      | _ =>
          refine .inr (.inr ⟨fun x hx c => ?_, rfl⟩)
          cases hx
          simp

theorem advanceOutbound?_cases {t : Ticket} (h : m.advanceOutbound? t = some m') :
    ∃ outbound, (m.session.outbound.advance? t = some (outbound, none) ∧
        m' = m.onSession fun s => { s with outbound }) ∨
      ∃ result, m.session.outbound.advance? t = some (outbound, some result) ∧
        m' = (m.onSession fun s => { s with outbound }).finishSend t result := by
  unfold advanceOutbound? at h
  split at h
  · cases h
  · next outbound result? hAdvance =>
      refine ⟨outbound, ?_⟩
      cases result? with
      | none => exact .inl ⟨hAdvance, (Option.some.inj h).symm⟩
      | some result => exact .inr ⟨result, hAdvance, (Option.some.inj h).symm⟩

theorem step?_take_eq_some (h : m.step? .take = some m') :
    ∃ e outbound, m.session.outbound.take? = some (e, outbound) ∧
      m' = m.onSession fun s => { s with outbound } := by
  simp only [step?, takeOutbound?] at h
  split at h
  · cases h
  · next e outbound hTake => exact ⟨e, outbound, hTake, (Option.some.inj h).symm⟩

theorem startRefusal?_eq_some {k : RefusalId} (h : m.startRefusal? k = some m') :
    ∃ response, m.session.refusals[k]? = some ⟨response, false⟩ ∧ m' = m.onSession fun s =>
      { s with refusals := s.refusals.modify k fun x => { x with started := true } }.beginSend
        (.refusal k) (.response response) := by
  unfold startRefusal? at h
  split at h
  · next response hRefusal => exact ⟨response, hRefusal, (Option.some.inj h).symm⟩
  · cases h

/-! ### Envelopes of the remote peer -/

theorem receive?_eq_some {e : Envelope} (h : m.receive? e = some m') :
    m.session.consuming = true ∧ m.isEnded = false ∧ m' = m.handle e := by
  unfold receive? at h
  split at h
  · next hGuard =>
      simp only [Bool.and_eq_true, Bool.not_eq_true'] at hGuard
      exact ⟨hGuard.1, hGuard.2, (Option.some.inj h).symm⟩
  · cases h

theorem stopConsuming?_eq_some {exhausted : Bool}
    (h : m.stopConsuming? exhausted = some m') :
    m.session.consuming = true ∧ (m.isEnded || exhausted) = true ∧
      m' = (m.closeOpenStreams.cancel m.session.lifetime).onSession fun s =>
        { s with consuming := false } := by
  unfold stopConsuming? at h
  split at h
  · next hGuard =>
      obtain ⟨hConsuming, hCause⟩ := Bool.and_eq_true_iff.mp hGuard
      exact ⟨hConsuming, hCause, (Option.some.inj h).symm⟩
  · cases h

/-- A response reaches the call or the stream that has its id in the table, and at most one. -/
theorem deliver_cases (m : Machine M S) (r : Response) :
    (∃ c, m.session.pending.get? r.id = some (.call c true) ∧
      m.deliver r = m.onSession fun s =>
        { s with pending := s.pending.modify r.id fun _ => .call c false }.modifyCall c fun x =>
          { x with response := some r.content }) ∨
    (∃ c, m.session.pending.get? r.id = some (.stream c) ∧
      m.deliver r = m.onSession fun s =>
        s.modifyClient c fun x => { x with responses := x.responses ++ [r.content] }) ∨
    (∀ c, m.session.pending.get? r.id ≠ some (.call c true) ∧
        m.session.pending.get? r.id ≠ some (.stream c)) ∧
      m.deliver r = m.log .unknownRequestAnswered := by
  unfold deliver
  split
  · next c h => exact .inl ⟨c, h, rfl⟩
  · next c h => exact .inr (.inl ⟨c, h, rfl⟩)
  · next hCall hStream => exact .inr (.inr ⟨fun c => ⟨hCall c, hStream c⟩, rfl⟩)

/-- A call of the remote peer is refused, or starts one run of the handler that has its name. -/
theorem handleCall_cases (m : Machine M S) (r : Request) :
    (m.session.registry.method? r.method = none ∧
      m.handleCall r = (m.log .methodNotFound).refuse r.id (.methodNotFound r.method)) ∨
    ∃ method, m.session.registry.method? r.method = some method ∧
      m.handleCall r = (m.addLifetime (some m.session.lifetime)).onSession fun s =>
        { s with runs := s.runs ++
            [{ id := r.id, method := r.method, handler := method.handler, payload := r.payload
               lifetime := m.lifetimes.next, result := none }] } := by
  unfold handleCall
  split
  · next h => exact .inl ⟨h, rfl⟩
  · next method h => exact .inr ⟨method, h, rfl⟩

/-- A stream message reaches the open stream with its id. Only where there is none can it open one. -/
theorem handleStream_cases (m : Machine M S) (r : Request) :
    (∃ i, m.session.openStreams.get? r.id = some i ∧
      m.handleStream r = m.onSession fun s =>
        s.modifyServed i fun x => { x with inbox := x.inbox ++ [r.payload] }) ∨
    (m.session.openStreams.get? r.id = none ∧ m.session.registry.stream? r.method = none ∧
      m.handleStream r = (m.log .streamNotFound).refuse r.id (.streamNotFound r.method)) ∨
    ∃ method, m.session.openStreams.get? r.id = none ∧
      m.session.registry.stream? r.method = some method ∧
      m.handleStream r = (m.addLifetime (some m.session.lifetime)).onSession fun s =>
        { s with
          openStreams := s.openStreams.insert r.id s.servedStreams.length
          servedStreams := s.servedStreams ++
            [{ id := r.id, method := r.method, handler := method.handler
               lifetime := m.lifetimes.next, inbox := [r.payload], inboxClosed := false
               closeSent := false, result := none }] } := by
  unfold handleStream
  split
  · next i h => exact .inl ⟨i, h, rfl⟩
  · next hOpen =>
      split
      · next h => exact .inr (.inl ⟨hOpen, h, rfl⟩)
      · next method h => exact .inr (.inr ⟨method, hOpen, h, rfl⟩)

/-! ### Handlers -/

/-- The answer to a call, as it is sent. -/
def answer : Except HandlerError Payload → Content
  | .ok p => .payload p
  | .error e => .error e.toRemote

/-- The last response of a stream, as it is sent. -/
def completion : Except Failure Unit → Content
  | .ok () => .close true
  | .error e => .error e.toRemote

theorem step?_finishRun_eq_some {r : RunId} {result : Except HandlerError Payload}
    (h : m.step? (.finishRun r result) = some m') :
    ∃ run, m.session.runs[r]? = some run ∧ run.result = none ∧ m' = m.finishRun r result := by
  simp only [step?] at h
  split at h
  · next hRunning =>
      obtain ⟨run, hRun, hResult⟩ := isRunning_iff.mp hRunning
      exact ⟨run, hRun, hResult, (Option.some.inj h).symm⟩
  · cases h

theorem finishRun_session {r : RunId} {run : Run M} (found : m.session.runs[r]? = some run)
    (result : Except HandlerError Payload) : (m.finishRun r result).session =
      { m.session with
        runs := m.session.runs.modify r fun x => { x with result := some result } }.beginSend
          (.run r) (.response ⟨run.id, answer result⟩) := by
  unfold finishRun
  rw [found]
  cases result <;> rfl

theorem finishRun_lifetimes {r : RunId} {run : Run M} (found : m.session.runs[r]? = some run)
    (result : Except HandlerError Payload) :
    (m.finishRun r result).lifetimes = m.lifetimes.cancel run.lifetime := by
  unfold finishRun
  rw [found]
  cases result <;> rfl

theorem step?_finishServed_eq_some {i : ServedStreamId} {result : Except Failure Unit}
    (h : m.step? (.finishServed i result) = some m') :
    ∃ x, m.session.servedStreams[i]? = some x ∧ x.result = none ∧ m' = m.finishServed i result := by
  simp only [step?] at h
  split at h
  · next hServing =>
      obtain ⟨x, hx, hResult⟩ := isServing_iff.mp hServing
      exact ⟨x, hx, hResult, (Option.some.inj h).symm⟩
  · cases h

/-- What becomes of a session when the handler of a stream returns, apart from what is said about it: the
stream leaves the table, its lifetime is cancelled, and the return is kept and counted. -/
def retire (m : Machine M S) (i : ServedStreamId) (x : ServedStream S)
    (result : Except Failure Unit) : Machine M S :=
  let retired := ((m.removeServed i x.id).cancel x.lifetime).onSession
    (·.modifyServed i fun y =>
      { y with result := some result, closeSent := y.closeSent || result.isOk })
  match result with
  | .ok _ => retired.onHost fun h => { h with meter := h.meter.success }
  | .error _ =>
    (retired.log .streamHandlerFailed).onHost fun h => { h with meter := h.meter.failure }

theorem retire_lifetimes (m : Machine M S) (i : ServedStreamId) (x : ServedStream S)
    (result : Except Failure Unit) :
    (m.retire i x result).lifetimes = (m.removeServed i x.id).lifetimes.cancel x.lifetime := by
  cases result <;> rfl

/-- Leaving the table closes a stream for its handler, and does not mark it as closed by it. -/
theorem removeServed_found {i : ServedStreamId} {x : ServedStream S}
    (found : m.session.servedStreams[i]? = some x) (id : Int32) :
    ∃ z, (m.removeServed i id).session.servedStreams[i]? = some z ∧ z.closeSent = x.closeSent := by
  unfold removeServed
  split
  · refine ⟨{ x with inboxClosed := true }, ?_, rfl⟩
    simp [closeServed, found, Session.modifyServed]
  · exact ⟨x, found, rfl⟩

/-- The handler of a stream returns, and what it returned is said last. Where it went well, a close that
was sent before has said so already. -/
theorem finishServed_eq {i : ServedStreamId} {x : ServedStream S}
    (found : m.session.servedStreams[i]? = some x) (result : Except Failure Unit) :
    m.finishServed i result = if result.isOk && x.closeSent then m.retire i x result else
      (m.retire i x result).onSession fun s =>
        s.beginSend (.completion i) (.response ⟨x.id, completion result⟩) := by
  unfold finishServed
  rw [found]
  cases result with
  | ok _ =>
      cases hMark : x.closeSent with
      | true =>
          obtain ⟨z, hz, hClosed⟩ := removeServed_found found x.id
          rw [hMark] at hClosed
          -- The stream is marked already.
          have hSame : (m.removeServed i x.id).session.modifyServed i (fun y =>
                { y with result := some (.ok ()) }) =
              (m.removeServed i x.id).session.modifyServed i fun y =>
                { y with result := some (.ok ()), closeSent := y.closeSent || true } := by
            unfold Session.modifyServed
            congr 1
            apply List.ext_getElem?
            intro j
            rw [List.getElem?_modify, List.getElem?_modify]
            by_cases hj : i = j
            · subst hj
              simp [hz, hClosed]
            · simp [hj]
          simp only [hMark, if_true, retire, onSession, session_cancel, hSame]
          rfl
      | false =>
          have hMarked : (fun y : ServedStream S =>
                { y with result := some (.ok ()), closeSent := true }) = fun y =>
              { y with result := some (.ok ()), closeSent := y.closeSent || true } := by
            simp only [Bool.or_true]
          simp only [hMark, Bool.false_eq_true, if_false, onSession, onHost, Session.modifyServed,
            List.modify_modify_eq]
          rw [Function.comp_def, hMarked]
          rfl
  | error e =>
      have hUnmarked : (fun y : ServedStream S => { y with result := some (.error e) }) = fun y =>
          { y with result := some (.error e), closeSent := y.closeSent || false } := by
        simp only [Bool.or_false]
      dsimp only
      rw [hUnmarked]
      rfl

theorem sendServed_eq {i : ServedStreamId} {x : ServedStream S}
    (found : m.session.servedStreams[i]? = some x) (content : Content) :
    m.sendServed i content = m.onSession fun s =>
      s.beginSend (.served i) (.response ⟨x.id, content⟩) := by
  rw [sendServed, found]

theorem sendServed_cases (m : Machine M S) (i : ServedStreamId) (content : Content) :
    (∃ x, m.session.servedStreams[i]? = some x ∧ m.sendServed i content = m.onSession fun s =>
      s.beginSend (.served i) (.response ⟨x.id, content⟩)) ∨
    m.session.servedStreams[i]? = none ∧ m.sendServed i content = m := by
  cases found : m.session.servedStreams[i]? with
  | none => exact .inr ⟨rfl, by rw [sendServed, found]⟩
  | some x => exact .inl ⟨x, rfl, sendServed_eq found content⟩

theorem closeByHandler?_eq_some {i : ServedStreamId} (h : m.closeByHandler? i = some m') :
    ∃ x, m.session.servedStreams[i]? = some x ∧ x.closeSent = false ∧ m' = m.onSession fun s =>
      (s.modifyServed i fun x => { x with closeSent := true }).beginSend (.served i)
        (.response ⟨x.id, .close true⟩) := by
  unfold closeByHandler? at h
  split at h
  · cases h
  · next x hx =>
      split at h
      · cases h
      · next hUnclosed =>
          have hMarked : (m.onSession fun s => s.modifyServed i fun x =>
              { x with closeSent := true }).session.servedStreams[i]? =
                some { x with closeSent := true } := by
            simp [Session.modifyServed, hx]
          rw [sendServed_eq hMarked] at h
          exact ⟨x, hx, Bool.eq_false_iff.mpr hUnclosed, (Option.some.inj h).symm⟩

/-- A handler gets the message that has waited longest, or nothing happens. -/
theorem receiveServed_cases (m : Machine M S) (i : ServedStreamId) :
    (∃ x message rest, m.session.servedStreams[i]? = some x ∧ x.inbox = message :: rest ∧
      m.receiveServed i = (.message message, m.onSession fun s =>
        s.modifyServed i fun x => { x with inbox := rest })) ∨
    (∀ message, (m.receiveServed i).1 ≠ .message message) ∧ (m.receiveServed i).2 = m := by
  unfold receiveServed
  split
  · exact .inr ⟨nofun, rfl⟩
  · next x hx =>
      split
      · next message rest hInbox => exact .inl ⟨x, message, rest, hx, hInbox, rfl⟩
      · refine .inr ⟨fun message => ?_, rfl⟩
        split <;> nofun

/-! ### Streams opened here -/

theorem step?_sendClient_eq_some {c : ClientStreamId} {payload : Payload}
    (h : m.step? (.sendClient c payload) = some m') :
    ∃ x, m.session.clientStreams[c]? = some x ∧ m.isEnded = false ∧
      m.isCancelled x.lifetime = false ∧ x.closeSent = false ∧
      m' = m.onSession fun s => s.beginSend (.client c)
        (.request { id := x.id, method := x.method, payload, isStream := true }) := by
  simp only [step?, sendClient] at h
  split at h
  · cases h
  · next x hx =>
      split at h
      · cases h
      · next hLive =>
          split at h
          · cases h
          · next hOpen =>
              obtain ⟨hUncancelled, hUnclosed⟩ :=
                Bool.or_eq_false_iff.mp (Bool.eq_false_iff.mpr hOpen)
              exact ⟨x, hx, Bool.eq_false_iff.mpr hLive, hUncancelled, hUnclosed,
                (Option.some.inj h).symm⟩

theorem closeClient?_eq_some {c : ClientStreamId} (h : m.closeClient? c = some m') :
    ∃ x, m.session.clientStreams[c]? = some x ∧ x.closeSent = false ∧ m' = m.onSession fun s =>
      (s.modifyClient c fun x => { x with closeSent := true }).beginSend (.client c)
        (.streamClose x.id) := by
  unfold closeClient? at h
  split at h
  · cases h
  · next x hx =>
      split at h
      · cases h
      · next hUnclosed => exact ⟨x, hx, Bool.eq_false_iff.mpr hUnclosed, (Option.some.inj h).symm⟩

/-- A stream gives the message that has waited longest, or nothing happens. -/
theorem receiveClient_cases (m : Machine M S) (c : ClientStreamId) :
    (∃ x message rest, m.session.clientStreams[c]? = some x ∧ x.messages = message :: rest ∧
      m.receiveClient c = (.message message, m.onSession fun s =>
        s.modifyClient c fun x => { x with messages := rest })) ∨
    (∀ message, (m.receiveClient c).1 ≠ .message message) ∧ (m.receiveClient c).2 = m := by
  unfold receiveClient
  split
  · exact .inr ⟨nofun, rfl⟩
  · next x hx =>
      split
      · next message rest hMessages => exact .inl ⟨x, message, rest, hx, hMessages, rfl⟩
      · refine .inr ⟨fun message => ?_, rfl⟩
        split <;> nofun

theorem dropClient_cases (m : Machine M S) (c : ClientStreamId) :
    (∃ x, m.session.clientStreams[c]? = some x ∧ m.dropClient c = m.cancel x.lifetime) ∨
    m.session.clientStreams[c]? = none ∧ m.dropClient c = m := by
  unfold dropClient
  split
  · next hNone => exact .inr ⟨hNone, rfl⟩
  · next x hx => exact .inl ⟨x, hx, rfl⟩

/-- A stream after one response was sorted: `rest` is left, and `messages` came out of it. -/
def sorted (rest : List Content) (messages : List (Except RemoteError Payload))
    (x : ClientStream) : ClientStream :=
  { x with responses := rest, ready := true, messages := x.messages ++ messages }

/-- Sorting a response changes what the owner of the stream gets to see, and may end the stream. -/
theorem sortResponse_cases (m : Machine M S) (c : ClientStreamId) (stream : ClientStream)
    (content : Content) (rest : List Content) :
    ∃ messages, m.sortResponse c stream content rest =
        m.onSession (fun s => s.modifyClient c (sorted rest messages)) ∨
      m.sortResponse c stream content rest =
        (m.onSession fun s => s.modifyClient c (sorted rest messages)).endClient c stream := by
  have hTwice : ∀ message, (m.onSession fun s => s.modifyClient c fun x =>
        { x with responses := rest, ready := true }).onSession (fun s => s.modifyClient c fun x =>
          { x with messages := x.messages ++ [message] }) =
      m.onSession fun s => s.modifyClient c (sorted rest [message]) := by
    intro message
    simp only [onSession, Session.modifyClient, List.modify_modify_eq]
    rfl
  have hOnce : (m.onSession fun s => s.modifyClient c fun x =>
        { x with responses := rest, ready := true }) =
      m.onSession fun s => s.modifyClient c (sorted rest []) := by
    have hNothing : (fun x : ClientStream => { x with responses := rest, ready := true }) =
        sorted rest [] := by
      funext x
      simp [sorted]
    rw [hNothing]
  cases content with
  | payload p => exact ⟨[.ok p], .inl (hTwice (.ok p))⟩
  | error e =>
      refine ⟨[.error e], .inr ?_⟩
      rw [← hTwice (.error e)]
      rfl
  | close _ =>
      refine ⟨[], .inr ?_⟩
      rw [← hOnce]
      rfl
  | ready _ => exact ⟨[], .inl hOnce⟩

/-- The task of a stream either stops, because the lifetime of the stream is cancelled, or sorts the
response that came first. -/
theorem pollClient?_cases {c : ClientStreamId}
    (h : m.pollClient? c = some m') :
    ∃ stream, m.session.clientStreams[c]? = some stream ∧ stream.ended = false ∧
      (m.isCancelled stream.lifetime = true ∧ m' = m.endClient c stream ∨
        ∃ content rest, stream.responses = content :: rest ∧
          m' = m.sortResponse c stream content rest) := by
  unfold pollClient? at h
  split at h
  · cases h
  · next stream hStream =>
      refine ⟨stream, hStream, ?_⟩
      split at h
      · cases h
      · next hEnded =>
          refine ⟨Bool.eq_false_iff.mpr hEnded, ?_⟩
          split at h
          · next hCancelled => exact .inl ⟨hCancelled, (Option.some.inj h).symm⟩
          · split at h
            · cases h
            · next content rest hResponses =>
                exact .inr ⟨content, rest, hResponses, (Option.some.inj h).symm⟩

end PeerLink.Machine

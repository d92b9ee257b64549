import PeerLink.Proofs.Session.Cases

/-! What an action leaves alone. `Action.overlay` is a table of the parts of a session that an action
may change; everything else is as before. Proofs about one part look at the actions of its row only.
What sessions share is touched by few actions: those of `Action.keepsHost` leave all of it alone. -/
namespace PeerLink.Machine

variable {M S : Type}

/-- `old`, with the parts that handling the envelope may change taken from `new`. -/
def overlayHandled (e : Envelope) (old new : Session M S) : Session M S :=
  match e with
  | .response _ =>
    { old with
      pending := new.pending, calls := new.calls, clientStreams := new.clientStreams }
  | .request _ =>
    { old with
      openStreams := new.openStreams, servedStreams := new.servedStreams
      runs := new.runs, refusals := new.refusals }
  | .streamClose _ =>
    { old with openStreams := new.openStreams, servedStreams := new.servedStreams }
  | .bye =>
    { old with openStreams := new.openStreams, servedStreams := new.servedStreams }
  | .opening _ => old
  | .openingAck _ => old

/-- `old`, with the parts that the action may change taken from `new`. -/
def Action.overlay (a : Action) (old new : Session M S) : Session M S :=
  match a with
  | .call .. =>
    { old with
      pending := new.pending, nextId := new.nextId, calls := new.calls
      sends := new.sends, outbound := new.outbound }
  | .dropCall _ =>
    { old with
      pending := new.pending, calls := new.calls, sends := new.sends, outbound := new.outbound }
  | .openStream _ =>
    { old with
      pending := new.pending, nextId := new.nextId, clientStreams := new.clientStreams }
  | .sendClient .. => { old with sends := new.sends, outbound := new.outbound }
  | .closeClient _ =>
    { old with clientStreams := new.clientStreams, sends := new.sends, outbound := new.outbound }
  | .receiveClient _ => { old with clientStreams := new.clientStreams }
  | .dropClient _ => old
  | .bye => { old with sends := new.sends, outbound := new.outbound }
  | .close => old
  | .cancel _ => old
  | .addLifetime _ => old
  | .tick _ => old
  | .others .. => old
  | .giveUp _ => { old with sends := new.sends, outbound := new.outbound }
  | .pollCall _ => { old with pending := new.pending, calls := new.calls }
  | .pollClient _ => { old with pending := new.pending, clientStreams := new.clientStreams }
  | .startRefusal _ =>
    { old with refusals := new.refusals, sends := new.sends, outbound := new.outbound }
  | .advance _ =>
    { old with
      pending := new.pending, calls := new.calls, sends := new.sends, outbound := new.outbound }
  | .finishRun .. => { old with runs := new.runs, sends := new.sends, outbound := new.outbound }
  | .sendServed .. => { old with sends := new.sends, outbound := new.outbound }
  | .readyServed _ => { old with sends := new.sends, outbound := new.outbound }
  | .closeServed _ =>
    { old with servedStreams := new.servedStreams, sends := new.sends, outbound := new.outbound }
  | .receiveServed _ => { old with servedStreams := new.servedStreams }
  | .finishServed .. =>
    { old with
      openStreams := new.openStreams, servedStreams := new.servedStreams
      sends := new.sends, outbound := new.outbound }
  | .receive e => overlayHandled e old new
  | .stop _ =>
    { old with
      openStreams := new.openStreams, servedStreams := new.servedStreams
      consuming := new.consuming }
  | .take => { old with outbound := new.outbound }
  | .abandon => { old with outbound := new.outbound }

theorem giveUp_session (s : Session M S) (t : Ticket) :
    s.giveUp t = { s with sends := (s.giveUp t).sends, outbound := (s.giveUp t).outbound } := by
  unfold Session.giveUp
  split <;> rfl

theorem endCall_session (m : Machine M S) (c : CallId) (state : CallState) :
    (m.endCall c state).session =
      { m.session with
        pending := (m.endCall c state).session.pending
        calls := (m.endCall c state).session.calls } := by
  unfold endCall
  split <;> rfl

theorem closeServed_session (m : Machine M S) (i : ServedStreamId) :
    (m.closeServed i).session = m.session.modifyServed i fun x => { x with inboxClosed := true } := by
  unfold closeServed
  split
  · next hNone =>
      have hLength := List.getElem?_eq_none_iff.mp hNone
      simp [Session.modifyServed, List.modify_eq_self hLength]
  · rfl

theorem closeAll_session (m : Machine M S) (entries : List (Int32 × ServedStreamId)) :
    (entries.foldl (fun m e => m.closeServed e.2) m).session =
      { m.session with
        servedStreams :=
          (entries.foldl (fun m e => m.closeServed e.2) m).session.servedStreams } := by
  induction entries generalizing m with
  | nil => rfl
  | cons e rest ih =>
      rw [List.foldl_cons, ih, closeServed_session]
      rfl

theorem closeOpenStreams_session (m : Machine M S) :
    m.closeOpenStreams.session =
      { m.session with
        openStreams := .empty
        servedStreams := m.closeOpenStreams.session.servedStreams } := by
  unfold closeOpenStreams
  rw [session_onSession, closeAll_session]

theorem finishSend_session (m : Machine M S) (t : Ticket) (result : SendResult) :
    (m.finishSend t result).session =
      { m.session with
        pending := (m.finishSend t result).session.pending
        calls := (m.finishSend t result).session.calls
        sends := (m.finishSend t result).session.sends } := by
  obtain ⟨c, x, _, _, _, he⟩ | ⟨c, x, _, _, _, he⟩ | ⟨_, he⟩ := finishSend_cases m t result
  · rw [he]
    rfl
  · rw [he, endCall_session]
    rfl
  · rw [he]
    rfl

theorem advanceOutbound?_session {m m' : Machine M S} {t : Ticket} (h : m.advanceOutbound? t = some m') :
    m'.session =
      { m.session with
        pending := m'.session.pending, calls := m'.session.calls
        sends := m'.session.sends, outbound := m'.session.outbound } := by
  obtain ⟨outbound, ⟨_, rfl⟩ | ⟨result, _, rfl⟩⟩ := advanceOutbound?_cases h
  · rfl
  · rw [finishSend_session]
    rfl

theorem pollClient?_session {m m' : Machine M S} {c : ClientStreamId}
    (h : m.pollClient? c = some m') :
    m'.session =
      { m.session with
        pending := m'.session.pending, clientStreams := m'.session.clientStreams } := by
  obtain ⟨stream, _, _, ⟨_, rfl⟩ | ⟨content, rest, _, rfl⟩⟩ := pollClient?_cases h
  · rfl
  · obtain ⟨messages, he | he⟩ := sortResponse_cases m c stream content rest
    · rw [he]
      rfl
    · rw [he]
      rfl

theorem removeServed_session (m : Machine M S) (i : ServedStreamId) (id : Int32) :
    (m.removeServed i id).session =
      { m.session with
        openStreams := (m.removeServed i id).session.openStreams
        servedStreams := (m.removeServed i id).session.servedStreams } := by
  unfold removeServed
  split
  · rw [session_onSession, closeServed_session]
    rfl
  · rfl

theorem retire_session (m : Machine M S) (i : ServedStreamId) (x : ServedStream S)
    (result : Except Failure Unit) :
    (m.retire i x result).session =
      { m.session with
        openStreams := (m.removeServed i x.id).session.openStreams
        servedStreams := (m.removeServed i x.id).session.servedStreams.modify i fun y =>
          { y with result := some result, closeSent := y.closeSent || result.isOk } } := by
  have hRetired : (m.retire i x result).session = (m.removeServed i x.id).session.modifyServed i
      fun y => { y with result := some result, closeSent := y.closeSent || result.isOk } := by
    cases result <;> rfl
  rw [hRetired, Session.modifyServed, removeServed_session]

theorem finishServed_session (m : Machine M S) (i : ServedStreamId)
    (result : Except Failure Unit) :
    (m.finishServed i result).session =
      { m.session with
        openStreams := (m.finishServed i result).session.openStreams
        servedStreams := (m.finishServed i result).session.servedStreams
        sends := (m.finishServed i result).session.sends
        outbound := (m.finishServed i result).session.outbound } := by
  cases found : m.session.servedStreams[i]? with
  | none => rw [finishServed, found]
  | some x =>
      rw [finishServed_eq found]
      split
      · rw [retire_session]
      · rw [session_onSession, retire_session]
        rfl

theorem sendServed_session (m : Machine M S) (i : ServedStreamId) (content : Content) :
    (m.sendServed i content).session =
      { m.session with
        sends := (m.sendServed i content).session.sends
        outbound := (m.sendServed i content).session.outbound } := by
  obtain ⟨_, _, he⟩ | ⟨_, he⟩ := sendServed_cases m i content
  · rw [he]
    rfl
  · rw [he]

theorem handle_session (m : Machine M S) (e : Envelope) :
    (m.handle e).session = (Action.receive e).overlay m.session (m.handle e).session := by
  cases e with
  | request r =>
      rw [handle]
      split
      · obtain ⟨_, _, he⟩ | ⟨_, _, he⟩ | ⟨_, _, _, he⟩ := handleStream_cases m r <;>
          · rw [he]
            rfl
      · obtain ⟨_, he⟩ | ⟨_, _, he⟩ := handleCall_cases m r <;>
          · rw [he]
            rfl
  | response r =>
      rw [handle]
      obtain ⟨_, _, he⟩ | ⟨_, _, he⟩ | ⟨_, he⟩ := deliver_cases m r <;>
        · rw [he]
          rfl
  | streamClose id =>
      rw [handle, handleStreamClose]
      split
      · rw [session_onSession, closeServed_session]
        rfl
      · rfl
  | bye =>
      rw [handle, closeOpenStreams_session]
      rfl
  | opening _ => rfl
  | openingAck _ => rfl

/-- An action changes the parts of its row and nothing else. -/
theorem step?_frame {m m' : Machine M S} {a : Action} (h : m.step? a = some m') :
    m'.session = a.overlay m.session m'.session := by
  cases a with
  | call method payload timeout lifetime =>
      obtain ⟨_, rfl⟩ := step?_call_eq_some h
      rfl
  | dropCall c =>
      cases h
      obtain ⟨_, t, _, _, he⟩ | ⟨_, _, _, _, he⟩ | he := dropCall_cases m c
      · rw [he, endCall_session, session_onSession, giveUp_session]
        rfl
      · rw [he, endCall_session]
        rfl
      · rw [he]
        rfl
  | sendClient c payload =>
      obtain ⟨_, _, _, _, _, rfl⟩ := step?_sendClient_eq_some h
      rfl
  | closeClient c =>
      obtain ⟨_, _, _, rfl⟩ := closeClient?_eq_some h
      rfl
  | receiveClient c =>
      cases h
      obtain ⟨_, _, _, _, _, he⟩ | ⟨_, he⟩ := receiveClient_cases m c <;>
        · rw [he]
          rfl
  | dropClient c =>
      cases h
      obtain ⟨_, _, he⟩ | ⟨_, he⟩ := dropClient_cases m c <;>
        · rw [he]
          rfl
  | openStream _ | bye | close | cancel _ | addLifetime _ | tick _ | others _ _ | abandon =>
      cases h
      rfl
  | giveUp t =>
      obtain ⟨_, _, _, rfl⟩ := step?_giveUp_eq_some h
      exact giveUp_session m.session t
  | pollCall c =>
      obtain ⟨call, _, result, _, _, rfl, _⟩ := pollCall?_cases h
      exact endCall_session m c _
  | pollClient c => exact pollClient?_session h
  | startRefusal k =>
      obtain ⟨_, _, rfl⟩ := startRefusal?_eq_some h
      rfl
  | advance t => exact advanceOutbound?_session h
  | finishRun r result =>
      obtain ⟨run, hRun, _, rfl⟩ := step?_finishRun_eq_some h
      rw [finishRun_session hRun]
      rfl
  | sendServed i payload =>
      cases h
      exact sendServed_session m i _
  | readyServed i =>
      cases h
      exact sendServed_session m i _
  | closeServed i =>
      obtain ⟨_, _, _, rfl⟩ := closeByHandler?_eq_some h
      rfl
  | receiveServed i =>
      cases h
      obtain ⟨_, _, _, _, _, he⟩ | ⟨_, he⟩ := receiveServed_cases m i <;>
        · rw [he]
          rfl
  | finishServed i result =>
      obtain ⟨_, _, _, rfl⟩ := step?_finishServed_eq_some h
      exact finishServed_session m i result
  | receive e =>
      obtain ⟨_, _, rfl⟩ := receive?_eq_some h
      exact handle_session m e
  | stop exhausted =>
      obtain ⟨_, _, rfl⟩ := stopConsuming?_eq_some h
      rw [session_onSession, session_cancel, closeOpenStreams_session]
      rfl
  | take =>
      obtain ⟨_, _, _, rfl⟩ := step?_take_eq_some h
      rfl

/-! ### What sessions share -/

/-- The action sends, waits or looks. It makes and cancels no lifetime, counts and notes nothing, and
takes no time. -/
def Action.keepsHost : Action → Bool
  | .call .. => true
  | .dropCall _ => true
  | .sendClient .. => true
  | .closeClient _ => true
  | .receiveClient _ => true
  | .bye => true
  | .giveUp _ => true
  | .pollCall _ => true
  | .startRefusal _ => true
  | .advance _ => true
  | .sendServed .. => true
  | .readyServed _ => true
  | .closeServed _ => true
  | .receiveServed _ => true
  | .take => true
  | .abandon => true
  | _ => false

theorem endCall_toHost (m : Machine M S) (c : CallId) (state : CallState) :
    (m.endCall c state).toHost = m.toHost := by
  unfold endCall
  split <;> rfl

theorem finishSend_toHost (m : Machine M S) (t : Ticket) (result : SendResult) :
    (m.finishSend t result).toHost = m.toHost := by
  obtain ⟨c, _, _, _, _, he⟩ | ⟨c, _, _, _, _, he⟩ | ⟨_, he⟩ := finishSend_cases m t result
  · rw [he]
    rfl
  · rw [he, endCall_toHost]
    rfl
  · rw [he]
    rfl

theorem sendServed_toHost (m : Machine M S) (i : ServedStreamId) (content : Content) :
    (m.sendServed i content).toHost = m.toHost := by
  obtain ⟨_, _, he⟩ | ⟨_, he⟩ := sendServed_cases m i content
  · rw [he]
    rfl
  · rw [he]

/-- Such an action changes nothing that sessions share. -/
theorem step?_toHost {m m' : Machine M S} {a : Action} (h : m.step? a = some m')
    (hKeeps : a.keepsHost = true) : m'.toHost = m.toHost := by
  cases a with
  | call method payload timeout lifetime =>
      obtain ⟨_, rfl⟩ := step?_call_eq_some h
      rfl
  | dropCall c =>
      cases h
      obtain ⟨_, _, _, _, he⟩ | ⟨_, _, _, _, he⟩ | he := dropCall_cases m c
      · rw [he, endCall_toHost]
        rfl
      · rw [he, endCall_toHost]
      · rw [he]
  | sendClient c payload =>
      obtain ⟨_, _, _, _, _, rfl⟩ := step?_sendClient_eq_some h
      rfl
  | closeClient c =>
      obtain ⟨_, _, _, rfl⟩ := closeClient?_eq_some h
      rfl
  | receiveClient c =>
      cases h
      obtain ⟨_, _, _, _, _, he⟩ | ⟨_, he⟩ := receiveClient_cases m c
      · rw [he]
        rfl
      · rw [he]
  | bye | abandon =>
      cases h
      rfl
  | giveUp t =>
      obtain ⟨_, _, _, rfl⟩ := step?_giveUp_eq_some h
      rfl
  | pollCall c =>
      obtain ⟨_, _, _, _, _, rfl, _⟩ := pollCall?_cases h
      exact endCall_toHost m c _
  | startRefusal k =>
      obtain ⟨_, _, rfl⟩ := startRefusal?_eq_some h
      rfl
  | advance t =>
      obtain ⟨outbound, ⟨_, rfl⟩ | ⟨result, _, rfl⟩⟩ := advanceOutbound?_cases h
      · rfl
      · exact finishSend_toHost _ t result
  | sendServed i payload =>
      cases h
      exact sendServed_toHost m i _
  | readyServed i =>
      cases h
      exact sendServed_toHost m i _
  | closeServed i =>
      obtain ⟨_, _, _, rfl⟩ := closeByHandler?_eq_some h
      rfl
  | receiveServed i =>
      cases h
      obtain ⟨_, _, _, _, _, he⟩ | ⟨_, he⟩ := receiveServed_cases m i
      · rw [he]
        rfl
      · rw [he]
  | take =>
      obtain ⟨_, _, _, rfl⟩ := step?_take_eq_some h
      rfl
  | _ => cases hKeeps

/-! ### Whether envelopes are taken -/

/-- Only a stop changes whether envelopes are taken. -/
theorem step?_consuming {m m' : Machine M S} {a : Action} (h : m.step? a = some m')
    (hStop : ∀ exhausted, a ≠ .stop exhausted) : m'.session.consuming = m.session.consuming := by
  rw [step?_frame h]
  cases a with
  | stop exhausted => exact absurd rfl (hStop exhausted)
  | receive e => cases e <;> rfl
  | _ => rfl

end PeerLink.Machine

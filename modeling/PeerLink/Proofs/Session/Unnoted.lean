import PeerLink.Proofs.Session.Execution

/-! A session does not look at what was counted or noted. Two machines that differ in that alone can do the
same things, and afterwards they still differ in nothing else. -/
namespace PeerLink

namespace Machine

variable {M S : Type}

/-- The machine with nothing counted or noted. -/
def unnoted (m : Machine M S) : Machine M S :=
  m.onHost fun h => { h with meter := .new false, journal := [] }

section Operations

variable (m : Machine M S)

theorem session_unnoted : m.unnoted.session = m.session := rfl

theorem isCancelled_unnoted : m.unnoted.isCancelled = m.isCancelled := rfl

theorem isEnded_unnoted : m.unnoted.isEnded = m.isEnded := rfl

/-! ### Calls and sends -/

theorem startCall_unnoted (method : String) (payload : Payload) (timeout : Option Duration)
    (lifetime : Option LifetimeId) : m.unnoted.startCall method payload timeout lifetime =
      (m.startCall method payload timeout lifetime).map unnoted := by
  unfold startCall
  rw [isEnded_unnoted]
  cases m.isEnded <;> rfl

theorem endCall_unnoted (c : CallId) (state : CallState) :
    m.unnoted.endCall c state = (m.endCall c state).unnoted := by
  unfold endCall
  rw [session_unnoted]
  cases m.session.calls[c]? <;> rfl

theorem dropCall_unnoted (c : CallId) : m.unnoted.dropCall c = (m.dropCall c).unnoted := by
  unfold dropCall
  rw [session_unnoted]
  cases m.session.calls[c]? with
  | none => rfl
  | some call =>
      dsimp only
      cases call.state with
      | sending t => exact endCall_unnoted (m.onSession (·.giveUp t)) c .dropped
      | waiting _ => exact endCall_unnoted m c .dropped
      | _ => rfl

theorem pollCall?_unnoted (c : CallId) : m.unnoted.pollCall? c = (m.pollCall? c).map unnoted := by
  have hFinish : ∀ r, some (m.unnoted.endCall c (.returned r)) =
      (some (m.endCall c (.returned r))).map unnoted :=
    fun r => congrArg some (endCall_unnoted m c _)
  have hOrphaned : m.unnoted.isOrphaned c = m.isOrphaned c := rfl
  have hNow : m.unnoted.now = m.now := rfl
  unfold pollCall?
  rw [session_unnoted, hOrphaned, hNow, isCancelled_unnoted]
  cases m.session.calls[c]? with
  | none => rfl
  | some call =>
      dsimp only
      cases call.state with
      | waiting d? =>
          dsimp only
          cases call.response with
          | some content => exact hFinish _
          | none =>
              dsimp only
              split
              · exact hFinish _
              · split
                · exact hFinish _
                · split
                  · exact hFinish _
                  · rfl
      | _ => rfl

theorem finishSend_unnoted (t : Ticket) (result : SendResult) :
    m.unnoted.finishSend t result = (m.finishSend t result).unnoted := by
  have hState : m.unnoted.onSession (·.setSendState t (.done result)) =
      (m.onSession (·.setSendState t (.done result))).unnoted := rfl
  unfold finishSend
  rw [hState]
  generalize m.onSession (·.setSendState t (.done result)) = q
  dsimp only
  rw [session_unnoted]
  cases hSend : q.session.sends[t]? with
  | none => rfl
  | some send =>
      obtain ⟨sender, e, state⟩ := send
      cases sender with
      | call c =>
          cases result with
          | accepted => rfl
          | refused => exact endCall_unnoted q c _
      | _ => rfl

theorem advanceOutbound?_unnoted (t : Ticket) :
    m.unnoted.advanceOutbound? t = (m.advanceOutbound? t).map unnoted := by
  unfold advanceOutbound?
  rw [session_unnoted]
  cases m.session.outbound.advance? t with
  | none => rfl
  | some moved =>
      obtain ⟨outbound, result?⟩ := moved
      cases result? with
      | none => rfl
      | some result =>
          exact congrArg some (finishSend_unnoted (m.onSession fun s => { s with outbound }) t result)

theorem takeOutbound?_unnoted :
    m.unnoted.takeOutbound? = m.takeOutbound?.map fun x => (x.1, x.2.unnoted) := by
  unfold takeOutbound?
  rw [session_unnoted]
  cases m.session.outbound.take? <;> rfl

theorem startRefusal?_unnoted (k : RefusalId) :
    m.unnoted.startRefusal? k = (m.startRefusal? k).map unnoted := by
  unfold startRefusal?
  rw [session_unnoted]
  cases m.session.refusals[k]? with
  | none => rfl
  | some refusal =>
      obtain ⟨response, started⟩ := refusal
      cases started <;> rfl

/-! ### Envelopes of the remote peer -/

theorem closeServed_unnoted (i : ServedStreamId) :
    m.unnoted.closeServed i = (m.closeServed i).unnoted := by
  unfold closeServed
  rw [session_unnoted]
  cases m.session.servedStreams[i]? <;> rfl

theorem closeAll_unnoted (entries : List (Int32 × ServedStreamId)) :
    entries.foldl (fun m e => m.closeServed e.2) m.unnoted =
      (entries.foldl (fun m e => m.closeServed e.2) m).unnoted := by
  induction entries generalizing m with
  | nil => rfl
  | cons e rest ih => rw [List.foldl_cons, List.foldl_cons, closeServed_unnoted, ih]

theorem closeOpenStreams_unnoted : m.unnoted.closeOpenStreams = m.closeOpenStreams.unnoted := by
  unfold closeOpenStreams
  rw [session_unnoted, closeAll_unnoted]
  rfl

theorem deliver_unnoted (r : Response) :
    (m.unnoted.deliver r).unnoted = (m.deliver r).unnoted := by
  unfold deliver
  rw [session_unnoted]
  cases m.session.pending.get? r.id with
  | none => rfl
  | some entry =>
      cases entry with
      | call c isOpen => cases isOpen <;> rfl
      | stream c => rfl

theorem handleCall_unnoted (r : Request) :
    (m.unnoted.handleCall r).unnoted = (m.handleCall r).unnoted := by
  unfold handleCall
  rw [session_unnoted]
  cases m.session.registry.method? r.method <;> rfl

theorem handleStream_unnoted (r : Request) :
    (m.unnoted.handleStream r).unnoted = (m.handleStream r).unnoted := by
  unfold handleStream
  rw [session_unnoted]
  cases m.session.openStreams.get? r.id with
  | some i => rfl
  | none => cases m.session.registry.stream? r.method <;> rfl

theorem handleStreamClose_unnoted (id : Int32) :
    (m.unnoted.handleStreamClose id).unnoted = (m.handleStreamClose id).unnoted := by
  unfold handleStreamClose
  rw [session_unnoted]
  cases m.session.openStreams.get? id with
  | some i =>
      dsimp only
      rw [closeServed_unnoted]
      rfl
  | none => rfl

theorem handle_unnoted (e : Envelope) : (m.unnoted.handle e).unnoted = (m.handle e).unnoted := by
  cases e with
  | request r =>
      simp only [handle]
      split
      · exact handleStream_unnoted m r
      · exact handleCall_unnoted m r
  | response r => exact deliver_unnoted m r
  | streamClose id => exact handleStreamClose_unnoted m id
  | bye =>
      simp only [handle]
      rw [closeOpenStreams_unnoted]
      rfl
  | opening _ => rfl
  | openingAck _ => rfl

theorem receive?_unnoted (e : Envelope) :
    (m.unnoted.receive? e).map unnoted = (m.receive? e).map unnoted := by
  unfold receive?
  rw [session_unnoted, isEnded_unnoted]
  split
  · exact congrArg some (handle_unnoted m e)
  · rfl

theorem stopConsuming?_unnoted (exhausted : Bool) :
    m.unnoted.stopConsuming? exhausted = (m.stopConsuming? exhausted).map unnoted := by
  unfold stopConsuming?
  rw [session_unnoted, isEnded_unnoted, closeOpenStreams_unnoted]
  split <;> rfl

/-! ### Handlers -/

theorem finishRun_unnoted (r : RunId) (result : Except HandlerError Payload) :
    (m.unnoted.finishRun r result).unnoted = (m.finishRun r result).unnoted := by
  unfold finishRun
  rw [session_unnoted]
  cases m.session.runs[r]? with
  | none => rfl
  | some run => cases result <;> rfl

theorem sendServed_unnoted (i : ServedStreamId) (content : Content) :
    m.unnoted.sendServed i content = (m.sendServed i content).unnoted := by
  unfold sendServed
  rw [session_unnoted]
  cases m.session.servedStreams[i]? <;> rfl

theorem closeByHandler?_unnoted (i : ServedStreamId) :
    m.unnoted.closeByHandler? i = (m.closeByHandler? i).map unnoted := by
  unfold closeByHandler?
  rw [session_unnoted]
  cases m.session.servedStreams[i]? with
  | none => rfl
  | some stream =>
      dsimp only
      split
      · rfl
      · exact congrArg some (sendServed_unnoted
          (m.onSession (·.modifyServed i fun x => { x with closeSent := true })) i (.close true))

theorem receiveServed_unnoted (i : ServedStreamId) :
    m.unnoted.receiveServed i = ((m.receiveServed i).1, (m.receiveServed i).2.unnoted) := by
  unfold receiveServed
  rw [session_unnoted, isCancelled_unnoted]
  cases m.session.servedStreams[i]? with
  | none => rfl
  | some stream =>
      dsimp only
      cases stream.inbox <;> rfl

theorem removeServed_unnoted (i : ServedStreamId) (id : Int32) :
    m.unnoted.removeServed i id = (m.removeServed i id).unnoted := by
  unfold removeServed
  rw [session_unnoted, closeServed_unnoted]
  split <;> rfl

theorem finishServed_unnoted (i : ServedStreamId) (result : Except Failure Unit) :
    (m.unnoted.finishServed i result).unnoted = (m.finishServed i result).unnoted := by
  unfold finishServed
  rw [session_unnoted]
  cases m.session.servedStreams[i]? with
  | none => rfl
  | some stream =>
      dsimp only
      rw [removeServed_unnoted]
      cases result with
      | ok _ =>
          dsimp only
          split <;> rfl
      | error e => rfl

/-! ### Streams opened here -/

theorem sortResponse_unnoted (c : ClientStreamId) (stream : ClientStream) (content : Content)
    (rest : List Content) :
    m.unnoted.sortResponse c stream content rest = (m.sortResponse c stream content rest).unnoted := by
  cases content <;> rfl

theorem pollClient?_unnoted (c : ClientStreamId) :
    m.unnoted.pollClient? c = (m.pollClient? c).map unnoted := by
  unfold pollClient?
  rw [session_unnoted, isCancelled_unnoted]
  cases m.session.clientStreams[c]? with
  | none => rfl
  | some stream =>
      dsimp only
      split
      · rfl
      · split
        · rfl
        · cases stream.responses with
          | nil => rfl
          | cons content rest => exact congrArg some (sortResponse_unnoted m c stream content rest)

theorem sendClient_unnoted (c : ClientStreamId) (payload : Payload) :
    m.unnoted.sendClient c payload = (m.sendClient c payload).map unnoted := by
  unfold sendClient
  rw [session_unnoted, isEnded_unnoted, isCancelled_unnoted]
  cases m.session.clientStreams[c]? with
  | none => rfl
  | some stream =>
      dsimp only
      split
      · rfl
      · split <;> rfl

theorem closeClient?_unnoted (c : ClientStreamId) :
    m.unnoted.closeClient? c = (m.closeClient? c).map unnoted := by
  unfold closeClient?
  rw [session_unnoted]
  cases m.session.clientStreams[c]? with
  | none => rfl
  | some stream =>
      dsimp only
      split <;> rfl

theorem receiveClient_unnoted (c : ClientStreamId) :
    m.unnoted.receiveClient c = ((m.receiveClient c).1, (m.receiveClient c).2.unnoted) := by
  unfold receiveClient
  rw [session_unnoted]
  cases m.session.clientStreams[c]? with
  | none => rfl
  | some stream =>
      dsimp only
      cases stream.messages <;> rfl

theorem dropClient_unnoted (c : ClientStreamId) :
    m.unnoted.dropClient c = (m.dropClient c).unnoted := by
  unfold dropClient
  rw [session_unnoted]
  cases m.session.clientStreams[c]? <;> rfl

end Operations

/-- Whatever was counted and noted before, an action can happen or not, and does the same. -/
theorem step?_unnoted (m : Machine M S) (a : Action) :
    (m.unnoted.step? a).map unnoted = (m.step? a).map unnoted := by
  have hMap : ∀ x : Option (Machine M S), (x.map unnoted).map unnoted = x.map unnoted := fun x => by
    cases x <;> rfl
  have hExcept : ∀ {ε : Type} (x : Except ε (Machine M S)),
      (x.map unnoted).toOption.map unnoted = x.toOption.map unnoted := fun x => by
    cases x <;> rfl
  cases a with
  | call method payload timeout lifetime => rw [step?, startCall_unnoted, hExcept, step?]
  | dropCall c => rw [step?, dropCall_unnoted, step?]; rfl
  | sendClient c payload => rw [step?, sendClient_unnoted, hExcept, step?]
  | closeClient c => rw [step?, closeClient?_unnoted, hMap, step?]
  | receiveClient c => rw [step?, receiveClient_unnoted, step?]; rfl
  | dropClient c => rw [step?, dropClient_unnoted, step?]; rfl
  | giveUp t =>
      rw [step?, step?, session_unnoted]
      split <;> rfl
  | pollCall c => rw [step?, pollCall?_unnoted, hMap, step?]
  | pollClient c => rw [step?, pollClient?_unnoted, hMap, step?]
  | startRefusal k => rw [step?, startRefusal?_unnoted, hMap, step?]
  | advance t => rw [step?, advanceOutbound?_unnoted, hMap, step?]
  | finishRun r result =>
      have hRunning : m.unnoted.isRunning r = m.isRunning r := rfl
      simp only [step?, hRunning]
      split
      · exact congrArg some (finishRun_unnoted m r result)
      · rfl
  | sendServed i payload => rw [step?, sendServed_unnoted, step?]; rfl
  | readyServed i => rw [step?, sendServed_unnoted, step?]; rfl
  | closeServed i => rw [step?, closeByHandler?_unnoted, hMap, step?]
  | receiveServed i => rw [step?, receiveServed_unnoted, step?]; rfl
  | finishServed i result =>
      have hServing : m.unnoted.isServing i = m.isServing i := rfl
      simp only [step?, hServing]
      split
      · exact congrArg some (finishServed_unnoted m i result)
      · rfl
  | receive e => exact receive?_unnoted m e
  | stop exhausted => rw [step?, stopConsuming?_unnoted, hMap, step?]
  | take =>
      rw [step?, takeOutbound?_unnoted, step?]
      cases m.takeOutbound? <;> rfl
  | _ => rfl

section Alike

variable {m q m' : Machine M S} {a : Action} (hSame : m.unnoted = q.unnoted)
include hSame

theorem session_of_unnoted : m.session = q.session :=
  congrArg (·.session) hSame

theorem isEnded_of_unnoted : m.isEnded = q.isEnded := by
  rw [← isEnded_unnoted, hSame, isEnded_unnoted]

theorem step?_of_unnoted (h : m.step? a = some m') :
    ∃ q', q.step? a = some q' ∧ m'.unnoted = q'.unnoted := by
  have hMap : (q.step? a).map unnoted = some m'.unnoted := by
    rw [← step?_unnoted, ← hSame, step?_unnoted, h, Option.map_some]
  obtain ⟨q', hStep, hAlike⟩ := Option.map_eq_some_iff.mp hMap
  exact ⟨q', hStep, hAlike.symm⟩

theorem step?_eq_none_of_unnoted (h : m.step? a = none) : q.step? a = none := by
  rw [← Option.map_eq_none_iff (f := unnoted), ← step?_unnoted, ← hSame, step?_unnoted, h,
    Option.map_none]

theorem takeOutbound?_of_unnoted {e : Envelope} (h : m.takeOutbound? = some (e, m')) :
    ∃ q', q.takeOutbound? = some (e, q') ∧ m'.unnoted = q'.unnoted := by
  have hMap : q.takeOutbound?.map (fun x => (x.1, x.2.unnoted)) = some (e, m'.unnoted) := by
    rw [← takeOutbound?_unnoted, ← hSame, takeOutbound?_unnoted, h, Option.map_some]
  obtain ⟨⟨e', q'⟩, hTake, he⟩ := Option.map_eq_some_iff.mp hMap
  obtain ⟨rfl, hAlike⟩ := Prod.mk.inj he
  exact ⟨q', hTake, hAlike.symm⟩

theorem Settled.of_unnoted (h : m.Settled) : q.Settled where
  outbound t := step?_eq_none_of_unnoted (a := .advance t) hSame (h.outbound t)
  calls c := step?_eq_none_of_unnoted (a := .pollCall c) hSame (h.calls c)
  clientStreams c := step?_eq_none_of_unnoted (a := .pollClient c) hSame (h.clientStreams c)
  refusals k := step?_eq_none_of_unnoted (a := .startRefusal k) hSame (h.refusals k)
  consumer := step?_eq_none_of_unnoted (a := .stop false) hSame h.consumer

end Alike

end Machine

end PeerLink

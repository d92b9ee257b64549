import PeerLink.Proofs.Echo.Hearing
import PeerLink.Proofs.Session.Lasting
import PeerLink.Proofs.Session.Speaking

/-! The handlers of the echo server at work. A handler that moves on goes from one stage to the next, and it
says what belongs between them. What it does to its session is something that handlers do. -/
namespace PeerLink.EchoServer

variable {asked : List (Int32 × Ask)} {s s' : ScriptSession} {m m' : Station} {calls : List CallTask}
  {streams : List StreamTask} {id : Int32} {stage stage' : Stage}

/-! ### What is said -/

section Said

variable {sender : Sender} {content : Content}

theorem replies_of_send (sends : s'.sends = s.sends ++ [⟨sender, .response ⟨id, content⟩, .pending⟩])
    (other : Int32) :
    s'.replies other = s.replies other ++ if other = id then [content] else [] := by
  have hSaid : s'.said = s.said ++ [(sender, .response ⟨id, content⟩)] := by
    rw [Session.said, Session.said, sends, List.map_append]
    rfl
  rw [Machine.said_replies hSaid]
  by_cases hSame : other = id
  · subst hSame
    simp [Envelope.reply?]
  · simp [Envelope.reply?, hSame, Ne.symm hSame]

theorem underWay_of_send (sends : s'.sends = s.sends ++ [⟨sender, .response ⟨id, content⟩, .pending⟩])
    {other : Int32} {t : Ticket} (h : UnderWay s' other t) :
    UnderWay s other t ∨ other = id ∧ t = s.sends.length := by
  obtain ⟨z, hz, hPending, hReply⟩ := h
  rw [sends] at hz
  obtain hz | ⟨rfl, rfl⟩ := getElem?_concat_eq_some hz
  · exact .inl ⟨z, hz, hPending, hReply⟩
  · by_cases hSame : id = other
    · exact .inr ⟨hSame.symm, rfl⟩
    · simp [Envelope.reply?, hSame] at hReply

theorem SpeaksFor.of_send
    (sends : s'.sends = s.sends ++ [⟨sender, .response ⟨id, content⟩, .pending⟩]) : SpeaksFor id s s' where
  tickets := by
    rw [sends, List.length_append]
    exact Nat.le_add_right _ _
  others other hOther := by
    rw [replies_of_send sends, if_neg hOther, List.append_nil]
  waits other hOther t ht := (underWay_of_send sends ht).resolve_right fun h => hOther h.1

theorem Replying.send (h : Replying s) (registry : s'.registry = s.registry)
    (sends : s'.sends = s.sends ++ [⟨sender, .response ⟨id, content⟩, .pending⟩])
    (refusals : s'.refusals = s.refusals) (started : s'.calls = s.calls)
    (clients : s'.clientStreams = s.clientStreams) : Replying s' := by
  refine h.keep registry (fun x hx => ?_) refusals started clients
  rw [sends] at hx
  obtain hx | hx := List.mem_append.mp hx
  · exact h.sends x hx
  · rw [List.mem_singleton.mp hx]
    exact ⟨⟨_, rfl⟩, nofun⟩

/-- When no response with its id is under way, one more is said alone. -/
theorem saysAlone {a : Machine.Action} (idle : ∀ t, ¬ UnderWay m.session id t)
    (own : ∀ x other content, m.Says a x (.response ⟨other, content⟩) → other = id) : m.SaysAlone a := by
  intro x other content cause z hz hPending
  obtain rfl := own x other content cause
  obtain ⟨t, ht⟩ := List.mem_iff_getElem?.mp hz
  by_contra hReply
  exact idle t ⟨z, ht, hPending, Option.isSome_iff_ne_none.mpr hReply⟩

end Said

/-! ### Calls -/

/-- The handler of a call returns its message in compact form. -/
theorem Echoing.call_returns (h : Echoing asked m.session calls streams) {i : RunId} {t : CallTask}
    {run : Run CallScript} {message : EchoMessage} (task : calls[i]? = some t)
    (found : m.session.runs[i]? = some run) (asks : asksOf asked run.id = [.call message])
    (payload : run.payload = message.payload) (handler : run.handler = callScript)
    (running : run.result = none) (said : m.session.replies run.id = []) :
    Echoing asked (m.finishRun i (.ok message.reply)).session (calls.set i { t with progress := .returned })
        streams ∧
      m.Works (m.finishRun i (.ok message.reply)) := by
  have hFinish : (m.finishRun i (.ok message.reply)).session =
      { m.session with
        runs := m.session.runs.modify i fun x => { x with result := some (.ok message.reply) }
        }.beginSend (.run i) (.response ⟨run.id, .payload message.reply⟩) := by
    exact Machine.finishRun_session found _
  have hSends : (m.finishRun i (.ok message.reply)).session.sends =
      m.session.sends ++ [⟨.run i, .response ⟨run.id, .payload message.reply⟩, .pending⟩] := by
    rw [hFinish]
    rfl
  have hRuns : ∀ j, (m.finishRun i (.ok message.reply)).session.runs[j]? =
      if j = i then some { run with result := some (.ok message.reply) } else m.session.runs[j]? := by
    rw [Machine.finishRun_runs]
    exact getElem?_modify_of_eq found _
  have hReplying : Replying (m.finishRun i (.ok message.reply)).session :=
    h.replying.send (by rw [hFinish]; rfl) hSends (by rw [hFinish]; rfl) (by rw [hFinish]; rfl)
      (by rw [hFinish]; rfl)
  have hRunning : m.isRunning i = true := Machine.isRunning_iff.mpr ⟨run, found, running⟩
  have hAlone : m.SaysAlone (.finishRun i (.ok message.reply)) := by
    refine saysAlone (not_underWay said) fun _ _ _ cause => ?_
    cases cause with
    | run _ again _ =>
        cases found.symm.trans again
        rfl
  refine ⟨?_, (Machine.Works.refl m).step (a := .finishRun i (.ok message.reply)) (if_pos hRunning) rfl rfl
    hAlone⟩
  refine h.call_step found task hReplying hRuns rfl (by rw [hFinish]; rfl) (.of_send hSends)
    ⟨message, asks, payload, handler, ?_⟩
  change CallStage _ _ _ (Session.replies _ run.id)
  rw [replies_of_send hSends, if_pos rfl, said, List.nil_append]
  exact .answered _

/-- The handler of a call moves on. -/
theorem Echoing.stepCall (h : Echoing asked m.session calls streams) {i : RunId} {t t' : CallTask}
    (task : calls[i]? = some t) (step : t.step? m stage = some (t', m', stage')) :
    Echoing asked m'.session (calls.set i t') streams ∧ m.Works m' := by
  obtain ⟨r, progress, watchers⟩ := t
  obtain rfl : r = i := h.attending.call i _ task
  simp only [CallTask.step?] at step
  cases found : m.session.runs[r]? with
  | none =>
      rw [found] at step
      cases step
  | some run =>
      rw [found] at step
      obtain ⟨message, hAsks, hPayload, hHandler, hStage⟩ := h.runs r run found
      rw [callProgress, progressOf_eq task] at hStage
      generalize hResult : run.result = result, hSaid : m.session.replies run.id = said at hStage
      cases hStage with
      | fresh =>
          simp only [CallTask.start, hHandler, callScript, hPayload, message.reads] at step
          cases step
          have hKept : ∀ j, m.session.runs[j]? = if j = r then some run else m.session.runs[j]? := by
            intro j
            split
            · next hj => rw [hj, found]
            · rfl
          refine ⟨h.call_step found task h.replying hKept rfl rfl (.of_sends _ rfl) ?_, .refl m⟩
          exact ⟨message, hAsks, hPayload, hHandler, by rw [hResult, hSaid]; exact .decoded⟩
      | decoded =>
          simp only [CallTask.result, hHandler, callScript, message.encode_text, Except.mapError,
            CallTask.finish] at step
          cases step
          exact h.call_returns task found hAsks hPayload hHandler hResult hSaid
      | answered _ => cases step

/-! ### Streams -/

section Streams

variable {i : ServedStreamId} {t : StreamTask} {x x' : ServedStream StreamScript}
  {progress : StreamProgress}

theorem Attending.set_stream (h : Attending calls streams) (found : streams[i]? = some t)
    (progress : StreamProgress) : Attending calls (streams.set i { t with progress }) :=
  ⟨h.call, h.stream.set found rfl, h.watchers⟩

/-- The handler of a stream moves on. -/
theorem Echoing.stream_moves (h : Echoing asked s calls streams) (task : streams[i]? = some t)
    (found : s.servedStreams[i]? = some x) (replying : Replying s') (runs : s'.runs = s.runs)
    (served : ∀ j, s'.servedStreams[j]? = if j = i then some x' else s.servedStreams[j]?)
    (same : x'.id = x.id) (speaks : SpeaksFor x.id s s') (stage : StreamServed asked s' progress x') :
    Echoing asked s' calls (streams.set i { t with progress }) := by
  refine h.stream_step found replying (h.attending.set_stream task progress) (fun j hj => ?_) runs served
    same speaks (fun _ _ => rfl) ?_
  · rw [streamProgress, progressOf_set task, if_neg hj]
  · rw [streamProgress, progressOf_set task, if_pos rfl]
    exact stage

/-- It does not touch its session. -/
theorem Echoing.stream_turns (h : Echoing asked s calls streams) (task : streams[i]? = some t)
    (found : s.servedStreams[i]? = some x) (stage : StreamServed asked s progress x) :
    Echoing asked s calls (streams.set i { t with progress }) := by
  refine h.stream_moves task found h.replying rfl (fun j => ?_) rfl (.of_sends _ rfl) stage
  split
  · next hj => rw [hj, found]
  · rfl

/-- What the handler says is said alone when no other response of its stream is under way. -/
theorem saysAlone_served {a : Machine.Action} (found : m.session.servedStreams[i]? = some x)
    (idle : ∀ u, ¬ UnderWay m.session x.id u)
    (own : a = .readyServed i ∨ (∃ payload, a = .sendServed i payload) ∨ a = .finishServed i (.ok ())) :
    m.SaysAlone a := by
  refine saysAlone idle fun _ _ _ cause => ?_
  obtain rfl | ⟨payload, rfl⟩ | rfl := own
  all_goals
    cases cause
    next again =>
      cases found.symm.trans again
      rfl

/-- It says something, while nothing else that it said is under way. -/
theorem Echoing.stream_says (h : Echoing asked s calls streams) (task : streams[i]? = some t)
    (found : s.servedStreams[i]? = some x) (idle : ∀ u, ¬ UnderWay s x.id u) {sender : Sender}
    {content : Content}
    {f : ServedStream StreamScript → ServedStream StreamScript} {outbound : Outbound}
    (session : s' = { s with
      servedStreams := s.servedStreams.modify i f, outbound
      sends := s.sends ++ [⟨sender, .response ⟨x.id, content⟩, .pending⟩] }) (same : (f x).id = x.id)
    (stage : s'.replies x.id = s.replies x.id ++ [content] → s.sends.length < s'.sends.length →
      (∀ actions, Waits s' (.acting actions (.sending s.sends.length)) x.id) →
      StreamServed asked s' progress (f x)) :
    Echoing asked s' calls (streams.set i { t with progress }) := by
  have hSends : s'.sends = s.sends ++ [⟨sender, .response ⟨x.id, content⟩, .pending⟩] := by rw [session]
  refine h.stream_moves task found (h.replying.send (by rw [session]) hSends (by rw [session])
    (by rw [session]) (by rw [session])) (by rw [session]) (fun j => ?_) same (.of_send hSends)
    (stage ?_ ?_ fun actions => .inr fun u hu => ⟨actions, ?_⟩)
  · rw [session]
    exact getElem?_modify_of_eq found f j
  · rw [replies_of_send hSends, if_pos rfl]
  · rw [hSends, List.length_append]
    exact Nat.lt_succ_self _
  · rw [((underWay_of_send hSends hu).resolve_left (idle u)).2]

/-- It has waited for a send, and goes on with messages. -/
theorem Echoing.stream_goes_on (h : Echoing asked m.session calls streams) (task : streams[i]? = some t)
    (found : m.session.servedStreams[i]? = some x) {ticket : Ticket}
    (kept : m.session.sendResult? ticket ≠ some .refused) {actions : List StreamAction}
    (pauses : actions = [.ready, .echo] ∨ actions = [.echo])
    (waits : Waits m.session (.acting actions (.sending ticket)) x.id) {t' : StreamTask}
    (step : (m.session.sendResult? ticket).map (t.sent m stage x actions) = some (t', m', stage'))
    (served : (∀ u, ¬ UnderWay m.session x.id u) → StreamServed asked m.session (.acting [.echo] .none) x) :
    Echoing asked m'.session calls (streams.set i t') ∧ m.Works m' := by
  obtain ⟨result, hResult, hSent⟩ := Option.map_eq_some_iff.mp step
  have hNext : t.sent m stage x actions .accepted = (t.act [.echo] .none, m, stage) := by
    obtain rfl | rfl := pauses
    · rfl
    · rfl
  have hIdle : ∀ u, ¬ UnderWay m.session x.id u := by
    intro u hUnderWay
    obtain ⟨_, he⟩ := (waits.resolve_left nofun) u hUnderWay
    cases he
    obtain ⟨z, hz, hPending, _⟩ := hUnderWay
    obtain ⟨y, hy, hDone⟩ := Machine.sendResult?_eq_some hResult
    cases hz.symm.trans hy
    rw [hPending] at hDone
    cases hDone
  cases result with
  | refused => exact absurd hResult kept
  | accepted =>
      cases hNext.symm.trans hSent
      exact ⟨h.stream_turns task found (served hIdle), .refl m⟩

/-! #### What the handler of a stream says, one stage after another -/

section Stages

variable {done left : List EchoMessage} (h : Echoing asked m.session calls streams)
  (task : streams[i]? = some t) (found : m.session.servedStreams[i]? = some x)
  (asks : asksOf asked x.id = streamAsks (done ++ left) x.inboxClosed) (used : done ++ left ≠ [])
  (handler : x.handler = streamScript) (running : x.result = none) (unclosed : x.closeSent = false)

include h task found asks used handler running unclosed

/-- First of all it says that it is ready. -/
theorem Echoing.greets (inbox : x.inbox = left.map EchoMessage.payload) (first : done = [])
    (said : m.session.replies x.id = []) :
    Echoing asked (m.sendServed i (.ready true)).session calls
      (streams.set i { t with progress := .acting [.ready, .echo] (.sending m.session.nextTicket) }) ∧
      m.Works (m.sendServed i (.ready true)) := by
  have hIdle := not_underWay said
  refine ⟨?_, (Machine.Works.refl m).step (a := .readyServed i) rfl rfl rfl
    (saysAlone_served found hIdle (.inl rfl))⟩
  have hSession : (m.sendServed i (.ready true)).session =
      (m.session.modifyServed i id).beginSend (.served i) (.response ⟨x.id, .ready true⟩) := by
    rw [Session.modifyServed, List.modify_id, Machine.sendServed_eq found]
    rfl
  refine h.stream_says task found hIdle hSession rfl fun hReplies hLater hOnly => ?_
  refine ⟨done, left, asks, used, inbox, handler, hOnly _, ?_⟩
  change StreamStage _ x _ _ _ (Session.replies _ x.id)
  rw [hReplies, said]
  exact .greeting _ hLater first running unclosed

/-- It takes the next message and sends it back. -/
theorem Echoing.echoes {message : EchoMessage} {rest : List EchoMessage} (next : left = message :: rest)
    (idle : ∀ u, ¬ UnderWay m.session x.id u) (inbox : x.inbox = left.map EchoMessage.payload)
    (said : m.session.replies x.id = .ready true :: done.map fun m => .payload m.reply) :
    ∃ m₁, m.receiveServed i = (.message message.payload, m₁) ∧
      Echoing asked (m₁.sendServed i (.payload message.reply)).session calls
        (streams.set i { t with progress := .acting [.echo] (.sending m₁.session.nextTicket) }) ∧
      m.Works (m₁.sendServed i (.payload message.reply)) := by
  subst next
  let m₁ := m.onSession (·.modifyServed i fun x => { x with inbox := rest.map EchoMessage.payload })
  have hReceive : m.receiveServed i = (.message message.payload, m₁) := by
    unfold Machine.receiveServed
    rw [found]
    simp only [inbox, List.map_cons]
    rfl
  have found₁ : m₁.session.servedStreams[i]? = some { x with inbox := rest.map EchoMessage.payload } :=
    (getElem?_modify_of_eq found _ i).trans (if_pos rfl)
  have hSession : (m₁.sendServed i (.payload message.reply)).session =
      m₁.session.beginSend (.served i) (.response ⟨x.id, .payload message.reply⟩) := by
    rw [Machine.sendServed_eq found₁]
    rfl
  have hFirst : m.step? (.receiveServed i) = some m₁ := by
    rw [Machine.step?, hReceive]
  have hWorks : m.Works m₁ := (Machine.Works.refl m).step hFirst rfl rfl fun _ _ _ cause => by cases cause
  refine ⟨m₁, hReceive, ?_, hWorks.step (a := .sendServed i message.reply) rfl rfl rfl
    (saysAlone_served found₁ idle (.inr (.inl ⟨_, rfl⟩)))⟩
  have hContents : (Content.ready true :: done.map fun m => Content.payload m.reply) ++
      [.payload message.reply] = .ready true :: (done ++ [message]).map fun m => .payload m.reply := by
    rw [List.map_append]
    rfl
  refine h.stream_says task found idle hSession rfl fun hReplies hLater hOnly => ?_
  refine ⟨done ++ [message], rest, ?_, ?_, rfl, handler, hOnly _, ?_⟩
  · rw [List.append_assoc]
    exact asks
  · rw [List.append_assoc]
    exact used
  · change StreamStage _ _ _ _ _ (Session.replies _ x.id)
    rw [hReplies, said, hContents]
    exact .echoing _ (.inr ⟨_, hLater, rfl⟩) running unclosed

/-- When the client has closed the stream and all messages were sent back, it returns, and with that closes
the stream from its side. -/
theorem Echoing.leaves (idle : ∀ u, ¬ UnderWay m.session x.id u)
    (inbox : x.inbox = left.map EchoMessage.payload) (all : left = []) (closed : x.inboxClosed = true)
    (gone : m.session.openStreams.get? x.id ≠ some i)
    (said : m.session.replies x.id = .ready true :: done.map fun m => .payload m.reply) :
    Echoing asked (m.finishServed i (.ok ())).session calls
        (streams.set i { t with progress := .returned }) ∧
      m.Works (m.finishServed i (.ok ())) := by
  have hServing : m.isServing i = true := Machine.isServing_iff.mpr ⟨x, found, running⟩
  refine ⟨?_, (Machine.Works.refl m).step (a := .finishServed i (.ok ())) (if_pos hServing) rfl rfl
    (saysAlone_served found idle (.inr (.inr rfl)))⟩
  have hSession : (m.finishServed i (.ok ())).session =
      { m.session with
        servedStreams := m.session.servedStreams.modify i fun x =>
          { x with result := some (.ok ()), closeSent := true }
        }.beginSend (.completion i) (.response ⟨x.id, .close true⟩) := by
    unfold Machine.finishServed
    rw [found]
    simp only [Machine.removeServed, if_neg gone, unclosed, Bool.false_eq_true, if_false,
      Machine.onSession, Machine.onHost, Machine.cancel, Session.modifyServed, List.modify_modify_eq]
    rfl
  refine h.stream_says task found idle hSession rfl fun hReplies _ _ => ?_
  refine ⟨done, left, asks, used, inbox, handler, .inl rfl, ?_⟩
  change StreamStage _ _ _ _ _ (Session.replies _ x.id)
  rw [hReplies, said]
  exact .returned all closed

end Stages

end Streams

/-- The handler of a stream moves on. Its sends are not refused, its stream is cancelled only when it was
closed, and it is not in the table then. -/
theorem Echoing.stepStream (h : Echoing asked m.session calls streams) {i : ServedStreamId}
    {t t' : StreamTask} (task : streams[i]? = some t)
    (kept : ∀ ticket, m.session.sendResult? ticket ≠ some .refused)
    (live : ∀ x, m.session.servedStreams[i]? = some x → x.inboxClosed = false →
      m.isCancelled x.lifetime = false)
    (gone : ∀ x, m.session.servedStreams[i]? = some x → x.inboxClosed = true →
      m.session.openStreams.get? x.id ≠ some i)
    (step : t.step? m stage = some (t', m', stage')) :
    Echoing asked m'.session calls (streams.set i t') ∧ m.Works m' := by
  obtain ⟨r, progress⟩ := t
  obtain rfl : r = i := h.attending.stream i _ task
  simp only [StreamTask.step?] at step
  cases found : m.session.servedStreams[r]? with
  | none =>
      rw [found] at step
      cases step
  | some x =>
      rw [found] at step
      obtain ⟨done, left, hAsks, hSome, hInbox, hHandler, hWaits, hStage⟩ := h.served r x found
      rw [streamProgress, progressOf_eq task] at hWaits hStage
      generalize hSaid : m.session.replies x.id = said at hStage
      cases hStage with
      | starting _ fresh first running unclosed =>
          obtain rfl | rfl := fresh
          · simp only [hHandler, streamScript] at step
            cases step
            refine ⟨h.stream_turns task found ⟨done, left, hAsks, hSome, hInbox, hHandler,
              .inr fun u hu => absurd hu (not_underWay hSaid u), ?_⟩, .refl m⟩
            rw [hSaid]
            exact .starting _ (.inr rfl) first running unclosed
          · cases step
            exact h.greets task found hAsks hSome hHandler running unclosed hInbox first hSaid
      | greeting ticket begun first running unclosed =>
          refine h.stream_goes_on task found (kept ticket) (.inl rfl) hWaits step fun hIdle =>
            ⟨done, left, hAsks, hSome, hInbox, hHandler, .inr fun u hu => absurd hu (hIdle u), ?_⟩
          rw [hSaid, first]
          exact .echoing .none (.inl rfl) running unclosed
      | echoing pause begun running unclosed =>
          obtain rfl | ⟨ticket, begun, rfl⟩ := begun
          · cases hLeft : left with
            | nil =>
                rw [hLeft] at hInbox
                simp only [StreamTask.act?, StreamTask.receiveThen?, Machine.receiveServed, found, hInbox,
                  List.map_nil] at step
                cases hClosed : x.inboxClosed with
                | false =>
                    rw [hClosed, live x found hClosed] at step
                    cases step
                | true =>
                    rw [hClosed] at step
                    cases step
                    rw [hLeft] at hAsks hSome
                    refine ⟨h.stream_turns task found ⟨done, [], hAsks, hSome, hInbox, hHandler,
                      .inr fun u hu => absurd hu (hWaits.idle u), ?_⟩, .refl m⟩
                    rw [hSaid]
                    exact .leaving rfl hClosed running unclosed
            | cons message rest =>
                obtain ⟨m₁, hReceive, hEchoes⟩ :=
                  h.echoes task found hAsks hSome hHandler running unclosed hLeft hWaits.idle hInbox hSaid
                simp only [StreamTask.act?, StreamTask.receiveThen?, hReceive, StreamTask.decodeEcho,
                  message.reads, StreamTask.sendMessage, message.encode_text] at step
                cases step
                exact hEchoes
          · refine h.stream_goes_on task found (kept ticket) (.inr rfl) hWaits step fun hIdle =>
              ⟨done, left, hAsks, hSome, hInbox, hHandler, .inr fun u hu => absurd hu (hIdle u), ?_⟩
            rw [hSaid]
            exact .echoing .none (.inl rfl) running unclosed
      | leaving all closed running unclosed =>
          cases step
          exact h.leaves task found hAsks hSome hHandler running unclosed hWaits.idle hInbox all closed
            (gone x found closed) hSaid
      | returned all closed => cases step

/-! ### Handlers that cannot move on -/

/-- When its handler cannot move on, a call was answered. -/
theorem Echoing.call_at_rest (h : Echoing asked m.session calls streams) {i : RunId} {run : Run CallScript}
    (found : m.session.runs[i]? = some run) {t : CallTask} (task : calls[i]? = some t)
    (rest : t.step? m stage = none) : m.session.replies run.id = replies (asksOf asked run.id) := by
  obtain ⟨r, progress, watchers⟩ := t
  obtain rfl : r = i := h.attending.call i _ task
  obtain ⟨message, hAsks, hPayload, hHandler, hStage⟩ := h.runs r run found
  simp only [CallTask.step?, found] at rest
  rw [callProgress, progressOf_eq task] at hStage
  rw [hAsks]
  generalize run.result = result, m.session.replies run.id = said at hStage ⊢
  cases hStage with
  | fresh => cases rest
  | decoded => cases rest
  | answered result => rfl

/-- When its handler cannot move on and no send is under way, all messages of a stream were sent back, and
it was closed if the client has closed it. -/
theorem Echoing.stream_at_rest (h : Echoing asked m.session calls streams) {i : ServedStreamId}
    {x : ServedStream StreamScript} (found : m.session.servedStreams[i]? = some x) {t : StreamTask}
    (task : streams[i]? = some t)
    (ended : ∀ ticket < m.session.sends.length, m.session.sendResult? ticket ≠ none)
    (rest : t.step? m stage = none) : m.session.replies x.id = replies (asksOf asked x.id) := by
  obtain ⟨r, progress⟩ := t
  obtain rfl : r = i := h.attending.stream i _ task
  obtain ⟨done, left, hAsks, hSome, hInbox, hHandler, _, hStage⟩ := h.served r x found
  simp only [StreamTask.step?, found] at rest
  rw [streamProgress, progressOf_eq task] at hStage
  rw [hAsks, replies_streamAsks hSome]
  generalize m.session.replies x.id = said at hStage ⊢
  cases hStage with
  | starting _ fresh =>
      obtain rfl | rfl := fresh
      · simp only [hHandler, streamScript] at rest
        cases rest
      · cases rest
  | greeting ticket begun => exact absurd (Option.map_eq_none_iff.mp rest) (ended ticket begun)
  | echoing pause begun =>
      obtain rfl | ⟨ticket, begun, rfl⟩ := begun
      · simp only [StreamTask.act?, StreamTask.receiveThen?, Machine.receiveServed, found, hInbox] at rest
        cases left with
        | cons message more => cases rest
        | nil =>
            cases hClosed : x.inboxClosed with
            | true =>
                rw [hClosed] at rest
                cases rest
            | false => simp
      · exact absurd (Option.map_eq_none_iff.mp rest) (ended ticket begun)
  | leaving => cases rest
  | returned all closed =>
      rw [all, closed, List.append_nil, if_pos rfl]

end PeerLink.EchoServer

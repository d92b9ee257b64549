import PeerLink.Proofs.Echo.Serving
import PeerLink.Proofs.Session.Flow
import PeerLink.Proofs.Session.OpenStreams

/-! What the echo server makes of the envelopes that it gets. An id that was not used begins a run or a
stream of its own. More messages for a stream reach the one stream with that id, which is in the table as
long as it was not closed. -/
namespace PeerLink.EchoServer

variable {asked : List (Int32 × Ask)} {s s' : ScriptSession} {m m' : Station} {calls : List CallTask}
  {streams : List StreamTask} {id : Int32} {ask : Ask} {past : Machine.History CallScript StreamScript}

/-! ### Replies -/

theorem replies_of_sends (h : s'.sends = s.sends) (id : Int32) : s'.replies id = s.replies id := by
  rw [Session.replies, Session.sent, Session.said, h]
  rfl

theorem underWay_of_sends (h : s'.sends = s.sends) {id : Int32} (t : Ticket) (hUnderWay : UnderWay s' id t) :
    UnderWay s id t := by
  rwa [UnderWay, h] at hUnderWay

/-- A session that replies goes on replying, whatever it sends. -/
theorem Replying.keep (h : Replying s) (registry : s'.registry = s.registry)
    (sends : ∀ x ∈ s'.sends, (∃ r, x.envelope = .response r) ∧ x.state ≠ .givenUp)
    (refusals : s'.refusals = s.refusals) (started : s'.calls = s.calls)
    (clients : s'.clientStreams = s.clientStreams) : Replying s' where
  method := registry ▸ h.method
  stream := registry ▸ h.stream
  sends := sends
  refusals := refusals.trans h.refusals
  calls := started.trans h.calls
  clientStreams := clients.trans h.clientStreams

/-- What was said with an id is the beginning of what should be answered. -/
theorem CallServed.said_first {progress : CallProgress} {run : Run CallScript}
    (h : CallServed asked s progress run) : s.replies run.id <+: replies (asksOf asked run.id) := by
  obtain ⟨m, hAsks, _, _, hStage⟩ := h
  rw [hAsks]
  generalize run.result = result, s.replies run.id = said at hStage
  cases hStage with
  | fresh => exact List.nil_prefix
  | decoded => exact List.nil_prefix
  | answered result => exact List.prefix_rfl

theorem StreamServed.said_first {progress : StreamProgress} {x : ServedStream StreamScript}
    (h : StreamServed asked s progress x) : s.replies x.id <+: replies (asksOf asked x.id) := by
  obtain ⟨done, left, hAsks, hSome, _, _, _, hStage⟩ := h
  rw [hAsks, replies_streamAsks hSome]
  generalize hClosed : x.inboxClosed = closed
  have hDone : (Content.ready true :: done.map fun m => Content.payload m.reply) <+:
      Content.ready true :: (done ++ left).map fun m => .payload m.reply := by
    rw [List.map_append, ← List.cons_append]
    exact List.prefix_append _ _
  generalize s.replies x.id = said at hStage
  cases hStage with
  | starting => exact List.nil_prefix
  | greeting => exact (List.prefix_cons_inj _).mpr List.nil_prefix
  | echoing => exact hDone.trans (List.prefix_append _ _)
  | leaving => exact hDone.trans (List.prefix_append _ _)
  | returned all isClosed =>
      subst all
      have hClose : closed = true := by rw [← hClosed, isClosed]
      rw [hClose, List.append_nil]
      exact List.prefix_rfl

theorem Echoing.said_first (h : Echoing asked s calls streams) (id : Int32) :
    s.replies id <+: replies (asksOf asked id) := by
  by_cases hUsed : id ∈ idsOf s
  · obtain hRun | hServed := List.mem_append.mp hUsed
    · obtain ⟨run, hMem, rfl⟩ := List.mem_map.mp hRun
      obtain ⟨i, hi⟩ := List.mem_iff_getElem?.mp hMem
      exact (h.runs i run hi).said_first
    · obtain ⟨x, hMem, rfl⟩ := List.mem_map.mp hServed
      obtain ⟨i, hi⟩ := List.mem_iff_getElem?.mp hMem
      exact (h.served i x hi).said_first
  · rw [h.silent id hUsed]
    exact List.nil_prefix

/-! ### Steps that change neither runs nor streams -/

theorem Echoing.quiet (h : Echoing asked s calls streams) (replying : Replying s')
    (runs : s'.runs = s.runs) (served : s'.servedStreams = s.servedStreams)
    (said : s'.said = s.said) (waits : ∀ id t, UnderWay s' id t → UnderWay s id t) :
    Echoing asked s' calls streams := by
  have hReplies : ∀ id, s'.replies id = s.replies id := fun id => by
    rw [Session.replies, Session.sent, said]
    rfl
  have hTickets : s.sends.length ≤ s'.sends.length := by
    have hLength := congrArg List.length said
    rw [Session.said, Session.said, List.length_map, List.length_map] at hLength
    exact hLength.ge
  have hIds : idsOf s' = idsOf s := by rw [idsOf, idsOf, runs, served]
  refine ⟨replying, h.attending, fun i run hRun => ?_, fun i x hx => ?_, hIds ▸ h.nodup,
    fun id hId => hIds ▸ h.known id hId, fun id hId => ?_⟩
  · exact (h.runs i run (runs ▸ hRun)).other rfl (hReplies _)
  · exact (h.served i x (served ▸ hx)).other rfl hTickets (hReplies _) (waits _)
  · exact (hReplies id).trans (h.silent id (hIds ▸ hId))

theorem finishSend_calls (h : m.session.calls = []) (t : Ticket) (result : SendResult) :
    (m.finishSend t result).session.calls = [] := by
  obtain ⟨c, _, _, _, _, he⟩ | ⟨c, _, _, _, _, he⟩ | ⟨_, he⟩ := Machine.finishSend_cases m t result
  · rw [he]
    simp [Session.modifyCall, Session.setSendState, h]
  · rw [he]
    simp [Machine.endCall, Session.setSendState, h]
  · rw [he]
    exact h

/-- A sender moves on. -/
theorem Echoing.advance (h : Echoing asked m.session calls streams) {t : Ticket}
    (last : m.advanceOutbound? t = some m') : Echoing asked m'.session calls streams := by
  have hFrame := Machine.advanceOutbound?_session last
  obtain ⟨hCalls, hSends, hLength, hUnderWay⟩ : m'.session.calls = [] ∧
      (∀ x ∈ m'.session.sends, (∃ r, x.envelope = .response r) ∧ x.state ≠ .givenUp) ∧
      m'.session.sends.length = m.session.sends.length ∧
      ∀ id u, UnderWay m'.session id u → UnderWay m.session id u := by
    obtain ⟨outbound, ⟨_, rfl⟩ | ⟨result, _, rfl⟩⟩ := Machine.advanceOutbound?_cases last
    · exact ⟨h.replying.calls, h.replying.sends, rfl, fun _ _ => id⟩
    · refine ⟨finishSend_calls ?_ t result, fun x hx => ?_, ?_, fun id u ⟨x, hx, hPending, hReply⟩ => ?_⟩
      · exact h.replying.calls
      · rw [Machine.finishSend_sends] at hx
        obtain ⟨i, hi⟩ := List.mem_iff_getElem?.mp hx
        obtain ⟨_, hOld⟩ | ⟨_, y, hy, rfl⟩ := getElem?_modify_eq_some hi
        · exact h.replying.sends x (List.mem_of_getElem? hOld)
        · exact ⟨(h.replying.sends y (List.mem_of_getElem? hy)).1, nofun⟩
      · rw [Machine.finishSend_sends, List.length_modify]
        rfl
      · rw [Machine.finishSend_sends] at hx
        obtain ⟨_, hOld⟩ | ⟨_, y, _, rfl⟩ := getElem?_modify_eq_some hx
        · exact ⟨x, hOld, hPending, hReply⟩
        · cases hPending
  have hSaid := Machine.said_eq (Machine.step?_sends_retained (a := .advance t) last) hLength
  exact h.quiet (h.replying.keep (by rw [hFrame]) hSends (by rw [hFrame])
    (hCalls.trans h.replying.calls.symm) (by rw [hFrame])) (by rw [hFrame]) (by rw [hFrame]) hSaid hUnderWay

/-! ### Ids -/

/-- Whoever has an id was asked for something. -/
theorem Echoing.asked_of_mem (h : Echoing asked s calls streams) (hUsed : id ∈ idsOf s) :
    asksOf asked id ≠ [] := by
  obtain hRun | hServed := List.mem_append.mp hUsed
  · obtain ⟨run, hMem, rfl⟩ := List.mem_map.mp hRun
    obtain ⟨i, hi⟩ := List.mem_iff_getElem?.mp hMem
    obtain ⟨m, hAsks, _⟩ := h.runs i run hi
    rw [hAsks]
    exact List.cons_ne_nil _ _
  · obtain ⟨x, hMem, rfl⟩ := List.mem_map.mp hServed
    obtain ⟨i, hi⟩ := List.mem_iff_getElem?.mp hMem
    obtain ⟨done, left, hAsks, hSome, _⟩ := h.served i x hi
    intro hNone
    have hEmpty : streamAsks (done ++ left) x.inboxClosed = streamAsks [] false := hAsks.symm.trans hNone
    exact hSome (streamAsks_inj hEmpty).1

/-- A stream that was asked for and not closed is there, and its input is open. -/
theorem Echoing.stream_of_asks (h : Echoing asked s calls streams) {messages : List EchoMessage}
    (hAsks : asksOf asked id = streamAsks messages false) (hSome : messages ≠ []) :
    ∃ (i : ServedStreamId) (x : ServedStream StreamScript), s.servedStreams[i]? = some x ∧ x.id = id ∧
      x.inboxClosed = false := by
  have hUsed : id ∈ idsOf s := by
    refine h.known id fun hNone => hSome ?_
    have hEmpty : streamAsks messages false = streamAsks [] false := hAsks.symm.trans hNone
    exact (streamAsks_inj hEmpty).1
  obtain hRun | hServed := List.mem_append.mp hUsed
  · obtain ⟨run, hMem, rfl⟩ := List.mem_map.mp hRun
    obtain ⟨i, hi⟩ := List.mem_iff_getElem?.mp hMem
    obtain ⟨m, hCall, _⟩ := h.runs i run hi
    have hMember : Ask.call m ∈ streamAsks messages false := by
      rw [← hAsks, hCall]
      exact List.mem_singleton.mpr rfl
    exact absurd hMember (call_notMem_streamAsks m messages false)
  · obtain ⟨x, hMem, rfl⟩ := List.mem_map.mp hServed
    obtain ⟨i, hi⟩ := List.mem_iff_getElem?.mp hMem
    obtain ⟨done, left, hOwn, _⟩ := h.served i x hi
    exact ⟨i, x, hi, rfl, (streamAsks_inj (hOwn.symm.trans hAsks)).2⟩

/-! ### A new id -/

/-- If nothing was said with an id, nothing is under way. -/
theorem not_underWay (h : s.replies id = []) (t : Ticket) : ¬ UnderWay s id t := by
  rintro ⟨z, hz, _, hReply⟩
  have hNone := List.filterMap_eq_nil_iff.mp h _ (List.mem_map_of_mem (List.mem_map_of_mem
    (List.mem_of_getElem? hz)))
  rw [hNone] at hReply
  cases hReply

/-- Something begins with an id that was not used. -/
theorem Echoing.begin (h : Echoing asked s calls streams) (hNone : asksOf asked id = [])
    (replying : Replying s') (sends : s'.sends = s.sends)
    (ids : (idsOf s').Perm (id :: idsOf s))
    (runs : ∀ i run, s'.runs[i]? = some run → s.runs[i]? = some run ∨
      CallServed (asked ++ [(id, ask)]) s' (callProgress calls i) run)
    (served : ∀ i x, s'.servedStreams[i]? = some x → s.servedStreams[i]? = some x ∨
      StreamServed (asked ++ [(id, ask)]) s' (streamProgress streams i) x) :
    Echoing (asked ++ [(id, ask)]) s' calls streams := by
  have hUnused : id ∉ idsOf s := fun hUsed => h.asked_of_mem hUsed hNone
  have hOther : ∀ other ∈ idsOf s, asksOf (asked ++ [(id, ask)]) other = asksOf asked other :=
    fun other hMem => asksOf_concat_other fun he => hUnused (he ▸ hMem)
  refine ⟨replying, h.attending, fun i run hRun => ?_, fun i x hx => ?_, ?_, fun other hAsked => ?_,
    fun other hAbsent => ?_⟩
  · obtain hOld | hNew := runs i run hRun
    · refine (h.runs i run hOld).other (hOther _ ?_) (replies_of_sends sends _)
      exact List.mem_append_left _ (List.mem_map_of_mem (List.mem_of_getElem? hOld))
    · exact hNew
  · obtain hOld | hNew := served i x hx
    · refine (h.served i x hOld).other (hOther _ ?_) (sends ▸ Nat.le_refl _) (replies_of_sends sends _)
        (underWay_of_sends sends)
      exact List.mem_append_right _ (List.mem_map_of_mem (List.mem_of_getElem? hOld))
    · exact hNew
  · exact ids.nodup_iff.mpr (List.nodup_cons.mpr ⟨hUnused, h.nodup⟩)
  · rw [ids.mem_iff]
    by_cases hSame : other = id
    · exact List.mem_cons.mpr (.inl hSame)
    · rw [asksOf_concat_other hSame] at hAsked
      exact List.mem_cons_of_mem _ (h.known other hAsked)
  · rw [replies_of_sends sends]
    exact h.silent other fun hMem => hAbsent (ids.mem_iff.mpr (List.mem_cons_of_mem _ hMem))

/-- A call begins. -/
theorem Echoing.begin_call (h : Echoing asked s calls streams) (hNone : asksOf asked id = [])
    (room : calls.length ≤ s.runs.length) {message : EchoMessage} {run : Run CallScript}
    (hId : run.id = id) (hPayload : run.payload = message.payload) (hHandler : run.handler = callScript)
    (hResult : run.result = none) :
    Echoing (asked ++ [(id, .call message)]) { s with runs := s.runs ++ [run] } calls streams := by
  refine h.begin hNone (h.replying.keep rfl h.replying.sends rfl rfl rfl) rfl ?_
    (fun i x hx => ?_) fun i x hx => .inl hx
  · have hRuns : (s.runs ++ [run]).map Run.id = s.runs.map Run.id ++ [id] := by
      rw [List.map_append, List.map_singleton, hId]
    rw [idsOf, idsOf, hRuns, List.append_assoc]
    exact List.perm_middle
  · obtain hOld | ⟨rfl, rfl⟩ := getElem?_concat_eq_some hx
    · exact .inl hOld
    · refine .inr ⟨message, ?_, hPayload, hHandler, ?_⟩
      · rw [hId, asksOf_concat_self, hNone, List.nil_append]
      · have hSilent : s.replies x.id = [] := by
          rw [hId]
          exact h.silent id fun hUsed => h.asked_of_mem hUsed hNone
        have hFresh : callProgress calls s.runs.length = .fresh := by
          rw [callProgress, progressOf, List.getElem?_eq_none room]
          rfl
        change CallStage _ _ _ (s.replies x.id)
        rw [hResult, hFresh, hSilent]
        exact .fresh

/-- A stream begins with its first message. -/
theorem Echoing.begin_stream (h : Echoing asked s calls streams) (hNone : asksOf asked id = [])
    (room : streams.length ≤ s.servedStreams.length) {message : EchoMessage}
    {x : ServedStream StreamScript} (hId : x.id = id) (hInbox : x.inbox = [message.payload])
    (hHandler : x.handler = streamScript) (hOpen : x.inboxClosed = false) (hResult : x.result = none)
    (hUnclosed : x.closeSent = false) (openStreams : IdTable ServedStreamId) :
    Echoing (asked ++ [(id, .message message)])
      { s with openStreams, servedStreams := s.servedStreams ++ [x] } calls streams := by
  refine h.begin hNone (h.replying.keep rfl h.replying.sends rfl rfl rfl) rfl ?_
    (fun i run hRun => .inl hRun) fun i y hy => ?_
  · have hServed : (s.servedStreams ++ [x]).map ServedStream.id =
        s.servedStreams.map ServedStream.id ++ [id] := by
      rw [List.map_append, List.map_singleton, hId]
    rw [idsOf, idsOf, hServed, ← List.append_assoc]
    exact List.perm_append_singleton _ _
  · obtain hOld | ⟨rfl, rfl⟩ := getElem?_concat_eq_some hy
    · exact .inl hOld
    · have hSilent : s.replies y.id = [] := by
        rw [hId]
        exact h.silent id fun hUsed => h.asked_of_mem hUsed hNone
      refine .inr ⟨[], [message], ?_, List.cons_ne_nil _ _, hInbox, hHandler,
        .inr fun t ht => absurd ht (not_underWay hSilent t), ?_⟩
      · rw [hId, asksOf_concat_self, hNone, hOpen]
        rfl
      · have hFresh : streamProgress streams s.servedStreams.length = .fresh := by
          rw [streamProgress, progressOf, List.getElem?_eq_none room]
          rfl
        change StreamStage _ _ _ _ _ (s.replies y.id)
        rw [hFresh, hSilent]
        exact .starting .fresh (.inl rfl) rfl hResult hUnclosed

/-! ### More for a stream -/

/-- More arrives for a stream whose input is open. -/
theorem Echoing.more (h : Echoing asked s calls streams) {messages more : List EchoMessage} {closed : Bool}
    (hAsks : asksOf asked id = streamAsks messages false)
    (hMore : streamAsks messages false ++ [ask] = streamAsks (messages ++ more) closed)
    {i : ServedStreamId} {x x' : ServedStream StreamScript} (found : s.servedStreams[i]? = some x)
    (hId : x.id = id) (hOpen : x.inboxClosed = false)
    (changed : x' = { x with
      inbox := x.inbox ++ more.map EchoMessage.payload, inboxClosed := closed })
    (replying : Replying s') (sends : s'.sends = s.sends) (runs : s'.runs = s.runs)
    (served : ∀ j, s'.servedStreams[j]? = if j = i then some x' else s.servedStreams[j]?) :
    Echoing (asked ++ [(id, ask)]) s' calls streams := by
  obtain ⟨done, left, hOwn, hSome, hInbox, hHandler, hWaits, hStage⟩ := h.served i x found
  have hMessages : messages = done ++ left := by
    rw [hId] at hOwn
    exact (streamAsks_inj (hAsks.symm.trans hOwn)).1
  subst changed
  refine h.stream_step found replying h.attending (fun _ _ => rfl) runs served rfl
    (.of_sends _ sends) (fun other hOther => asksOf_concat_other (hId ▸ hOther)) ?_
  refine ⟨done, left ++ more, ?_, ?_, ?_, hHandler, hWaits.later (underWay_of_sends sends), ?_⟩
  · change asksOf _ x.id = _
    rw [hId, asksOf_concat_self, hAsks, hMore, hMessages, List.append_assoc]
  · rw [← List.append_assoc]
    exact List.append_ne_nil_of_left_ne_nil hSome _
  · change x.inbox ++ _ = _
    rw [hInbox, List.map_append]
  · change StreamStage _ _ _ _ _ (s'.replies x.id)
    rw [replies_of_sends sends, sends]
    generalize streamProgress streams i = progress, s.replies x.id = said at hStage ⊢
    cases hStage with
    | starting _ fresh first running unclosed => exact .starting _ fresh first running unclosed
    | greeting t begun first running unclosed => exact .greeting t begun first running unclosed
    | echoing pause begun running unclosed => exact .echoing pause begun running unclosed
    | leaving _ closed =>
        rw [hOpen] at closed
        cases closed
    | returned _ closed =>
        rw [hOpen] at closed
        cases closed

/-! ### What a client asks for -/

section Hear

variable (h : Echoing asked m.session calls streams)

include h

/-- A stream that was asked for and not closed is in the table. -/
theorem Echoing.entry_of_asks (hExact : Machine.ServingExact past m.session) {messages : List EchoMessage}
    (hAsks : asksOf asked id = streamAsks messages false) (hSome : messages ≠ []) :
    ∃ (i : ServedStreamId) (x : ServedStream StreamScript), m.session.servedStreams[i]? = some x ∧
      x.id = id ∧ x.inboxClosed = false ∧ m.session.openStreams.get? id = some i := by
  obtain ⟨i, x, hx, rfl, hOpen⟩ := h.stream_of_asks hAsks hSome
  refine ⟨i, x, hx, rfl, hOpen, ?_⟩
  by_contra hGone
  rw [hExact.gone i x hx hGone] at hOpen
  cases hOpen

/-- An id for which nothing was asked is not in the table. -/
theorem Echoing.free_of_asks (hExact : Machine.ServingExact past m.session) (hNone : asksOf asked id = []) :
    m.session.openStreams.get? id = none := by
  by_contra hEntry
  obtain ⟨i, hi⟩ := Option.ne_none_iff_exists'.mp hEntry
  obtain ⟨x, hx, rfl⟩ := hExact.fits.id id i hi
  refine h.asked_of_mem (List.mem_append_right _ ?_) hNone
  exact List.mem_map_of_mem (List.mem_of_getElem? hx)

theorem Echoing.hear_call (hNone : asksOf asked id = []) (message : EchoMessage)
    (room : calls.length ≤ m.session.runs.length) :
    Echoing (asked ++ [(id, .call message)])
      (m.handleCall { id, method := "Echo.Call", payload := message.payload, isStream := false }).session
      calls streams := by
  obtain ⟨method, hMethod, hHandler⟩ := h.replying.method
  obtain ⟨hAbsent, _⟩ | ⟨method', hFound, hHandle⟩ := Machine.handleCall_cases m
    { id, method := "Echo.Call", payload := message.payload, isStream := false }
  · rw [hMethod] at hAbsent
    cases hAbsent
  · obtain rfl := Option.some_inj.mp (hMethod.symm.trans hFound)
    rw [hHandle]
    exact h.begin_call hNone room rfl rfl hHandler rfl

/-- The first message on a stream opens it, and all others reach it. -/
theorem Echoing.hear_message (hExact : Machine.ServingExact past m.session) {messages : List EchoMessage}
    (hAsks : asksOf asked id = streamAsks messages false) (message : EchoMessage)
    (room : streams.length ≤ m.session.servedStreams.length) :
    Echoing (asked ++ [(id, .message message)])
      (m.handleStream { id, method := "Echo.Stream", payload := message.payload, isStream := true }).session
      calls streams := by
  have hCases := Machine.handleStream_cases m
    { id, method := "Echo.Stream", payload := message.payload, isStream := true }
  by_cases hFirst : messages = []
  · subst hFirst
    have hNone : asksOf asked id = [] := hAsks
    obtain ⟨stream, hStream, hHandler⟩ := h.replying.stream
    obtain ⟨i, hEntry, _⟩ | ⟨_, hAbsent, _⟩ | ⟨stream', _, hFound, hHandle⟩ := hCases
    · rw [h.free_of_asks hExact hNone] at hEntry
      cases hEntry
    · rw [hStream] at hAbsent
      cases hAbsent
    · obtain rfl := Option.some_inj.mp (hStream.symm.trans hFound)
      rw [hHandle]
      exact h.begin_stream hNone room rfl rfl hHandler rfl rfl rfl _
  · obtain ⟨i, x, hx, hId, hOpen, hEntry⟩ := h.entry_of_asks hExact hAsks hFirst
    obtain ⟨j, hOther, hHandle⟩ | ⟨hFree, _⟩ | ⟨_, hFree, _⟩ := hCases
    · obtain rfl := Option.some_inj.mp (hEntry.symm.trans hOther)
      rw [hHandle]
      refine h.more hAsks (streamAsks_concat messages message).symm hx hId hOpen ?_
        (h.replying.keep rfl h.replying.sends rfl rfl rfl) rfl rfl (getElem?_modify_of_eq hx _)
      rw [← hOpen]
      rfl
    · rw [hEntry] at hFree
      cases hFree
    · rw [hEntry] at hFree
      cases hFree

theorem Echoing.hear_close (hExact : Machine.ServingExact past m.session) {messages : List EchoMessage}
    (hAsks : asksOf asked id = streamAsks messages false) (hSome : messages ≠ []) :
    Echoing (asked ++ [(id, .close)]) (m.handleStreamClose id).session calls streams := by
  obtain ⟨i, x, hx, hId, hOpen, hEntry⟩ := h.entry_of_asks hExact hAsks hSome
  have hClose : (m.handleStreamClose id).session =
      { m.session.modifyServed i fun x => { x with inboxClosed := true } with
        openStreams := m.session.openStreams.erase id } := by
    unfold Machine.handleStreamClose
    rw [hEntry]
    change { (m.closeServed i).session with
      openStreams := (m.closeServed i).session.openStreams.erase id } = _
    rw [Machine.closeServed_session]
    rfl
  rw [hClose]
  have hMore : streamAsks messages false ++ [.close] = streamAsks (messages ++ []) true := by
    rw [List.append_nil]
    exact (streamAsks_close messages).symm
  refine h.more hAsks hMore hx hId hOpen ?_ (h.replying.keep rfl h.replying.sends rfl rfl rfl) rfl rfl
    (getElem?_modify_of_eq hx _)
  rw [List.map_nil, List.append_nil]

/-- The server gets what a client asks for. -/
theorem Echoing.hear (hDisciplined : Disciplined (asked ++ [(id, ask)]))
    (hExact : Machine.ServingExact past m.session) (callRoom : calls.length ≤ m.session.runs.length)
    (streamRoom : streams.length ≤ m.session.servedStreams.length)
    (hReceive : m.receive? (envelopeOf (id, ask)) = some m') :
    Echoing (asked ++ [(id, ask)]) m'.session calls streams := by
  obtain ⟨_, _, rfl⟩ := Machine.receive?_eq_some hReceive
  have hProper := hDisciplined id
  rw [asksOf_concat_self] at hProper
  obtain ⟨hNone, message, rfl⟩ | ⟨messages, hAsks, ⟨message, rfl⟩ | ⟨hSome, rfl⟩⟩ := proper_concat hProper
  · exact h.hear_call hNone message callRoom
  · exact h.hear_message hExact hAsks message streamRoom
  · exact h.hear_close hExact hAsks hSome

end Hear

end PeerLink.EchoServer

import PeerLink.Proofs.Echo.Running

/-! The echo server echoes. What it writes with an id is at any time the first part of what it should answer
to the requests with that id, however the bytes of all requests are cut and whatever else is asked for; and
when nothing moves on and all requests have arrived, it has written all of it. -/
namespace PeerLink.EchoServer

open Text

variable {requests : List ((Int32 × Ask) × Bytes)} {asked : List (Int32 × Ask)} {id : Int32}

/-- The packets with an id, in order. -/
def packetsWith (id : Int32) (written : List Link.Written) : List Bytes :=
  (written.filter fun p => p.id = id).map Link.Written.data

/-- The packets of what the server should answer with an id. -/
def answers (requests : List (Int32 × Ask)) (id : Int32) : List (Except Wire.EncodeError Bytes) :=
  (replies (asksOf requests id)).map fun content => Wire.encode (.response ⟨id, content⟩)

/-! ### Packets of replies -/

/-- The payload in a request fits into the body of its packet. -/
theorem length_payload_le {r : Request} {packet : Bytes} (h : Wire.Streamable (.request r) packet) :
    r.payload.value.length ≤ Wire.maxStreamBody := by
  obtain ⟨bytes, hBody, _⟩ := Wire.body_of_encode h.encoded
  have hSmall := h.small bytes hBody
  obtain ⟨method, payload, _, hPayload, rfl⟩ := Wire.body_request_eq_ok hBody
  obtain ⟨typeUrl, _, rfl⟩ := Wire.putPayload_eq_ok hPayload
  rw [List.length_append, List.length_append] at hSmall
  omega

/-- A message in compact form is not so much longer than it was that it would not fit into a packet. -/
theorem encode_message (m : EchoMessage) (hFits : m.payload.value.length ≤ Wire.maxStreamBody) (id : Int32) :
    ∃ data, Wire.encode (.response ⟨id, .payload m.reply⟩) = .ok data := by
  have hGrowth := Message.length_encode_of_decode m.reads m.encode_text
  have hTypeUrl : Wire.putString .typeUrl "" = .ok [0, 0] := by decide
  have hBody : Wire.body (.response ⟨id, .payload m.reply⟩) = .ok ([0, 0] ++ m.reply.value) := by
    change Wire.putPayload m.reply = _
    rw [Wire.putPayload, EchoMessage.reply, Payload.ofValue, hTypeUrl]
    rfl
  refine ⟨_, Wire.encode_of_body hBody ?_⟩
  rw [List.length_append, Wire.maxBody]
  rw [Wire.maxStreamBody] at hFits
  simp only [List.length_cons, List.length_nil]
  omega

/-- Whatever the server should answer has a packet. -/
theorem encode_reply (encoded : ∀ r ∈ requests, Wire.Streamable (envelopeOf r.1) r.2) {content : Content}
    (h : content ∈ replies (asksOf (requests.map Prod.fst) id)) :
    ∃ data, Wire.encode (.response ⟨id, content⟩) = .ok data := by
  have hAsks : ∀ ask ∈ asksOf (requests.map Prod.fst) id,
      ∃ data, Wire.encode (.response ⟨id, ask.reply⟩) = .ok data := by
    intro ask hAsk
    obtain ⟨r, hr, hOwn⟩ := List.mem_filterMap.mp hAsk
    obtain ⟨y, hy, rfl⟩ := List.mem_map.mp hr
    obtain ⟨_, hAsk⟩ := Option.ite_none_right_eq_some.mp hOwn
    have hStreamable := encoded y hy
    rw [envelopeOf, Option.some_inj.mp hAsk] at hStreamable
    cases ask with
    | call m => exact encode_message m (length_payload_le hStreamable) id
    | message m => exact encode_message m (length_payload_le hStreamable) id
    | close => exact ⟨_, rfl⟩
  generalize asksOf (requests.map Prod.fst) id = asks at h hAsks
  have hReady : content = .ready true ∨ content ∈ asks.map Ask.reply := by
    unfold replies at h
    split at h
    · exact List.mem_cons.mp h
    · exact .inr h
  obtain rfl | hContent := hReady
  · exact ⟨_, rfl⟩
  · obtain ⟨ask, hAsk, rfl⟩ := List.mem_map.mp hContent
    exact hAsks ask hAsk

/-- The packets of some responses, by id. -/
theorem packetsWith_responses {taken : List Envelope}
    (h : ∀ e ∈ taken, (∃ r, e = .response r) ∧ ∃ data, Wire.encode e = .ok data) (id : Int32) :
    (packetsWith id (taken.filterMap Envelope.packet?)).map .ok =
      (taken.filterMap (Envelope.reply? id)).map fun content => Wire.encode (.response ⟨id, content⟩) := by
  induction taken with
  | nil => rfl
  | cons e taken ih =>
      obtain ⟨⟨⟨⟨other, content⟩, rfl⟩, data, hData⟩, hRest⟩ := List.forall_mem_cons.mp h
      have hRest := ih hRest
      rw [packetsWith] at hRest ⊢
      have hPacket : (Envelope.response ⟨other, content⟩).packet? = some ⟨other, data⟩ :=
        Envelope.packet?_of_ok hData
      rw [List.filterMap_cons, hPacket, List.filterMap_cons, Envelope.reply?]
      by_cases hSame : other = id
      · subst hSame
        simp [hRest, hData]
      · simp [hRest, hSame]

/-! ### What was written -/

section Written

variable {c : Connection} {past : Linked.History CallScript StreamScript} {x : Staffed}

theorem spares_of_replying {s : ScriptSession} (h : Replying s) (P : Sender × Envelope → Bool) :
    s.Spares P :=
  fun z hz hState => absurd hState (h.sends z hz).2

section Standing

variable (h : Standing c (requests.map Prod.fst) asked past x)

include h

/-- The writer takes what was sent with an id, in order. -/
theorem Standing.taken_first (id : Int32) :
    past.session.taken.filterMap (Envelope.reply? id) <+: x.link.session.replies id := by
  have life := h.serving.exec.life
  exact life.taken_first (spares_of_replying h.echoing.replying _) (life.serial h.alone id)

theorem Standing.taken_subset : past.session.taken ⊆ x.link.session.sent := by
  have hQueue := h.serving.exec.life.queueing
  have hTaken : past.session.taken <+: (Machine.History.entered past.session).map Prod.snd :=
    (List.prefix_append _ _).trans hQueue.flow
  exact fun e he => hQueue.entered_sent.subset (hTaken.subset he)

theorem Standing.replies_first (id : Int32) :
    past.session.taken.filterMap (Envelope.reply? id) <+: replies (asksOf (requests.map Prod.fst) id) := by
  obtain ⟨rest, hRest⟩ := h.first
  have hAsks : asksOf asked id <+: asksOf (requests.map Prod.fst) id := by
    rw [← hRest, asksOf_append]
    exact List.prefix_append _ _
  exact (h.taken_first id).trans ((h.echoing.said_first id).trans (replies_mono hAsks))

/-- All that the writer takes has a packet. -/
theorem Standing.taken_encoded (encoded : ∀ r ∈ requests, Wire.Streamable (envelopeOf r.1) r.2) :
    ∀ e ∈ past.session.taken, (∃ r, e = .response r) ∧ ∃ data, Wire.encode e = .ok data := by
  intro e he
  obtain ⟨y, hy, rfl⟩ := List.mem_map.mp (h.taken_subset he)
  obtain ⟨z, hz, rfl⟩ := List.mem_map.mp hy
  obtain ⟨⟨id, content⟩, hResponse⟩ := (h.echoing.replying.sends z hz).1
  change z.envelope ∈ _ at he
  refine ⟨⟨_, hResponse⟩, ?_⟩
  change ∃ data, Wire.encode z.envelope = .ok data
  rw [hResponse] at he ⊢
  have hContent : content ∈ past.session.taken.filterMap (Envelope.reply? id) := by
    refine List.mem_filterMap.mpr ⟨_, he, ?_⟩
    rw [Envelope.reply?, if_pos rfl]
  exact encode_reply encoded ((h.replies_first id).subset hContent)

theorem Standing.written_first (encoded : ∀ r ∈ requests, Wire.Streamable (envelopeOf r.1) r.2)
    (id : Int32) : (packetsWith id (Linked.written past x.link)).map .ok <+:
      answers (requests.map Prod.fst) id := by
  have hWritten := h.serving.written_first (.framed c.room)
  have hCollected : packetsWith id (Linked.written past x.link) <+: packetsWith id past.collected :=
    (hWritten.filter _).map _
  refine (hCollected.map _).trans ?_
  rw [Linked.History.collected, packetsWith_responses (h.taken_encoded encoded)]
  exact (h.replies_first id).map _

/-- When nothing moves on and all requests were taken, every reply was sent. -/
theorem Standing.replies_at_rest {stage : Stage} (rest : x.AtRest stage) (id : Int32) :
    x.link.session.replies id = replies (asksOf asked id) := by
  by_cases hUsed : id ∈ idsOf x.link.session
  · obtain hRun | hServed := List.mem_append.mp hUsed
    · obtain ⟨run, hMem, rfl⟩ := List.mem_map.mp hRun
      obtain ⟨i, hi⟩ := List.mem_iff_getElem?.mp hMem
      have hIn : i < x.calls.length := (List.getElem?_eq_some_iff.mp hi).1.trans_le rest.runs
      have hTask := List.getElem?_eq_getElem hIn
      exact h.echoing.call_at_rest hi hTask (rest.calls i _ hTask)
    · obtain ⟨y, hMem, rfl⟩ := List.mem_map.mp hServed
      obtain ⟨i, hi⟩ := List.mem_iff_getElem?.mp hMem
      have hIn : i < x.streams.length := (List.getElem?_eq_some_iff.mp hi).1.trans_le rest.served
      have hTask := List.getElem?_eq_getElem hIn
      refine h.echoing.stream_at_rest hi hTask (fun t ht => ?_) (rest.streams i _ hTask)
      have hSend := List.getElem?_eq_getElem ht
      have hPatient := (h.echoing.replying.sends _ (List.mem_of_getElem? hSend)).2
      exact h.serving.sent_at_rest (.framed c.room) rest.advance rest.write hSend hPatient
  · have hNone : asksOf asked id = [] := by
      by_contra hSome
      exact hUsed (h.echoing.known id hSome)
    rw [h.echoing.silent id hUsed, hNone]
    rfl

/-- When nothing moves on and all requests have arrived, they were taken. -/
theorem Standing.all_at_rest {stage : Stage} (rest : x.AtRest stage)
    (encoded : ∀ r ∈ requests, Wire.Streamable (envelopeOf r.1) r.2)
    (failures : past.arrived.filterMap Wire.SourceEvent.failure? = [])
    (bytes : Wire.sourceBytes past.arrived = (requests.map Prod.snd).flatten) :
    asked = requests.map Prod.fst := by
  have hBytes : Wire.sourceBytes past.arrived = ((packetsOf requests).map Prod.snd).flatten := by
    rw [packetsOf_packets, bytes]
  have hFed : past.Fed (packetsOf requests) (.framed (.new c.room)) :=
    ⟨failures, hBytes ▸ List.prefix_rfl⟩
  have hInbound := h.serving.exec.inbound (.framed c.room) (carries_of_streamable encoded)
    h.serving.opened hFed
  obtain ⟨_, hHeard⟩ := hInbound.rest h.serving.not_ended rest.read rest.consume
  rw [Linked.landed_of_bytes hBytes, h.heard, packetsOf_envelopes] at hHeard
  have hLength := congrArg List.length hHeard
  rw [List.length_map, List.length_map] at hLength
  exact h.first.eq_of_length hLength

theorem Standing.written_at_rest {stage : Stage} (rest : x.AtRest stage)
    (encoded : ∀ r ∈ requests, Wire.Streamable (envelopeOf r.1) r.2)
    (all : asked = requests.map Prod.fst) (id : Int32) :
    (packetsWith id (Linked.written past x.link)).map .ok = answers (requests.map Prod.fst) id := by
  have hTaken : past.session.taken.filterMap (Envelope.reply? id) = x.link.session.replies id := by
    refine (h.taken_first id).eq_of_length ?_
    have hAll := h.serving.taken_at_rest (.framed c.room) rest.advance rest.write
      fun z hz => (h.echoing.replying.sends z hz).2
    exact (hAll.filterMap (Envelope.reply? id)).length_eq
  have hWritten := (h.serving.written_at_rest (.framed c.room) rest.write).1
  rw [hWritten, Linked.History.collected, packetsWith_responses (h.taken_encoded encoded), hTaken, answers,
    ← all]
  exact congrArg (List.map _) (h.replies_at_rest rest id)

end Standing

end Written

/-- A client sends requests over a connection to the echo server: calls, and messages and closes of streams,
every id for one call or one stream and nothing for a stream behind its close, with bodies that a stream
accepts. Their bytes arrive cut in any way, and the tasks of the server move on in any order. At any time the
packets with an id that were written are the first of those that answer the requests with that id: for a call
the message in compact form, for a stream a mark of readiness and then every message in compact form, and a
close behind them if the stream was closed. When all bytes have arrived and no task can move on, they are all
of them. -/
theorem written_echoes {server : EchoServer} {start w : World} {arrived : List Bytes}
    {seen : List Link.Written} (connection : server.connection? = some start)
    (encoded : ∀ r ∈ requests, Wire.Streamable (envelopeOf r.1) r.2)
    (disciplined : Disciplined (requests.map Prod.fst))
    (course : World.Course start arrived seen w)
    (bytes : arrived.flatten <+: (requests.map Prod.snd).flatten) (id : Int32) :
    (packetsWith id (seen ++ (w.linked w.a).packets)).map .ok <+: answers (requests.map Prod.fst) id ∧
      (arrived.flatten = (requests.map Prod.snd).flatten → w.step? = none →
        (packetsWith id (seen ++ (w.linked w.a).packets)).map .ok =
          answers (requests.map Prod.fst) id) := by
  obtain ⟨asked, past, hAlone, hStanding, hArrived, hLooked⟩ :=
    standing_of_course connection encoded disciplined course bytes
  have hWritten : seen ++ (w.linked w.a).packets = Linked.written past w.staffed.link := by
    rw [Linked.written, hLooked]
    rfl
  rw [hWritten]
  refine ⟨hStanding.written_first encoded id, fun hAll hRest => ?_⟩
  have hAtRest := hAlone.atRest hRest
  have hTaken : asked = requests.map Prod.fst := by
    refine hStanding.all_at_rest hAtRest encoded ?_ ?_
    · rw [hArrived, failures_chunks]
    · rw [hArrived, sourceBytes_chunks, hAll]
  exact hStanding.written_at_rest hAtRest encoded hTaken id

/-- A call with the id 1, and a stream with the id 2 on which one message is sent before it is closed. -/
def callAndStream : List ((Int32 × Ask) × Bytes) :=
  [((1, .call (.ofText "a")), [1, 0, 0, 0, 25, 0, 0, 0, 1, 0, 9, 69, 99, 104, 111, 46, 67, 97, 108, 108,
      0, 0, 123, 34, 100, 97, 116, 97, 34, 58, 34, 97, 34, 125]),
    ((2, .message (.ofText "b")), [129, 0, 0, 0, 27, 0, 0, 0, 2, 0, 11, 69, 99, 104, 111, 46, 83, 116, 114,
      101, 97, 109, 0, 0, 123, 34, 100, 97, 116, 97, 34, 58, 34, 98, 34, 125]),
    ((2, .close), [6, 0, 0, 0, 0, 0, 0, 0, 2])]

theorem disciplined_callAndStream : Disciplined (callAndStream.map Prod.fst) := by
  intro id
  by_cases hCall : id = 1
  · subst hCall
    exact .call (.ofText "a")
  · by_cases hStream : id = 2
    · subst hStream
      exact .stream [.ofText "b"] true (List.cons_ne_nil _ _)
    · have hNone : asksOf (callAndStream.map Prod.fst) id = [] := by
        simp [asksOf, callAndStream, Ne.symm hCall, Ne.symm hStream]
      rw [hNone]
      exact .unused

/-- The requests arrive in three pieces, and the server writes one packet for the call and three for the
stream. -/
theorem written_echoes_of_callAndStream : ∃ (start w : World) (arrived : List Bytes),
    (EchoServer.mk {} [] none).connection? = some start ∧
    (∀ r ∈ callAndStream, Wire.Streamable (envelopeOf r.1) r.2) ∧
    Disciplined (callAndStream.map Prod.fst) ∧ World.Course start arrived [] w ∧ arrived.length = 3 ∧
    arrived.flatten = (callAndStream.map Prod.snd).flatten ∧ w.step? = none ∧
    (packetsWith 1 (w.linked w.a).packets).map .ok = answers (callAndStream.map Prod.fst) 1 ∧
    (packetsWith 1 (w.linked w.a).packets).length = 1 ∧
    (packetsWith 2 (w.linked w.a).packets).map .ok = answers (callAndStream.map Prod.fst) 2 ∧
    (packetsWith 2 (w.linked w.a).packets).length = 3 := by
  let bytes := (callAndStream.map Prod.snd).flatten
  let pieces := [bytes.take 12, (bytes.drop 12).take 50, bytes.drop 62]
  let finish (start : World) : World :=
    pieces.foldl (fun w data => (w.run (.receiveBytes data)).1) start
  have hRun : ((EchoServer.mk {} [] none).connection?.map fun start =>
      ((finish start).step?.isNone, (packetsWith 1 ((finish start).linked (finish start).a).packets).length,
        (packetsWith 2 ((finish start).linked (finish start).a).packets).length)) =
      some (true, 1, 3) := by decide +kernel
  obtain ⟨start, hConnection, hFacts⟩ := Option.map_eq_some_iff.mp hRun
  simp only [Prod.mk.injEq] at hFacts
  obtain ⟨hRest, hCall, hStream⟩ := hFacts
  have hEncoded : ∀ r ∈ callAndStream, Wire.Streamable (envelopeOf r.1) r.2 := by
    have hEncode : ∀ r ∈ callAndStream, Wire.encode (envelopeOf r.1) = .ok r.2 ∧
        Wire.isShort (envelopeOf r.1) = true := by decide +kernel
    exact fun r hr => Wire.streamable_of_isShort (hEncode r hr).1 (hEncode r hr).2
  have hCourse : World.Course start pieces [] (finish start) :=
    ((World.Course.start.run _).run _).run _
  have hBytes : pieces.flatten = (callAndStream.map Prod.snd).flatten := by decide +kernel
  have hFirst : pieces.flatten <+: (callAndStream.map Prod.snd).flatten := hBytes ▸ List.prefix_rfl
  have hEchoes := written_echoes hConnection hEncoded disciplined_callAndStream hCourse hFirst
  have hNone := Option.isNone_iff_eq_none.mp hRest
  exact ⟨start, finish start, pieces, hConnection, hEncoded, disciplined_callAndStream, hCourse, rfl, hBytes,
    hNone, (hEchoes 1).2 hBytes hNone, hCall, (hEchoes 2).2 hBytes hNone, hStream⟩

/-! ### A request that is too long -/

theorem length_ofText (text : String) :
    (EchoMessage.ofText text).payload.value.length = (Utf8.encode (Json.quote text)).length + 9 := by
  have hOpen : (Utf8.encode "\x7b\"data\":").length = 8 := by decide
  have hClose : (Utf8.encode "\x7d").length = 1 := by decide
  change (Utf8.encode ("\x7b\"data\":" ++ Json.quote text ++ "\x7d")).length = _
  rw [Utf8.encode_append, Utf8.encode_append, List.length_append,
    List.length_append, hOpen, hClose]
  omega

/-- Letters stand for themselves in a message. -/
theorem length_letters (n : Nat) :
    (EchoMessage.ofText (String.ofList (List.replicate n 'a'))).payload.value.length = n + 11 := by
  have hLetter : (Utf8.encode (Json.quoteChar 'a')).length = 1 := by decide
  have hLetters : ((List.replicate n 'a').flatMap fun c => Utf8.encode (Json.quoteChar c)).length = n := by
    rw [List.length_flatMap, List.map_replicate, hLetter]
    simp
  rw [length_ofText, Json.encode_quote, String.toList_ofList, List.length_cons, List.length_append,
    hLetters, List.length_singleton]

theorem body_call {m : EchoMessage} (hType : m.payload.typeUrl = "") (id : Int32) :
    ∃ front : Bytes, front.length = 13 ∧
      Wire.body (envelopeOf (id, .call m)) = .ok (front ++ m.payload.value) := by
  have hMethod : Wire.putString .method "Echo.Call" =
      .ok [0, 9, 69, 99, 104, 111, 46, 67, 97, 108, 108] := by decide
  have hTypeUrl : Wire.putString .typeUrl "" = .ok [0, 0] := by decide
  refine ⟨[0, 9, 69, 99, 104, 111, 46, 67, 97, 108, 108, 0, 0], rfl, ?_⟩
  change (do
    let method ← Wire.putString .method "Echo.Call"
    let payload ← Wire.putPayload m.payload
    return method ++ payload) = _
  rw [hMethod, Wire.putPayload, hType, hTypeUrl]
  rfl

/-- A message that makes the body of its call one byte too long for a stream. -/
def longMessage : EchoMessage :=
  .ofText (String.ofList (List.replicate (Wire.maxStreamBody - 23) 'a'))

/-- Its call has a packet all the same. -/
theorem encode_longMessage : ∃ rest : Bytes,
    Wire.encode (envelopeOf (0, .call longMessage)) = .ok ([1, 4, 0, 0, 1, 0, 0, 0, 0] ++ rest) := by
  obtain ⟨front, hFront, hBody⟩ := body_call (m := longMessage) rfl 0
  have hLength : (front ++ longMessage.payload.value).length = Wire.maxStreamBody + 1 := by
    rw [List.length_append, hFront, longMessage, length_letters]
    rfl
  have hFits : (front ++ longMessage.payload.value).length ≤ Wire.maxBody := by
    rw [hLength]
    decide
  have hHeader : (Wire.headerOf (envelopeOf (0, .call longMessage)) (Wire.maxStreamBody + 1)).build =
      [1, 4, 0, 0, 1, 0, 0, 0, 0] := by decide
  refine ⟨front ++ longMessage.payload.value, ?_⟩
  rw [Wire.encode_of_body hBody hFits, hLength, hHeader]

/-- The only session of a world was asked for nothing. It has ended and closed its transport, but the far end
may still send. -/
def isShut (w : World) : Bool :=
  w.b?.isNone && w.wire == .single && w.a.callTasks.isEmpty && w.a.streamTasks.isEmpty &&
    w.a.session.refusals.isEmpty && w.a.session.calls.isEmpty && w.a.session.clientStreams.isEmpty &&
    w.a.session.runs.isEmpty && w.a.session.servedStreams.isEmpty && !w.a.session.consuming &&
    w.a.session.outbound.tickets.isEmpty &&
    match w.a.transport with
    | .framed f => f.inlet.reader == .stopped && f.inlet.queued.isEmpty && f.writer == .stopped &&
        !f.sourceEnded && f.sink.taken.isEmpty
    | _ => false

/-- Whatever else arrives, nothing comes of it. -/
theorem at_rest_of_isShut {w : World} (h : isShut w = true) (data : Bytes) :
    (w.begin (.receiveBytes data)).1.step? = none ∧
      ((w.begin (.receiveBytes data)).1.linked (w.begin (.receiveBytes data)).1.a).packets = [] := by
  unfold isShut at h
  simp only [Bool.and_eq_true, Option.isNone_iff_eq_none, List.isEmpty_iff, beq_iff_eq,
    Bool.not_eq_true'] at h
  obtain ⟨⟨⟨⟨⟨⟨⟨⟨⟨⟨⟨hAlone, hWire⟩, hCallTasks⟩, hStreamTasks⟩, hRefusals⟩, hCalls⟩, hClients⟩, hRuns⟩,
    hServed⟩, hConsuming⟩, hTickets⟩, hTransport⟩ := h
  split at hTransport
  · next f hFramed =>
      simp only [Bool.and_eq_true, List.isEmpty_iff, beq_iff_eq, Bool.not_eq_true'] at hTransport
      obtain ⟨⟨⟨⟨hReader, hQueued⟩, hWriter⟩, hOpen⟩, hTaken⟩ := hTransport
      have hArrive : World.arriveEvent (.chunk data) w.a.transport =
          some (.framed { f with source := f.source ++ [.chunk data] }) := by
        rw [hFramed, World.arriveEvent, hOpen]
        rfl
      have hStaffed := World.staffed_receiveBytes (w := w) (congrArg (Option.map _) hArrive)
      have hAloneNow : w.IsAlone := ⟨hAlone, hWire⟩
      have hWaiting : w.a.session.outbound.waiting = [] :=
        List.map_eq_nil_iff.mp (List.append_eq_nil_iff.mp hTickets).2
      have hAdvance : ∀ t, (w.linked w.a).advanceOutbound? t = none := fun t =>
        Machine.advanceOutbound?_eq_none_of_notMem (hTickets ▸ List.not_mem_nil)
      refine ⟨(hAloneNow.receiveBytes data).step?_eq_none (fun y => ?_) ?_, ?_⟩
      · rw [hStaffed, World.staffed, hCallTasks, hStreamTasks]
        refine World.not_step_of_unused hAdvance ?_ ?_ ?_ hRefusals hCalls hClients hRuns hServed
        · change Option.map _ (Option.map _ (Link.Framed.read? _ _)) = none
          rw [Link.Framed.read?, hReader]
          rw [if_pos (by simp), Link.Inlet.advance?, hReader]
          rfl
        · change Option.map _ (Option.map _ (Link.Framed.consume? _ _)) = none
          have hStop : (w.linked w.a).stopConsuming? f.inlet.isExhausted = none := by
            rw [Machine.stopConsuming?]
            change (if w.a.session.consuming && _ then _ else _) = _
            rw [hConsuming]
            rfl
          rw [Link.Framed.consume?, hStop, hQueued]
          rfl
        · change Option.map _ (Option.map _ (Link.Framed.write? _ _)) = none
          rw [Link.Framed.write?, hWriter]
          rfl
      · exact (congrArg (fun x => x.link.session.outbound.waiting) hStaffed).trans hWaiting
      · have hLink := congrArg (fun x => x.link.packets) hStaffed
        exact hLink.trans hTaken
  · cases hTransport

/-- The call is the only request. Its bytes arrive in two pieces, and when no task can move on the server has
written nothing, since it has closed the connection after the header. -/
theorem long_call_not_echoed : ∃ (start w : World) (rest packet : Bytes),
    (EchoServer.mk {} [] none).connection? = some start ∧
    Disciplined [(0, .call longMessage)] ∧
    Wire.encode (envelopeOf (0, .call longMessage)) = .ok packet ∧
    [1, 4, 0, 0, 1, 0, 0, 0, 0] ++ rest = packet ∧
    World.Course start [[1, 4, 0, 0, 1, 0, 0, 0, 0], rest] [] w ∧ w.step? = none ∧
    (w.linked w.a).packets = [] ∧
    answers [(0, .call longMessage)] 0 = [Wire.encode (.response ⟨0, .payload longMessage.reply⟩)] := by
  have hRun : ((EchoServer.mk {} [] none).connection?.map fun start =>
      isShut (start.run (.receiveBytes [1, 4, 0, 0, 1, 0, 0, 0, 0])).1) = some true := by decide +kernel
  obtain ⟨start, hConnection, hShut⟩ := Option.map_eq_some_iff.mp hRun
  obtain ⟨rest, hEncode⟩ := encode_longMessage
  obtain ⟨hRest, hPackets⟩ := at_rest_of_isShut hShut rest
  have hDisciplined : Disciplined [(0, .call longMessage)] := by
    intro id
    by_cases hSame : id = 0
    · subst hSame
      exact .call longMessage
    · have hNone : asksOf [(0, .call longMessage)] id = [] := by
        simp [asksOf, Ne.symm hSame]
      rw [hNone]
      exact .unused
  exact ⟨start, _, rest, _, hConnection, hDisciplined, hEncode, rfl,
    (World.Course.start.run _).arrive rest, hRest, hPackets, rfl⟩

end PeerLink.EchoServer

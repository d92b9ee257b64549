import PeerLink.Proofs.Pair.Streams
import PeerLink.Proofs.Session.OneVoice

/-! The order of what goes through a stream, from end to end. A payload passes the queue of the session
that sends it and waits in the stream of the other session until it is received. From the moment when it
gets into the queue, the payloads that come out are the first of those that went in. In which order payloads
get in is up to the senders: those that wait for each other are queued in the order in which they sent. -/
namespace PeerLink.Pair

open Machine (History.heard History.taken payloadOn? payloadBack?)

variable {M S : Type} {host : Host} {registry : Side → Registry M S} {callTimeout : Side → Option Duration}
  {capacity : Nat} {past : History M S} {p : Pair M S} {side : Side}

/-! ### From one session to the other -/

/-- The other side hears no call with the id of a stream. -/
theorem Execution.noCall (exec : Execution (new host registry callTimeout capacity) past p)
    {c : ClientStreamId} {id : Int32} (hOwned : (p.session side).OwnedBy id (.stream c)) {r : Request}
    (hHeard : .request r ∈ History.heard (History.of past side.other)) (hId : r.id = id) :
    r.isStream = true := by
  obtain ⟨_, hExplained⟩ := exec.explained hHeard
  cases hExplained with
  | call _ found => cases hOwned (.call _) (by rw [Session.idOf?, found, Option.map_some, ← hId])
  | message => rfl

/-- Before a stream is opened, nothing is sent back with its id. -/
theorem Execution.opened_of_reply
    (exec : Execution (new host registry callTimeout capacity) past p) {c : ClientStreamId} {id : Int32}
    (hOwned : (p.session side).OwnedBy id (.stream c)) {content : Content}
    (hSent : .response ⟨id, content⟩ ∈ (p.session side.other).sent) :
    ∃ x, (p.session side).clientStreams[c]? = some x ∧ x.id = id := by
  obtain ⟨_, serving⟩ := exec.life_new side.other
  obtain ⟨⟨sender, e⟩, hSaid, rfl⟩ := List.mem_map.mp hSent
  have hRequest : ∃ r, .request r ∈ History.heard (History.of past side.other) ∧ r.isStream = true ∧
      r.id = id := by
    obtain ⟨j, z, _, hz, hzId⟩ | ⟨r, hHeard, hStream, hId, _⟩ :=
      serving.reply_cause (fun r hr hId => exec.noCall hOwned hr hId) hSaid
    · obtain ⟨r, hHeard, hStream, hId, _⟩ := serving.served rfl j z hz
      exact ⟨r, hHeard, hStream, hId.trans hzId⟩
    · exact ⟨r, hHeard, hStream, hId⟩
  obtain ⟨r, hHeard, hStream, hId⟩ := hRequest
  obtain ⟨c', x, found, hx, _⟩ := exec.message_origin hHeard hStream
  cases hOwned.clientStream_eq found (hx.trans hId)
  exact ⟨x, found, hx.trans hId⟩

/-- When a response with its id is handled, the stream is there. -/
theorem Execution.found_of_answer
    (exec : Execution (new host registry callTimeout capacity) past p) {c : ClientStreamId} {id : Int32}
    (hOwned : (p.session side).OwnedBy id (.stream c)) {m : Machine M S} {content : Content}
    (h : (m, .receive (.response ⟨id, content⟩)) ∈ History.of past side) :
    ∃ x, m.session.clientStreams[c]? = some x ∧ x.id = id := by
  obtain ⟨⟨q, y⟩, hMem, hView⟩ := List.mem_filterMap.mp h
  obtain ⟨a, hView, hPair⟩ := Option.map_eq_some_iff.mp hView
  obtain ⟨rfl, rfl⟩ := Prod.mk.inj hPair
  obtain ⟨before, q', prior, hStep, hAfter⟩ := exec.at_action hMem
  have hSent : .response ⟨id, content⟩ ∈ (q'.session side.other).sent := by
    have hSubperm := (prior.step hStep).heard_subperm side.other
    rw [other_other, History.of_append, hView] at hSubperm
    exact hSubperm.subset (Machine.History.mem_heard_receive _)
  obtain ⟨x, found, hId⟩ := (prior.step hStep).opened_of_reply ((hAfter side).ownedBy hOwned) hSent
  obtain ⟨hNone, _⟩ | ⟨a, m', hSome, hOwn, hSame⟩ := step?_view hStep side
  · cases hNone.symm.trans hView
  · cases hSome.symm.trans hView
    rw [hSame] at found
    -- A response opens no stream, so it was there before.
    cases Machine.step?_client hOwn found with
    | opened _ cause => cases cause
    | kept z hz | arrived z _ hz | received z _ hz | sorted z _ hz | stopped z hz =>
        have hKeeps := (Machine.step?_clientStreams hOwn).rel hz found
        exact ⟨z, hz, hKeeps.id.symm.trans hId⟩

/-- So all responses with its id are its own. -/
theorem Execution.answers_eq (exec : Execution (new host registry callTimeout capacity) past p)
    {c : ClientStreamId} {x : ClientStream} (found : (p.session side).clientStreams[c]? = some x)
    (hOwned : (p.session side).OwnedBy x.id (.stream c)) :
    (History.of past side).answers c =
      (History.heard (History.of past side)).filterMap (Envelope.reply? x.id) := by
  obtain ⟨_, life⟩ := exec.life_new side
  unfold Machine.History.answers Machine.History.heard
  rw [List.filterMap_filterMap]
  refine List.filterMap_congr fun y hMem => ?_
  obtain ⟨m, a⟩ := y
  cases a with
  | receive e =>
      cases e with
      | response r =>
          have hThere : (m.session.clientStreams[c]?.any fun z => z.id = r.id) = true ↔
              r.id = x.id := by
            constructor
            · intro hAny
              obtain ⟨z, hz, hzId⟩ := (Option.any_eq_true _ _).mp hAny
              have hKeeps := (life.grows_since hMem).clientStreams.rel hz found
              exact (of_decide_eq_true hzId).symm.trans hKeeps.id.symm
            · intro hId
              obtain ⟨z, hz, hzId⟩ := exec.found_of_answer (hId ▸ hOwned) hMem
              rw [hz]
              exact decide_eq_true hzId
          simp only [Machine.answer?, hThere]
          rfl
      | _ => rfl
  | _ => rfl

/-- The other side hears one method with the id of a stream, and no call. -/
theorem Execution.orderly (exec : Execution (new host registry callTimeout capacity) past p)
    {c : ClientStreamId} {id : Int32} (hOwned : (p.session side).OwnedBy id (.stream c)) :
    Orderly (History.heard (History.of past side.other)) id where
  method r r' hr hr' hStream hStream' hId hId' := by
    obtain ⟨c₁, x₁, found₁, hx₁, hMethod₁⟩ := exec.message_origin hr hStream
    obtain ⟨c₂, x₂, found₂, hx₂, hMethod₂⟩ := exec.message_origin hr' hStream'
    cases hOwned.clientStream_eq found₁ (hx₁.trans hId)
    cases hOwned.clientStream_eq found₂ (hx₂.trans hId')
    cases found₁.symm.trans found₂
    exact hMethod₁.symm.trans hMethod₂
  noCall r hr hId := exec.noCall hOwned hr hId

/-- What a session handles is the first of what got into the queue of the other one. -/
theorem Execution.heard_first (exec : Execution (new host registry callTimeout capacity) past p)
    (side : Side) : History.heard (History.of past side.other) <+:
      ((History.of past side).accepted (p.session side)).map Prod.snd := by
  obtain ⟨_, asking⟩ := exec.life_new side
  rw [exec.heard_eq_taken, other_other, asking.queueing.accepted_envelopes]
  exact (List.prefix_append _ _).trans asking.queueing.flow

/-- The messages that are handled with the id of a stream are the first of its own that were queued. -/
theorem Execution.messages_first
    (exec : Execution (new host registry callTimeout capacity) past p) {c : ClientStreamId}
    {x : ClientStream} (found : (p.session side).clientStreams[c]? = some x)
    (hOwned : (p.session side).OwnedBy x.id (.stream c)) :
    (History.heard (History.of past side.other)).filterMap (Envelope.message? x.id) <+:
      (History.of past side).acceptedOn (p.session side) c := by
  obtain ⟨_, asking⟩ := exec.life_new side
  rw [Machine.History.acceptedOn,
    ← asking.messages rfl found hOwned asking.queueing.accepted_subperm.subset]
  exact (exec.heard_first side).filterMap _

/-- What is received from a stream comes from the first of the responses with its id that were queued. -/
theorem Execution.received_first
    (exec : Execution (new host registry callTimeout capacity) past p)
    (hRoom : Machine.History.HasRoom (History.of past side)) {c : ClientStreamId} {x : ClientStream}
    (found : (p.session side).clientStreams[c]? = some x)
    (hOwned : (p.session side).OwnedBy x.id (.stream c)) :
    (History.of past side).received c <+:
      messagesOf (((History.of past side.other).accepted (p.session side.other)).filterMap
        fun y => y.2.reply? x.id) := by
  obtain ⟨_, asking⟩ := exec.life_new side
  obtain ⟨done, hSorted⟩ := (asking.sorted hRoom).1 c x found
  have hDone : done <+: ((History.of past side.other).accepted (p.session side.other)).filterMap
      fun y => y.2.reply? x.id := by
    have hArrived : done <+: (History.of past side).arrived c :=
      hSorted.arrived ▸ List.prefix_append _ _
    have hHeard := (exec.heard_first side.other).filterMap (Envelope.reply? x.id)
    rw [other_other, ← exec.answers_eq found hOwned, List.filterMap_map] at hHeard
    exact (hArrived.trans hSorted.answers).trans hHeard
  obtain ⟨later, hLater⟩ := hDone
  have hReceived : (History.of past side).received c <+: messagesOf done :=
    hSorted.messages ▸ List.prefix_append _ _
  rw [← hLater]
  exact hReceived.trans (messagesOf_le_append _ _)

/-- As long as no stream is served with its id, a stream is told that its method is not registered. -/
theorem Execution.reply_of_unserved
    (exec : Execution (new host registry callTimeout capacity) past p) {c : ClientStreamId}
    {x : ClientStream} (found : (p.session side).clientStreams[c]? = some x)
    (hOwned : (p.session side).OwnedBy x.id (.stream c))
    (hUnserved : ∀ y ∈ (p.session side.other).servedStreams, y.id ≠ x.id) {sender : Sender}
    {content : Content} (hSaid : (sender, .response ⟨x.id, content⟩) ∈ (p.session side.other).said) :
    content = .error (.streamNotFound x.method) := by
  obtain ⟨_, serving⟩ := exec.life_new side.other
  obtain ⟨j, z, _, hz, hId⟩ | ⟨r, hHeard, hStream, hId, _, hContent⟩ :=
    serving.reply_cause (fun r hr hId => exec.noCall hOwned hr hId) hSaid
  · exact absurd hId (hUnserved z (List.mem_of_getElem? hz))
  · obtain ⟨c', x', found', hx', hMethod⟩ := exec.message_origin hHeard hStream
    cases hOwned.clientStream_eq found' (hx'.trans hId)
    cases found.symm.trans found'
    rw [hContent, hMethod]

/-- What is received from a stream without rivals are the first of the payloads that its handler queued. An
error comes behind all that the handler has sent. -/
theorem Execution.received_of_unrivalled
    (exec : Execution (new host registry callTimeout capacity) past p)
    (hRoom : Machine.History.HasRoom (History.of past side)) {c : ClientStreamId} {x : ClientStream}
    (found : (p.session side).clientStreams[c]? = some x)
    (hOwned : (p.session side).OwnedBy x.id (.stream c)) {i : ServedStreamId} {y : ServedStream S}
    (hServed : (p.session side.other).servedStreams[i]? = some y) (hId : y.id = x.id)
    (hPatient : (p.session side.other).Patient (.served i))
    (hConfined : (History.of past side.other).Confined i)
    (hAlone : Machine.Unrivalled i x.id ((History.of past side.other).accepted (p.session side.other))) :
    ((History.of past side).received c).filterMap Except.toOption <+:
        (History.of past side.other).acceptedBack (p.session side.other) i ∧
      ∀ e, .error e ∈ (History.of past side).received c →
        ∃ failure, y.result = some (.error failure) ∧ e = failure.toRemote ∧
          (History.of past side).received c =
            ((History.of past side.other).acceptedBack (p.session side.other) i).map .ok ++ [.error e] ∧
          ((History.of past side.other).acceptedBack (p.session side.other) i).Perm
            ((History.of past side.other).sentBack i) := by
  obtain ⟨_, serving⟩ := exec.life_new side.other
  have hReceived := exec.received_first hRoom found hOwned
  have hVoice := hAlone.oneVoice fun z hz hSpeaker => by
    rw [← hId]
    exact serving.reply_content hServed (serving.queueing.accepted_subperm.subset hz) hSpeaker
  rw [hVoice.messagesOf_eq, ← Machine.History.queuedOn] at hReceived
  refine ⟨?_, fun e he => ?_⟩
  · rw [← Machine.History.queuedOn_payloads]
    exact (hReceived.filterMap _).trans (messagesOf_payloads _)
  · obtain ⟨front, rest, hQueued, hMessages⟩ := messagesOf_error (hReceived.subset he)
    obtain ⟨⟨failure, hResult, hError⟩, hFront, hAll⟩ :=
      serving.failure_queued hServed hPatient hConfined hQueued
    refine ⟨failure, hResult, hError, ?_, hAll⟩
    rw [hMessages, hFront] at hReceived
    -- The error is the last message, so whoever has received it has received all of them.
    refine (List.prefix_concat_iff.mp hReceived).resolve_right fun hPrefix => ?_
    obtain ⟨_, _, hOk⟩ := List.mem_map.mp (hPrefix.subset he)
    cases hOk

/-- Streams keep the order from end to end, as long as nobody gives up on a send of the stream while it
waits and no handle of a handler outlives it. The handler that was first started for a stream receives the
first of the payloads that got into the queue on this stream. What is received from the stream are the first
of the payloads that this handler got into the queue, unless somebody else answers with the id before the
last response of the handler gets in. This is so if the id is opened again only when the handler has returned
and its last response is through. If then an error is received, it is the one with which the handler has
failed, and everything that the handler sent was received before. If no handler was ever started, there is
nothing to receive but that the method is not registered. On either side the queue gets each payload at most
once, and one of two payloads before the other that was sent earlier only if that still waited when its own
send began. Payloads whose sends wait for each other get in as the first of those that were sent, in order.
The id of the stream is its own: the client has not taken so many others since that it came round to this
one again. -/
theorem stream_in_order (exec : Execution (new host registry callTimeout capacity) past p)
    (hRoom : Machine.History.HasRoom (History.of past side)) {c : ClientStreamId} {x : ClientStream}
    (found : (p.session side).clientStreams[c]? = some x)
    (hOwned : (p.session side).OwnedBy x.id (.stream c))
    (hClient : (p.session side).Patient (.client c))
    (hServer : ∀ (i : ServedStreamId) (y : ServedStream S),
      (p.session side.other).ServedFirst i y → y.id = x.id →
      (p.session side.other).Patient (.served i) ∧ (History.of past side.other).Confined i) :
    (History.of past side).InOrder (p.session side) (payloadOn? c) ((History.of past side).sentOn c) ∧
    (∀ (i : ServedStreamId) (y : ServedStream S), (p.session side.other).ServedFirst i y → y.id = x.id →
      (History.of past side.other).InOrder (p.session side.other) (payloadBack? i)
        ((History.of past side.other).sentBack i) ∧
      (History.of past side.other).delivered i <+:
        (History.of past side).acceptedOn (p.session side) c ∧
      ((History.of past side.other).ReopensIdle i x.id →
        Machine.Unrivalled i x.id ((History.of past side.other).accepted (p.session side.other))) ∧
      (Machine.Unrivalled i x.id ((History.of past side.other).accepted (p.session side.other)) →
        ((History.of past side).received c).filterMap Except.toOption <+:
          (History.of past side.other).acceptedBack (p.session side.other) i ∧
        ∀ e, .error e ∈ (History.of past side).received c →
          ∃ failure, y.result = some (.error failure) ∧ e = failure.toRemote ∧
            (History.of past side).received c =
              ((History.of past side.other).acceptedBack (p.session side.other) i).map .ok ++ [.error e] ∧
            ((History.of past side.other).acceptedBack (p.session side.other) i).Perm
              ((History.of past side.other).sentBack i))) ∧
    ((∀ y ∈ (p.session side.other).servedStreams, y.id ≠ x.id) →
      (History.of past side).received c <+: [.error (.streamNotFound x.method)]) := by
  obtain ⟨_, asking⟩ := exec.life_new side
  obtain ⟨_, serving⟩ := exec.life_new side.other
  have hOrderly := exec.orderly hOwned
  refine ⟨?_, fun i y hFirst hId => ?_, fun hUnserved => ?_⟩
  · rw [← asking.payloads rfl c]
    exact asking.inOrder (Machine.spares_on hClient)
  · obtain ⟨hPatient, hConfined⟩ := hServer i y hFirst hId
    rw [← hId] at hOrderly
    refine ⟨?_, ?_, fun hReopens => ?_, fun hAlone => ?_⟩
    · rw [← serving.payloadsBack rfl hConfined.1]
      exact serving.inOrder (serving.spares_back hPatient)
    · have hHears := serving.inbox hFirst hOrderly.method
      have hMessages := exec.messages_first found hOwned
      rw [← hId] at hMessages
      exact ((List.prefix_append _ _).trans hHears.first).trans hMessages
    · rw [← hId] at hReopens ⊢
      exact serving.unrivalled hFirst hOrderly hPatient hReopens
    · exact exec.received_of_unrivalled hRoom found hOwned hFirst.found hId hPatient hConfined hAlone
  · refine (exec.received_first hRoom found hOwned).trans (messagesOf_of_error fun content hContent => ?_)
    obtain ⟨⟨sender, e⟩, hAccepted, hReply⟩ := List.mem_filterMap.mp hContent
    obtain rfl := Envelope.reply?_eq_some hReply
    exact exec.reply_of_unserved found hOwned hUnserved (serving.queueing.accepted_subperm.subset hAccepted)

/-- A handler receives one of two payloads, sends one back and fails. Its client receives the payload and
then the error. -/
theorem stream_in_order_of_failed : ∃ (past : History Unit Unit) (p : Pair Unit Unit)
    (x : ClientStream) (y : ServedStream Unit) (failure : Failure),
    Execution (new (Host.new false) (fun _ => ⟨[], [⟨"A.c", (), true, true⟩]⟩) (fun _ => none) 4)
      past p ∧ p.a.clientStreams[0]? = some x ∧ p.b.ServedFirst 0 y ∧ y.id = x.id ∧
      y.result = some (.error failure) ∧
      (History.of past .a).sentOn 0 = [.ofValue [1], .ofValue [2]] ∧
      (History.of past .b).delivered 0 = [.ofValue [1]] ∧
      (History.of past .b).delivered 0 <+: (History.of past .a).sentOn 0 ∧
      (History.of past .b).sentBack 0 = [.ofValue [3]] ∧
      (History.of past .a).received 0 = [.ok (.ofValue [3]), .error failure.toRemote] := by
  have hPlay : ((new (Host.new false)
      (fun _ => (⟨[], [⟨"A.c", (), true, true⟩]⟩ : Registry Unit Unit)) (fun _ => none) 4).play
      [.act .a (.openStream "A.c"), .act .a (.sendClient 0 (.ofValue [1])), .act .a (.advance 0),
        .act .a (.sendClient 0 (.ofValue [2])), .act .a (.advance 1), .deliver .b, .deliver .b,
        .act .b (.receiveServed 0), .act .b (.sendServed 0 (.ofValue [3])), .act .b (.advance 0),
        .act .b (.finishServed 0 (.error (.ofRoot (.message "no")))), .act .b (.advance 1), .deliver .a,
        .deliver .a, .act .a (.pollClient 0), .act .a (.pollClient 0), .act .a (.receiveClient 0),
        .act .a (.receiveClient 0)]).map
      (fun r => ((r.2.a.clientStreams.map ClientStream.id, r.2.b.servedStreams.map ServedStream.id,
        r.2.a.calls.length),
        (decide (Machine.History.HasRoom (History.of r.1 .a) ∧ r.2.a.Patient (.client 0) ∧
          r.2.b.Patient (.served 0) ∧ (History.of r.1 .b).Confined 0 ∧
          (History.of r.1 .b).ReopensIdle 0 0 ∧
          (History.of r.1 .a).Serial r.2.a fun z => (payloadOn? 0 z).isSome),
        ((History.of r.1 .a).received 0).any fun message => message.toOption.isNone),
        [(History.of r.1 .a).sentOn 0, (History.of r.1 .b).delivered 0, (History.of r.1 .b).sentBack 0,
          (History.of r.1 .b).acceptedBack r.2.b 0])) =
      some (([0], [0], 0), (true, true),
        [[.ofValue [1], .ofValue [2]], [.ofValue [1]], [.ofValue [3]], [.ofValue [3]]]) := by
    decide +kernel
  obtain ⟨⟨past, p⟩, hRun, hFacts⟩ := Option.map_eq_some_iff.mp hPlay
  simp only [Prod.mk.injEq, List.cons.injEq, and_true, decide_eq_true_eq] at hFacts
  obtain ⟨⟨hStreams, hServed, hCalls⟩, ⟨⟨hRoom, hClient, hPatient, hConfined, hReopens, hSerial⟩, hFailed⟩,
    hSent, hDelivered, hBack, hQueued⟩ := hFacts
  have exec := Execution.refl.play hRun
  rw [List.nil_append] at exec
  obtain ⟨x, hStream, hx⟩ := List.map_eq_singleton_iff.mp hStreams
  obtain ⟨y, hServedStream, hy⟩ := List.map_eq_singleton_iff.mp hServed
  have found : p.a.clientStreams[0]? = some x := by rw [hStream]; rfl
  have hFirst : p.b.ServedFirst 0 y := ⟨by rw [hServedStream]; rfl, fun j z _ _ => Nat.zero_le j⟩
  have hOwned : p.a.OwnedBy x.id (.stream 0) := by
    refine fun o ho => Session.owner_unique ?_ ho (by rw [Session.idOf?, found, Option.map_some])
    rw [Session.ids, List.length_eq_zero_iff.mp hCalls, hStream]
    exact List.nodup_singleton _
  obtain ⟨hOn, hStream, _⟩ := stream_in_order exec hRoom found hOwned hClient fun i z hz hId => by
    obtain rfl : i = 0 :=
      Nat.le_zero.mp (hz.first 0 y hFirst.found ((hy.trans hx.symm).trans hId.symm))
    exact ⟨hPatient, hConfined⟩
  obtain ⟨_, hHeard, hAlone, hReceived⟩ := hStream 0 y hFirst (hy.trans hx.symm)
  obtain ⟨_, hErrors⟩ := hReceived (hAlone (hx ▸ hReopens))
  obtain ⟨message, hMessage, hIsError⟩ := List.any_eq_true.mp hFailed
  cases message with
  | ok _ => cases hIsError
  | error e =>
      obtain ⟨failure, hResult, rfl, hAll, _⟩ := hErrors e hMessage
      rw [show (History.of past Side.a.other).acceptedBack (p.session Side.a.other) 0 = _ from hQueued]
        at hAll
      exact ⟨past, p, x, y, failure, exec, found, hFirst, hy.trans hx.symm, hResult, hSent, hDelivered,
        hHeard.trans (hOn.serial hSerial), hBack, hAll⟩

/-- A message gets ahead of one that is already waiting. The answer of a second handler gets ahead of the
error of the first one, which is still waiting when the other message opens the stream again. -/
theorem stream_out_of_order : ∃ (past : History Unit Unit) (p : Pair Unit Unit) (x : ClientStream)
    (y z : ServedStream Unit),
    Execution (new (Host.new false) (fun _ => ⟨[], [⟨"A.c", (), true, true⟩]⟩) (fun _ => none) 0)
      past p ∧ p.a.clientStreams = [x] ∧ p.b.servedStreams = [y, z] ∧ y.id = x.id ∧ z.id = x.id ∧
      (∀ e ∈ past, e.2 ≠ .act .a .bye) ∧ p.a.Patient (.client 0) ∧
      (p.b.Patient (.served 0) ∧ (History.of past .b).Confined 0) ∧
      (p.b.Patient (.served 1) ∧ (History.of past .b).Confined 1) ∧
      (History.of past .a).sentOn 0 = [.ofValue [1], .ofValue [2], .ofValue [3]] ∧
      (History.of past .b).delivered 0 = [.ofValue [1], .ofValue [3]] ∧
      ¬ (History.of past .b).delivered 0 <+: (History.of past .a).sentOn 0 ∧
      (History.of past .b).sentBack 0 = [] ∧
      ((History.of past .a).received 0).filterMap Except.toOption = [.ofValue [4]] ∧
      ¬ ((History.of past .a).received 0).filterMap Except.toOption <+: (History.of past .b).sentBack 0 := by
  have hPlay : ((new (Host.new false)
      (fun _ => (⟨[], [⟨"A.c", (), true, true⟩]⟩ : Registry Unit Unit)) (fun _ => none) 0).play
      [.act .a (.openStream "A.c"), .act .a (.sendClient 0 (.ofValue [1])), .act .a (.advance 0),
        .act .a (.sendClient 0 (.ofValue [2])), .deliver .b, .act .a (.advance 0),
        .act .a (.sendClient 0 (.ofValue [3])), .act .a (.advance 2), .deliver .b, .act .a (.advance 2),
        .act .b (.receiveServed 0), .act .b (.receiveServed 0), .act .b .bye, .act .b (.advance 0),
        .act .b (.finishServed 0 (.error (.ofRoot (.message "no")))), .act .a (.advance 1), .deliver .b,
        .act .a (.advance 1), .deliver .a, .act .b (.advance 0), .act .b (.sendServed 1 (.ofValue [4])),
        .act .b (.advance 2), .deliver .a, .act .b (.advance 2), .act .a (.pollClient 0),
        .act .a (.receiveClient 0)]).map
      (fun r => ((r.2.a.clientStreams.map ClientStream.id, r.2.b.servedStreams.map ServedStream.id),
        (decide (r.2.a.Patient (.client 0) ∧
          (r.2.b.Patient (.served 0) ∧ (History.of r.1 .b).Confined 0) ∧
          (r.2.b.Patient (.served 1) ∧ (History.of r.1 .b).Confined 1)),
        r.1.any fun e => e.2 matches .act .a .bye),
        [(History.of r.1 .a).sentOn 0, (History.of r.1 .b).delivered 0, (History.of r.1 .b).sentBack 0,
          ((History.of r.1 .a).received 0).filterMap Except.toOption])) =
      some (([0], [0, 0]), (true, false), [[.ofValue [1], .ofValue [2], .ofValue [3]],
        [.ofValue [1], .ofValue [3]], [], [.ofValue [4]]]) := by
    decide +kernel
  obtain ⟨⟨past, p⟩, hRun, hFacts⟩ := Option.map_eq_some_iff.mp hPlay
  simp only [Prod.mk.injEq, List.cons.injEq, and_true, decide_eq_true_eq] at hFacts
  obtain ⟨⟨hStreams, hServed⟩, ⟨⟨hClient, hFirst, hSecond⟩, hQuiet⟩, hSent, hDelivered, hBack,
    hReceived⟩ := hFacts
  have exec := Execution.refl.play hRun
  rw [List.nil_append] at exec
  obtain ⟨x, hStream, hx⟩ := List.map_eq_singleton_iff.mp hStreams
  obtain ⟨y, rest, hServedStreams, hy, hRest⟩ := List.map_eq_cons_iff.mp hServed
  obtain ⟨z, rfl, hz⟩ := List.map_eq_singleton_iff.mp hRest
  have hBye : ∀ e ∈ past, e.2 ≠ .act .a .bye := fun e he hAction => by
    have hNot := List.any_eq_false.mp hQuiet e he
    rw [hAction] at hNot
    exact hNot rfl
  refine ⟨past, p, x, y, z, exec, hStream, hServedStreams, hy.trans hx.symm, hz.trans hx.symm, hBye, hClient,
    hFirst, hSecond, hSent, hDelivered, ?_, hBack, hReceived, ?_⟩
  · rw [hSent, hDelivered]
    decide
  · rw [hReceived, hBack]
    decide

end PeerLink.Pair

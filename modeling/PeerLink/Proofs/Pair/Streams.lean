import PeerLink.Proofs.Pair.Execution
import PeerLink.Proofs.Session.Reopening
import PeerLink.Proofs.Session.Wording

/-! Streams between two connected sessions. Every handler that runs for a stream belongs to one stream of
the other side. That only one handler runs for each stream is not certain: a bye or the return of the
handler takes the id out of the table, and messages that are still on their way then start another one. So
does a message whose send waits while the stream is closed, if the close overtakes it. It is certain without
such messages. -/
namespace PeerLink.Pair

open Machine (History.heard History.taken History.Late History.Trailed History.Overlap SameMethod)

variable {M S : Type} {host : Host} {registry : Side → Registry M S}
  {callTimeout : Side → Option Duration} {capacity : Nat} {past : History M S} {p : Pair M S}
  {side : Side}

/-- A session handles what the transport takes from the other one. -/
theorem Execution.heard_eq_taken {start : Pair M S} (exec : Execution start past p) (side : Side) :
    History.heard (History.of past side) = History.taken (History.of past side.other) := by
  unfold Machine.History.heard Machine.History.taken History.of
  rw [List.filterMap_filterMap, List.filterMap_filterMap]
  refine List.filterMap_congr fun y hMem => ?_
  obtain ⟨q, x⟩ := y
  obtain ⟨q', hStep, _⟩ := exec.grows_after hMem
  cases x with
  | act s a =>
      obtain ⟨hLocal, _⟩ := step?_act_eq_some hStep
      simp only [view]
      cases a with
      | receive | stop | take | abandon => cases hLocal
      | _ => split <;> split <;> rfl
  | deliver s =>
      by_cases hs : s = side
      · subst hs
        have hOther : s ≠ s.other := by cases s <;> simp [Side.other]
        simp only [view, if_true, if_neg hOther, Option.map_some, Option.bind_some]
        unfold Machine.takeOutbound? Outbound.take?
        cases (q.machine s.other).session.outbound.queued <;> simp
      · obtain rfl : s = side.other := by cases s <;> cases side <;> simp_all [Side.other]
        simp only [view, if_neg hs, if_true, Option.map_some, Option.bind_some]
        cases (q.machine side.other.other).takeOutbound? <;> rfl
  | stop s exhausted =>
      simp only [view]
      split <;> split <;> rfl

/-- A message that is handled on one side is one of a stream of the other side. -/
theorem Execution.message_origin (exec : Execution (new host registry callTimeout capacity) past p)
    {r : Request} (hHeard : .request r ∈ History.heard (History.of past side.other))
    (hStream : r.isStream = true) : ∃ (c : ClientStreamId) (x : ClientStream),
      (p.session side).clientStreams[c]? = some x ∧ x.id = r.id ∧ x.method = r.method := by
  obtain ⟨_, hExplained⟩ := exec.explained hHeard
  cases hExplained with
  | call => cases hStream
  | message _ found => exact ⟨_, _, found, rfl, rfl⟩

theorem Execution.clientStream_unique
    (exec : Execution (new host registry callTimeout capacity) past p)
    (hSmall : (p.session side).allocated < 2 ^ 31) {c c' : ClientStreamId} {x x' : ClientStream}
    (found : (p.session side).clientStreams[c]? = some x)
    (found' : (p.session side).clientStreams[c']? = some x') (hId : x.id = x'.id) : c = c' := by
  obtain ⟨_, life⟩ := exec.life_new side
  exact (Session.ownedBy_of_nodup (life.ids_nodup (by omega)) found').clientStream_eq found hId

theorem Execution.sameMethod (exec : Execution (new host registry callTimeout capacity) past p)
    (hSmall : (p.session side).allocated < 2 ^ 31) (id : Int32) :
    SameMethod (History.heard (History.of past side.other)) id := by
  intro r r' hr hr' hStream hStream' hId hId'
  obtain ⟨c, x, found, hx, hMethod⟩ := exec.message_origin hr hStream
  obtain ⟨c', x', found', hx', hMethod'⟩ := exec.message_origin hr' hStream'
  have hSame := exec.clientStream_unique hSmall found found' (by rw [hx, hx', hId, hId'])
  subst hSame
  rw [found] at found'
  cases found'
  exact hMethod.symm.trans hMethod'

/-- A message comes behind the close of its stream only if its send was under way when the close began. -/
theorem Execution.overtaken (exec : Execution (new host registry callTimeout capacity) past p)
    {c : ClientStreamId} {x : ClientStream} (found : (p.session side).clientStreams[c]? = some x)
    (hOwned : (p.session side).OwnedBy x.id (.stream c))
    (h : History.Trailed (History.of past side.other) x.id) :
    ∃ t u payload, History.Overlap (History.of past side) t u ∧
      (p.session side).said[t]? = some (.client c, x.message payload) ∧
      (p.session side).said[u]? = some (.client c, .streamClose x.id) := by
  obtain ⟨_, asking⟩ := exec.life_new side
  obtain ⟨_, serving⟩ := exec.life_new side.other
  have hQueue := asking.queueing
  obtain ⟨r, hStream, hId, hBehind⟩ := serving.heard_trailed h
  rw [exec.heard_eq_taken, other_other] at hBehind
  have hEntered := hBehind.trans ((List.prefix_append _ _).trans hQueue.flow).sublist
  obtain ⟨l, hSub, hPair⟩ := List.sublist_map_iff.mp hEntered
  obtain ⟨⟨u, _⟩, rest, rfl, rfl, hRest⟩ := List.map_eq_cons_iff.mp hPair.symm
  obtain ⟨⟨t, _⟩, rfl, rfl⟩ := List.map_eq_singleton_iff.mp hRest
  -- Both were said by the stream that has the id.
  obtain ⟨w, hClose⟩ := hQueue.said (List.mem_append_left _ (hSub.subset List.mem_cons_self))
  obtain ⟨v, hMessage⟩ := hQueue.said
    (List.mem_append_left _ (hSub.subset (List.mem_cons_of_mem _ List.mem_cons_self)))
  have hCloser : w = .client c := by
    generalize hSame : x.id = id at hClose hOwned
    cases asking.explained rfl _ _ (List.mem_of_getElem? hClose) with
    | close found' => rw [hOwned.clientStream_eq found' rfl]
  have hSender : v = .client c ∧ ∃ payload, Envelope.request r = x.message payload := by
    cases asking.explained rfl _ _ (List.mem_of_getElem? hMessage) with
    | call => cases hStream
    | message payload found' =>
        cases hOwned.clientStream_eq found' hId
        cases found.symm.trans found'
        exact ⟨rfl, payload, rfl⟩
  obtain ⟨rfl, payload, hMessageIs⟩ := hSender
  subst hCloser
  rw [hMessageIs] at hMessage
  refine ⟨t, u, payload, ?_, hMessage, hClose⟩
  have hOrder := List.pairwise_iff_forall_sublist.mp asking.entered_order (hSub.map Prod.fst)
  refine hOrder.resolve_left fun hLt => ?_
  exact Nat.not_le.mpr hLt (asking.closed_last rfl rfl found hClose hMessage)

/-- Every handler of a stream runs for exactly one stream of the other side. It is the only one that ever
runs for this stream, unless a message of the stream arrives after a bye or the return of a handler has
ended it, or behind its close; then it is not. A message arrives behind the close only if its send was still
under way when the client began to close the stream. The end of the session has no part in this. -/
theorem stream_served_once_iff (exec : Execution (new host registry callTimeout capacity) past p)
    (hSmall : (p.session side).allocated < 2 ^ 31) :
    (∀ (i : ServedStreamId) (x : ServedStream S),
      (p.session side.other).servedStreams[i]? = some x →
      ∃ (c : ClientStreamId) (stream : ClientStream),
        (p.session side).clientStreams[c]? = some stream ∧ stream.id = x.id ∧
          ∀ (c' : ClientStreamId) (stream' : ClientStream),
            (p.session side).clientStreams[c']? = some stream' → stream'.id = x.id → c' = c) ∧
    ∀ (c : ClientStreamId) (stream : ClientStream),
      (p.session side).clientStreams[c]? = some stream →
      ((p.session side.other).ServedOnce stream.id ↔
        ¬ History.Late (History.of past side.other) stream.id ∧
          ¬ History.Trailed (History.of past side.other) stream.id) ∧
      (History.Trailed (History.of past side.other) stream.id →
        ∃ t u payload, History.Overlap (History.of past side) t u ∧
          (p.session side).said[t]? = some (.client c, stream.message payload) ∧
          (p.session side).said[u]? = some (.client c, .streamClose stream.id)) := by
  obtain ⟨_, served⟩ := exec.life_new side.other
  have hMethod := exec.sameMethod hSmall
  refine ⟨fun i x hx => ?_, fun c stream found => ⟨⟨fun hOnce => ⟨fun hLate => ?_, fun hTrailed => ?_⟩,
    fun ⟨hLate, hTrailed⟩ => served.servedOnce hLate hTrailed⟩, ?_⟩⟩
  · obtain ⟨r, hHeard, hStream, hId, _⟩ := served.served rfl i x hx
    obtain ⟨c, stream, found, hSame, _⟩ := exec.message_origin hHeard hStream
    refine ⟨c, stream, found, hSame.trans hId, fun c' stream' found' hId' => ?_⟩
    exact exec.clientStream_unique hSmall found' found (hId'.trans (hSame.trans hId).symm)
  · exact served.not_servedOnce Machine.EndsEarly.ends (hMethod stream.id) hLate hOnce
  · exact served.not_servedOnce Machine.EndsClosed.ends (hMethod stream.id) hTrailed hOnce
  · obtain ⟨_, asking⟩ := exec.life_new side
    exact exec.overtaken found (Session.ownedBy_of_nodup (asking.ids_nodup (by omega)) found)

/-- A stream with two messages and a close is served by one handler: nothing came late, and nothing behind
its close. -/
theorem stream_served_once_of_closed : ∃ (past : History Unit Unit) (p : Pair Unit Unit)
    (stream : ClientStream),
    Execution (new (Host.new false) (fun _ => ⟨[], [⟨"A.c", (), true, true⟩]⟩) (fun _ => none) 4)
      past p ∧ p.a.clientStreams[0]? = some stream ∧ p.b.servedStreams.length = 1 ∧
      p.b.ServedOnce stream.id ∧ ¬ History.Late (History.of past .b) stream.id ∧
      ¬ History.Trailed (History.of past .b) stream.id := by
  have hPlay : ((new (Host.new false)
      (fun _ => (⟨[], [⟨"A.c", (), true, true⟩]⟩ : Registry Unit Unit)) (fun _ => none) 4).play
      [.act .a (.openStream "A.c"), .act .a (.sendClient 0 (.ofValue [1])),
        .act .a (.sendClient 0 (.ofValue [2])), .act .a (.closeClient 0), .act .a (.advance 0),
        .act .a (.advance 1), .act .a (.advance 2), .deliver .b, .deliver .b, .deliver .b,
        .act .b (.finishServed 0 (.ok ())), .act .b (.advance 0), .deliver .a]).map
      (fun r => (r.2.a.clientStreams.length, r.2.a.allocated, r.2.b.servedStreams.length)) =
        some (1, 1, 1) := by decide +kernel
  obtain ⟨⟨past, p⟩, hRun, hFacts⟩ := Option.map_eq_some_iff.mp hPlay
  simp only [Prod.mk.injEq] at hFacts
  obtain ⟨hStreams, hAllocated, hServed⟩ := hFacts
  have exec := Execution.refl.play hRun
  have hSmall : (p.session .a).allocated < 2 ^ 31 := by
    have hSame : (p.session .a).allocated = 1 := hAllocated
    omega
  obtain ⟨_, hIff⟩ := stream_served_once_iff exec hSmall
  have hFound : p.a.clientStreams[0]? = some p.a.clientStreams[0] :=
    List.getElem?_eq_getElem (by omega)
  have hOnce : p.b.ServedOnce p.a.clientStreams[0].id := by
    intro i j x y hx hy _ _
    have hi := (List.getElem?_eq_some_iff.mp hx).1
    have hj := (List.getElem?_eq_some_iff.mp hy).1
    exact (Nat.lt_one_iff.mp (hServed ▸ hi)).trans (Nat.lt_one_iff.mp (hServed ▸ hj)).symm
  exact ⟨past, p, _, exec, hFound, hServed, hOnce, (hIff 0 _ hFound).1.mp hOnce⟩

/-- The client says bye and then sends another message. A second handler runs for the same stream. -/
theorem stream_served_twice : ∃ (past : History Unit Unit) (p : Pair Unit Unit)
    (stream : ClientStream),
    Execution (new (Host.new false) (fun _ => ⟨[], [⟨"Echo.Hold", (), true, true⟩]⟩) (fun _ => none) 4)
      past p ∧ p.a.clientStreams = [stream] ∧ ¬ p.b.ServedOnce stream.id := by
  have hPlay : ((new (Host.new false)
      (fun _ => (⟨[], [⟨"Echo.Hold", (), true, true⟩]⟩ : Registry Unit Unit)) (fun _ => none) 4).play
      [.act .a (.openStream "Echo.Hold"), .act .a (.sendClient 0 (.ofValue [1])), .act .a (.advance 0),
        .deliver .b, .act .a .bye, .act .a (.advance 1), .deliver .b,
        .act .a (.sendClient 0 (.ofValue [2])), .act .a (.advance 2), .deliver .b]).map
      (fun r => (r.2.a.clientStreams.map ClientStream.id, r.2.b.servedStreams.map ServedStream.id)) =
        some ([0], [0, 0]) := by decide +kernel
  obtain ⟨⟨past, p⟩, hRun, hFacts⟩ := Option.map_eq_some_iff.mp hPlay
  obtain ⟨hStreams, hServed⟩ := Prod.mk.inj hFacts
  obtain ⟨stream, hStream, hId⟩ := List.map_eq_singleton_iff.mp hStreams
  obtain ⟨x, rest, hFirst, hx, hRest⟩ := List.map_eq_cons_iff.mp hServed
  obtain ⟨y, hSecond, hy⟩ := List.map_eq_singleton_iff.mp hRest
  refine ⟨past, p, stream, Execution.refl.play hRun, hStream, fun hOnce => ?_⟩
  have hTwo : p.b.servedStreams = [x, y] := by rw [hFirst, hSecond]
  have hSame := hOnce 0 1 x y (by rw [hTwo]; rfl) (by rw [hTwo]; rfl) (by rw [hx, hId])
    (by rw [hy, hId])
  cases hSame

end PeerLink.Pair

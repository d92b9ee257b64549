import PeerLink.Proofs.Session.Ending

/-! A stream opened here, as its owner sees it while the session goes on. What the owner receives, and
whether the stream is ready, are determined by the responses with its id alone, whenever these come and
whenever the owner asks (`client_stream_follows`). The stream becomes ready when its first response is
sorted, and whatever ends it has been sorted before. -/
namespace PeerLink.Machine

variable {M S : Type} {m m' : Machine M S} {a : Action} {c : ClientStreamId} {past : History M S}
  {x y : ClientStream}

/-! ### Receiving -/

theorem receiveClient_message_iff (found : m.session.clientStreams[c]? = some x)
    {message : Except RemoteError Payload} :
    (m.receiveClient c).1 = .message message ↔ [message] <+: x.messages := by
  cases hMessages : x.messages with
  | nil =>
      simp only [receiveClient, found, hMessages, List.prefix_nil, List.cons_ne_nil, iff_false]
      split <;> simp
  | cons first rest => simp [receiveClient, found, hMessages, eq_comm]

theorem receiveClient_ended_iff (found : m.session.clientStreams[c]? = some x) :
    (m.receiveClient c).1 = .ended ↔ x.messages = [] ∧ x.ended = true := by
  cases hMessages : x.messages with
  | nil => simp [receiveClient, found, hMessages]
  | cons first rest => simp [receiveClient, found, hMessages]

theorem receiveClient_blocked_iff (found : m.session.clientStreams[c]? = some x) :
    (m.receiveClient c).1 = .blocked ↔ x.messages = [] ∧ x.ended = false := by
  cases hMessages : x.messages with
  | nil => simp [receiveClient, found, hMessages]
  | cons first rest => simp [receiveClient, found, hMessages]

/-- Once a stream has ended and everything was received, that is final. -/
theorem step?_drained (found : m.session.clientStreams[c]? = some x) (hEnded : x.ended = true)
    (hDrained : x.messages = []) (h : m.step? a = some m')
    (found' : m'.session.clientStreams[c]? = some y) : y.messages = [] ∧ y.ended = true := by
  have hSame : ∀ z : ClientStream, m.session.clientStreams[c]? = some z → z = x := fun z hz =>
    Option.some.inj (hz.symm.trans found)
  cases step?_client h found' with
  | opened _ _ new =>
      rw [new, List.getElem?_eq_none (Nat.le_refl _)] at found
      cases found
  | kept z hz _ _ _ messages ended =>
      cases hSame z hz
      exact ⟨messages.trans hDrained, ended.trans hEnded⟩
  | arrived z _ hz _ _ _ messages ended =>
      cases hSame z hz
      exact ⟨messages.trans hDrained, ended.trans hEnded⟩
  | received z _ hz _ _ _ messages =>
      rw [hSame z hz, hDrained] at messages
      cases messages
  | sorted z _ hz _ unended =>
      rw [hSame z hz, hEnded] at unended
      cases unended
  | stopped z hz _ unended =>
      rw [hSame z hz, hEnded] at unended
      cases unended

theorem Execution.drained {later : History M S} (exec : Execution m later m')
    (found : m.session.clientStreams[c]? = some x) (h : (m.receiveClient c).1 = .ended) :
    (m'.receiveClient c).1 = .ended := by
  have hDrained : ∃ y, m'.session.clientStreams[c]? = some y ∧ y.messages = [] ∧ y.ended = true := by
    induction exec with
    | refl => exact ⟨x, found, (receiveClient_ended_iff found).mp h⟩
    | step _ last ih =>
        obtain ⟨y, hy, hDrained, hEnded⟩ := ih
        obtain ⟨z, hz, _⟩ := step?_clientStreams last c y hy
        exact ⟨z, hz, step?_drained hy hEnded hDrained last hz⟩
  obtain ⟨y, hy, hOver⟩ := hDrained
  exact (receiveClient_ended_iff hy).mpr hOver

/-! ### Readiness -/

theorem clientReady?_eq_ok_iff (found : m.session.clientStreams[c]? = some x) :
    m.clientReady? c = some (.ok ()) ↔ x.ready = true := by
  cases hReady : x.ready <;> cases hEnded : x.ended <;> simp [clientReady?, found, hReady, hEnded]

theorem clientReady?_eq_ended_iff (found : m.session.clientStreams[c]? = some x) :
    m.clientReady? c = some (.error .ended) ↔ x.ready = false ∧ x.ended = true := by
  cases hReady : x.ready <;> cases hEnded : x.ended <;> simp [clientReady?, found, hReady, hEnded]

theorem clientReady?_eq_none_iff (found : m.session.clientStreams[c]? = some x) :
    m.clientReady? c = none ↔ x.ready = false ∧ x.ended = false := by
  cases hReady : x.ready <;> cases hEnded : x.ended <;> simp [clientReady?, found, hReady, hEnded]

/-- A stream becomes ready when one of its responses is sorted, and stays so. -/
theorem step?_ready (found : m.session.clientStreams[c]? = some x) (h : m.step? a = some m')
    (found' : m'.session.clientStreams[c]? = some y) :
    y.ready = true ↔ x.ready = true ∨ y.responses.length < x.responses.length := by
  -- Every action but the sorting of a response changes other parts of a stream, or other streams.
  have hModified : ∀ {d : ClientStreamId} {f : ClientStream → ClientStream},
      m'.session.clientStreams = m.session.clientStreams.modify d f →
      (∀ z, (f z).ready = z.ready) → (∀ z, z.responses.length ≤ (f z).responses.length) →
      (y.ready = true ↔ x.ready = true ∨ y.responses.length < x.responses.length) := by
    intro d f streams hReady hLength
    rw [streams] at found'
    obtain ⟨_, hOld⟩ | ⟨_, z, hz, rfl⟩ := getElem?_modify_eq_some found'
    · cases found.symm.trans hOld
      simp
    · cases found.symm.trans hz
      rw [hReady, or_iff_left (Nat.not_lt.mpr (hLength x))]
  cases step?_streams h with
  | kept _ _ streams =>
      rw [streams] at found'
      cases found.symm.trans found'
      simp
  | opened _ _ streams =>
      rw [streams] at found'
      obtain hOld | ⟨hNew, _⟩ := getElem?_concat_eq_some found'
      · cases found.symm.trans hOld
        simp
      · exact absurd (List.getElem?_eq_some_iff.mp found).1 (Nat.not_lt.mpr (Nat.le_of_eq hNew.symm))
  | closed _ _ streams => exact hModified streams (fun _ => rfl) fun _ => Nat.le_refl _
  | arrived _ _ _ _ streams => exact hModified streams (fun _ => rfl) fun _ => by simp
  | received _ _ _ _ _ _ _ _ streams => exact hModified streams (fun _ => rfl) fun _ => Nat.le_refl _
  | stopped _ _ _ _ _ _ streams => exact hModified streams (fun _ => rfl) fun _ => Nat.le_refl _
  | sorted d w content rest _ hw _ responses streams =>
      rw [streams] at found'
      obtain ⟨_, hOld⟩ | ⟨rfl, z, hz, rfl⟩ := getElem?_modify_eq_some found'
      · cases found.symm.trans hOld
        simp
      · cases hw.symm.trans found
        simp [responses]

theorem Execution.stays_ready {later : History M S} (exec : Execution m later m')
    (found : m.session.clientStreams[c]? = some x) (hReady : x.ready = true) :
    m'.clientReady? c = some (.ok ()) := by
  have hStays : ∃ y, m'.session.clientStreams[c]? = some y ∧ y.ready = true := by
    induction exec with
    | refl => exact ⟨x, found, hReady⟩
    | step _ last ih =>
        obtain ⟨y, hy, hStays⟩ := ih
        obtain ⟨z, hz, _⟩ := step?_clientStreams last c y hy
        exact ⟨z, hz, (step?_ready hy last hz).mpr (.inl hStays)⟩
  obtain ⟨y, hy, hStays⟩ := hStays
  exact (clientReady?_eq_ok_iff hy).mpr hStays

/-- A stream that has just been opened is not ready. -/
theorem step?_unready (h : m.step? a = some m') (hNew : m.session.clientStreams[c]? = none)
    (found' : m'.session.clientStreams[c]? = some y) :
    y.ready = false ∧ y.responses = [] ∧ arrival? c (m, a) = none := by
  cases step?_client h found' with
  | opened method cause =>
      subst cause
      cases h
      obtain hy | ⟨_, rfl⟩ := getElem?_concat_eq_some found'
      · cases hNew.symm.trans hy
      · exact ⟨rfl, rfl, rfl⟩
  | kept _ found | arrived _ _ found | received _ _ found | sorted _ _ found | stopped _ found =>
      rw [hNew] at found
      cases found

section

variable {registry : Registry M S} {callTimeout : Option Duration} {capacity : Nat}

/-- A stream is ready exactly if one of the responses handed over to it was sorted. -/
theorem Life.ready {lifetime : LifetimeId} {s : Session M S}
    (life : Life (Session.new registry callTimeout capacity lifetime) past s) (hRoom : past.HasRoom)
    (found : s.clientStreams[c]? = some x) :
    x.ready = true ↔ x.responses.length < (past.arrived c).length := by
  induction life generalizing x with
  | refl => simp [Session.new] at found
  | @step past s host a m' prior last ih =>
      have hBefore := (List.forall_mem_append.mp hRoom).1
      obtain ⟨hOld, hNew⟩ := prior.sorted hBefore
      rw [History.arrived_concat, List.length_append]
      cases hw : s.clientStreams[c]? with
      | none =>
          obtain ⟨hUnready, hResponses, hArrival⟩ := step?_unready last hw found
          rw [hUnready, hResponses, hArrival, (hNew c hw).arrived]
          simp
      | some w =>
          obtain ⟨done, hSorted⟩ := hOld c w hw
          have hLength := congrArg List.length hSorted.arrived
          rw [List.length_append] at hLength
          rw [step?_ready (m := ⟨host, s⟩) hw last found, ih hBefore hw]
          have hSame : ∀ z : ClientStream, s.clientStreams[c]? = some z → z = w := fun z hz =>
            Option.some.inj (hz.symm.trans hw)
          cases step?_client last found with
          | opened _ _ new =>
              rw [new, List.getElem?_eq_none (Nat.le_refl _)] at hw
              cases hw
          | kept z hz arrival _ responses =>
              rw [arrival, responses, hSame z hz]
              simp
          | arrived z content hz arrival _ responses =>
              rw [arrival, responses, hSame z hz, List.length_append, Option.toList_some,
                List.length_singleton]
              omega
          | received z message hz arrival _ responses =>
              rw [arrival, responses, hSame z hz]
              simp
          | sorted z content hz cause _ responses =>
              rw [← hSame z hz, responses, List.length_cons] at hLength ⊢
              omega
          | stopped z hz cause _ _ responses =>
              rw [cause, responses, hSame z hz]
              simp [arrival?]

variable {host : Host}

/-- While the session goes on, whatever ends a stream that its owner keeps is sorted first. -/
theorem Execution.ready_of_ended
    (exec : Execution (Machine.new host registry callTimeout capacity) past m) (hRoom : past.HasRoom)
    (found : m.session.clientStreams[c]? = some x) (hKept : past.Keeps c x.lifetime)
    (hEnded : x.ended = true) : x.ready = true ∨ m.isEnded = true := by
  induction exec generalizing x with
  | refl => simp [Machine.new, Session.new] at found
  | @step past m m' a prior last ih =>
      obtain ⟨hRoomBefore, _⟩ := List.forall_mem_append.mp hRoom
      obtain ⟨hKeptBefore, _⟩ := List.forall_mem_append.mp hKept
      have hRooted := prior.rooted (rooted_new _ _ _ _)
      cases hw : m.session.clientStreams[c]? with
      | none =>
          cases step?_client last found with
          | opened _ _ _ _ _ unended =>
              rw [hEnded] at unended
              cases unended
          | kept _ hx | arrived _ _ hx | received _ _ hx | sorted _ _ hx | stopped _ hx =>
              rw [hw] at hx
              cases hx
      | some w =>
          have hSame : ∀ z : ClientStream, m.session.clientStreams[c]? = some z → z = w :=
            fun z hz => Option.some.inj (hz.symm.trans hw)
          have hReady := step?_ready hw last found
          rw [((step?_clientStreams last).rel hw found).lifetime] at hKeptBefore
          have hBefore : w.ended = true → x.ready = true ∨ m'.isEnded = true := fun h =>
            (ih hRoomBefore hw hKeptBefore h).imp (fun h => hReady.mpr (.inl h))
              (hRooted.isEnded_step last)
          cases step?_client last found with
          | opened _ _ _ _ _ unended =>
              rw [hEnded] at unended
              cases unended
          | kept z hz _ _ _ _ ended => exact hBefore (hSame z hz ▸ ended.symm.trans hEnded)
          | arrived z _ hz _ _ _ _ ended => exact hBefore (hSame z hz ▸ ended.symm.trans hEnded)
          | received z _ hz _ _ _ _ ended => exact hBefore (hSame z hz ▸ ended.symm.trans hEnded)
          | sorted z content hz _ _ responses =>
              refine .inl (hReady.mpr (.inr ?_))
              rw [← hSame z hz, responses]
              exact Nat.lt_succ_self _
          | stopped z hz _ unended cancelled =>
              cases hSame z hz
              cases prior.fate hRoomBefore hw hKeptBefore with
              | going _ unflagged =>
                  rw [hRooted.isCancelled_iff (mem_handles_client hw), unflagged] at cancelled
                  exact .inr (hRooted.isEnded_step last (cancelled.resolve_left Bool.false_ne_true))
              | complete ended =>
                  rw [unended] at ended
                  cases ended
              | cutOff ended =>
                  rw [unended] at ended
                  cases ended

/-! ### The end -/

/-- A stream that has ended is closed for good. Its lifetime is cancelled and its id no longer leads to it.
A response with the id changes nothing of it, and nothing at all but the journal, unless the id has been
given to another call or stream by now. Nothing more can be sent. -/
structure Finished (m : Machine M S) (c : ClientStreamId) (x : ClientStream) : Prop where
  cancelled : m.isCancelled x.lifetime = true
  slot : m.session.pending.get? x.id ≠ some (.stream c)
  untouched : ∀ content,
    (m.handle (.response ⟨x.id, content⟩)).session.clientStreams[c]? = some x
  ignored : ∀ content, m.handle (.response ⟨x.id, content⟩) = m.log .unknownRequestAnswered ∨
    ∃ o, o ≠ .stream c ∧ m.session.awaited? o = some x.id
  sends : ∀ payload, m.sendClient c payload = .error .ended

theorem finished_of_ended (hExact : m.session.TableExact) (hFlagged : m.EndedFlagged)
    (hGoesOn : m.isEnded = false) (found : m.session.clientStreams[c]? = some x)
    (hEnded : x.ended = true) : m.Finished c x := by
  have hCancelled : m.isCancelled x.lifetime = true :=
    Lifetimes.isCancelled_of_isFlagged (hFlagged x (List.mem_of_getElem? found) hEnded)
  have hSlot : m.session.pending.get? x.id ≠ some (.stream c) := fun h => by
    have hOpen := ((slot_eq_stream_iff hExact found x.id).mp h).1
    rw [hEnded] at hOpen
    cases hOpen
  have hOther : ∀ slot, m.session.pending.get? x.id = some slot →
      ∃ o, o ≠ .stream c ∧ m.session.awaited? o = some x.id := fun slot h => by
    have hOwner := (hExact.entry x.id slot.owner).mp (by rw [h]; rfl)
    refine ⟨slot.owner, fun he => ?_, hOwner⟩
    rw [he, Session.awaited?, found] at hOwner
    simp [ClientStream.awaited?, hEnded] at hOwner
  refine ⟨hCancelled, hSlot, fun content => ?_, fun content => ?_, fun payload => ?_⟩
  · obtain ⟨d, _, he⟩ | ⟨d, h, he⟩ | ⟨_, he⟩ := deliver_cases m ⟨x.id, content⟩
    · rw [handle, he]
      exact found
    · have hd : d ≠ c := fun hd => hSlot (hd ▸ h)
      rw [handle, he]
      exact (List.getElem?_modify_ne _ _ hd).trans found
    · rw [handle, he]
      exact found
  · obtain ⟨d, h, _⟩ | ⟨d, h, _⟩ | ⟨_, he⟩ := deliver_cases m ⟨x.id, content⟩
    · exact .inr (hOther _ h)
    · exact .inr (hOther _ h)
    · exact .inl he
  · simp [sendClient, found, hGoesOn, hCancelled]

/-! ### What the owner sees -/

/-- Nothing is lost or put in between. -/
theorem Sorted.messages_le {done : List Content} (hSorted : Sorted past c x done) :
    past.received c ++ x.messages <+: messagesOf (past.answers c) := by
  obtain ⟨later, hLater⟩ := hSorted.answers
  rw [hSorted.messages, ← hLater, hSorted.arrived, List.append_assoc]
  exact messagesOf_le_append _ _

/-- Where a stream stands that has no more responses to sort, while the session goes on. -/
theorem Execution.standing
    (exec : Execution (Machine.new host registry callTimeout capacity) past m) (hRoom : past.HasRoom)
    (found : m.session.clientStreams[c]? = some x) (hKept : past.Keeps c x.lifetime)
    (hGoesOn : m.isEnded = false) (hDone : m.Settled ∨ x.ended = true) :
    past.received c ++ x.messages = messagesOf (past.answers c) ∧
      (x.ended = true ↔ ∃ content ∈ past.answers c, content.isLast = true) := by
  cases exec.fate hRoom found hKept with
  | complete ended last all => exact ⟨all, fun _ => last, fun _ => ended⟩
  | cutOff _ gone =>
      rw [hGoesOn] at gone
      cases gone
  | going unended _ =>
      have hSettled : m.Settled := hDone.resolve_right (by rw [unended]; nofun)
      have hSorted := (exec.life.sorted hRoom).1 c x found
      obtain ⟨done, hSorted⟩ := hSorted
      have hNone := hSettled.responses_eq_nil found unended
      have hAll := hSorted.rest unended
      have hAnswers : past.answers c = done := by
        rw [hSorted.complete unended, hSorted.arrived, hNone, List.append_nil]
      rw [hNone] at hAll
      refine ⟨by simpa [messagesOf] using hAll, fun h => absurd (unended.symm.trans h) nofun, ?_⟩
      rintro ⟨content, hContent, hLast⟩
      rw [hSorted.unended unended content (hAnswers ▸ hContent)] at hLast
      cases hLast

/-- While the session goes on, a stream is ready when it has ended, and once the tasks of the session have
done their work it is ready exactly if it has been answered. Before that it is not. -/
theorem Execution.readiness
    (exec : Execution (Machine.new host registry callTimeout capacity) past m) (hRoom : past.HasRoom)
    (found : m.session.clientStreams[c]? = some x) (hKept : past.Keeps c x.lifetime)
    (hGoesOn : m.isEnded = false) :
    (x.ended = true → x.ready = true) ∧ (past.answers c = [] → x.ready = false) ∧
      (m.Settled → past.answers c ≠ [] → x.ready = true) := by
  obtain ⟨done, hSorted⟩ := (exec.life.sorted hRoom).1 c x found
  have hReady := exec.life.ready hRoom found
  have hEndedReady : x.ended = true → x.ready = true := fun hEnded =>
    (exec.ready_of_ended hRoom found hKept hEnded).resolve_right (by rw [hGoesOn]; nofun)
  refine ⟨hEndedReady, fun hSilent => ?_, fun hSettled hSome => ?_⟩
  · have hNone := hSorted.answers
    rw [hSilent, List.prefix_nil] at hNone
    rw [Bool.eq_false_iff, ne_eq, hReady, hNone]
    exact Nat.not_lt_zero _
  · cases hEnded : x.ended with
    | true => exact hEndedReady hEnded
    | false =>
        rw [hReady, hSettled.responses_eq_nil found hEnded, ← hSorted.complete hEnded]
        exact List.length_pos_of_ne_nil hSome

/-- While the session goes on and the owner of a stream keeps it, the responses that were handled with its
id determine what the owner sees. It receives the payloads up to the first error or close and then the
error, in order and each once; marks of readiness yield nothing. The end follows only that, once a last
response has come, and is final. Once all tasks of the session have done their work, a receive returns
the next message if there is one, and otherwise the end or, as long as no last response has come,
nothing. The stream is then ready if any response has come, for whoever asks and however often, and stays
so; before the first response it is not. When the last response has been sorted, the stream is finished.
Whenever an id was taken, one must have been free. -/
theorem client_stream_follows
    (exec : Execution (Machine.new host registry callTimeout capacity) past m) (hRoom : past.HasRoom)
    (found : m.session.clientStreams[c]? = some x) (hKept : past.Keeps c x.lifetime)
    (hGoesOn : m.isEnded = false) :
    let responses := past.answers c
    let messages := messagesOf responses
    (past.received c <+: messages ∧ ∀ message, (m.receiveClient c).1 = .message message →
      past.received c ++ [message] <+: messages) ∧
    ((m.receiveClient c).1 = .ended → past.received c = messages ∧
      (∃ content ∈ responses, content.isLast = true) ∧
      ∀ later m', Execution m later m' → (m'.receiveClient c).1 = .ended) ∧
    (m.Settled →
      ((m.receiveClient c).1 = .ended ↔
        past.received c = messages ∧ ∃ content ∈ responses, content.isLast = true) ∧
      ((m.receiveClient c).1 = .blocked ↔
        past.received c = messages ∧ ¬ ∃ content ∈ responses, content.isLast = true)) ∧
    ((responses = [] → m.clientReady? c = none) ∧
      (m.Settled → responses ≠ [] → m.clientReady? c = some (.ok ())) ∧
      m.clientReady? c ≠ some (.error .ended) ∧
      (m.clientReady? c = some (.ok ()) →
        ∀ later m', Execution m later m' → m'.clientReady? c = some (.ok ()))) ∧
    (x.ended = true → (∃ content ∈ responses, content.isLast = true) ∧ m.Finished c x) ∧
    (m.Settled → (∃ content ∈ responses, content.isLast = true) → x.ended = true) := by
  obtain ⟨done, hSorted⟩ := (exec.life.sorted hRoom).1 c x found
  have hPrefix := hSorted.messages_le
  have hStands := exec.standing hRoom found hKept hGoesOn
  obtain ⟨hEndedReady, hSilent, hAnswered⟩ := exec.readiness hRoom found hKept hGoesOn
  have hUnended : x.ready = false → x.ended = false := fun hUnready => Bool.eq_false_iff.mpr fun h => by
    rw [hEndedReady h] at hUnready
    cases hUnready
  have hAll : past.received c ++ x.messages = messagesOf (past.answers c) →
      (past.received c = messagesOf (past.answers c) ↔ x.messages = []) := fun h => by
    rw [← h, List.self_eq_append_right]
  rw [receiveClient_ended_iff found, receiveClient_blocked_iff found, clientReady?_eq_ok_iff found,
    ne_eq, clientReady?_eq_ended_iff found, clientReady?_eq_none_iff found]
  refine ⟨⟨(List.prefix_append _ _).trans hPrefix, fun message h => ?_⟩, fun h => ?_,
    fun hSettled => ?_, ⟨fun hNone => ⟨hSilent hNone, hUnended (hSilent hNone)⟩, hAnswered, fun h => ?_,
      fun h _ _ hLater => hLater.stays_ready found h⟩,
    fun hEnded => ⟨(hStands (.inr hEnded)).2.mp hEnded, ?_⟩,
    fun hSettled => (hStands (.inl hSettled)).2.mpr⟩
  · rw [receiveClient_message_iff found] at h
    exact ((List.prefix_append_right_inj _).mpr h).trans hPrefix
  · obtain ⟨hMessages, hLast⟩ := hStands (.inr h.2)
    exact ⟨(hAll hMessages).mpr h.1, hLast.mp h.2,
      fun _ _ hLater => hLater.drained found ((receiveClient_ended_iff found).mpr h)⟩
  · obtain ⟨hMessages, hLast⟩ := hStands (.inl hSettled)
    rw [hAll hMessages, ← hLast, Bool.not_eq_true]
    exact ⟨Iff.rfl, Iff.rfl⟩
  · rw [hUnended h.1] at h
    cases h.2
  · exact finished_of_ended (exec.life.tableExact hRoom)
      (exec.endedFlagged (rooted_new _ _ _ _) fun _ hx => by cases hx) hGoesOn found hEnded

end

/-- A mark of readiness that denies it, a payload, a second mark, an error, and a payload that comes too
late. The stream is ready after the first of them, and its owner receives the payload, the error and the
end. -/
theorem client_stream_follows_of_failed : ∃ (past : History Unit Unit) (m : Machine Unit Unit)
    (x : ClientStream),
    Execution (Machine.new (Host.new false) Registry.empty none 4) past m ∧ past.HasRoom ∧
      m.session.clientStreams[0]? = some x ∧ past.Keeps 0 x.lifetime ∧ m.isEnded = false ∧ m.Settled ∧
      past.answers 0 = [.ready false, .payload (.ofValue [1]), .ready true, .error ⟨"E", "e"⟩,
        .payload (.ofValue [2])] ∧
      past.received 0 = [.ok (.ofValue [1]), .error ⟨"E", "e"⟩] ∧ (m.receiveClient 0).1 = .ended ∧
      m.clientReady? 0 = some (.ok ()) ∧ m.Finished 0 x := by
  let answer (content : Content) : Action := .receive (.response ⟨0, content⟩)
  let actions : List Action :=
    [.openStream "A.b", answer (.ready false), .pollClient 0, answer (.payload (.ofValue [1])),
      answer (.ready true), .receiveClient 0, .pollClient 0, .receiveClient 0, .pollClient 0,
      answer (.error ⟨"E", "e"⟩), answer (.payload (.ofValue [2])), .pollClient 0, .receiveClient 0]
  have hPlay : ((Machine.new (Host.new false) (Registry.empty : Registry Unit Unit) none 4).play
      actions).map (fun r => (r.2.isSettled && !r.2.isEnded && decide (History.HasRoom r.1),
        r.2.session.clientStreams.map fun x => x.messages.isEmpty && x.ended,
        History.answers r.1 0, (History.received r.1 0).length)) =
      some (true, [true], [.ready false, .payload (.ofValue [1]), .ready true, .error ⟨"E", "e"⟩,
        .payload (.ofValue [2])], 2) := by decide +kernel
  obtain ⟨⟨past, m⟩, hRun, hFacts⟩ := Option.map_eq_some_iff.mp hPlay
  simp only [Prod.mk.injEq, Bool.and_eq_true, Bool.not_eq_true', decide_eq_true_eq] at hFacts
  obtain ⟨⟨⟨hSettled, hGoesOn⟩, hRoom⟩, hStreams, hAnswers, hLength⟩ := hFacts
  have exec := Execution.refl.play hRun
  rw [List.nil_append] at exec
  obtain ⟨x, hStream, hStands⟩ := List.map_eq_singleton_iff.mp hStreams
  obtain ⟨hDrained, hEnded⟩ := Bool.and_eq_true_iff.mp hStands
  have found : m.session.clientStreams[0]? = some x := by rw [hStream]; rfl
  have hKept : History.Keeps past 0 x.lifetime := fun e he => by
    have hAction : e.2 ∈ actions := play_actions hRun ▸ List.mem_map_of_mem he
    simp only [actions, answer, List.mem_cons, List.not_mem_nil, or_false] at hAction
    rcases hAction with h | h | h | h | h | h | h | h | h | h | h | h | h <;> simp [h]
  have hDone := isSettled_iff.mp hSettled
  have hOver := (receiveClient_ended_iff found).mpr ⟨List.isEmpty_iff.mp hDrained, hEnded⟩
  obtain ⟨_, hEnd, _, ⟨_, hReady, _⟩, hFinished, _⟩ :=
    client_stream_follows exec hRoom found hKept hGoesOn
  rw [hAnswers] at hEnd hReady
  exact ⟨past, m, x, exec, hRoom, found, hKept, hGoesOn, hDone, hAnswers, (hEnd hOver).1, hOver,
    hReady hDone (List.cons_ne_nil _ _), (hFinished hEnded).2⟩

end PeerLink.Machine

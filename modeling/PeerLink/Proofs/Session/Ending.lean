import PeerLink.Proofs.Session.Receiving

/-! The end of a session. Whoever cancels the lifetime of a session, everything below it is cancelled at
once: that is how lifetimes work. The rest follows in steps of its own: the consumer stops and empties its
table, and each stream opened here gives up its id. What waits for a response below no such lifetime goes
on waiting, as if nothing had happened. -/
namespace PeerLink.Machine

variable {M S : Type} {m m' q : Machine M S} {a : Action} {before after : History M S}

/-! ### What an ended session refuses -/

/-- Nothing more comes of a session. It takes no envelope, it serves no stream, everything that it has
started is cancelled, and what is started from now on is refused before anything is queued. -/
structure ShutDown (m : Machine M S) : Prop where
  consuming : m.session.consuming = false
  deaf : ∀ e, m.receive? e = none
  unserved : m.session.openStreams = .empty
  served : ∀ x ∈ m.session.servedStreams, m.isCancelled x.lifetime = true
  runs : ∀ x ∈ m.session.runs, m.isCancelled x.lifetime = true
  clientStreams : ∀ x ∈ m.session.clientStreams, m.isCancelled x.lifetime = true
  calls : ∀ method payload timeout lifetime,
    m.startCall method payload timeout lifetime = .error .sessionClosed
  sends : ∀ c < m.session.clientStreams.length, ∀ payload,
    m.sendClient c payload = .error .sessionClosed

theorem Execution.isEnded (exec : Execution q after m) (hRooted : q.Rooted) (hEnded : q.isEnded = true) :
    m.isEnded = true := by
  induction exec with
  | refl => exact hEnded
  | step prior last ih => exact (prior.rooted hRooted).isEnded_step last ih

/-- The consumer does not start again. -/
theorem Execution.stopped (exec : Execution q after m) (hStopped : q.session.consuming = false) :
    m.session.consuming = false := by
  induction exec with
  | refl => exact hStopped
  | @step past p p' a _ last ih =>
      by_cases hStop : ∃ exhausted, a = .stop exhausted
      · obtain ⟨exhausted, rfl⟩ := hStop
        simp [step?, stopConsuming?, ih] at last
      · rw [step?_consuming last fun exhausted he => hStop ⟨exhausted, he⟩, ih]

/-- In a settled state of a session that has ended, the consumer has noticed. -/
theorem Settled.stopped (hSettled : m.Settled) (hEnded : m.isEnded = true) :
    m.session.consuming = false := by
  cases hConsuming : m.session.consuming with
  | false => rfl
  | true =>
      have hStuck := hSettled.consumer
      simp [stopConsuming?, hConsuming, hEnded] at hStuck

/-- In a settled state of a session that has ended, the task of every stream has noticed. -/
theorem Settled.stream_ended (hSettled : m.Settled) (hRooted : m.Rooted) (hEnded : m.isEnded = true)
    {c : ClientStreamId} {x : ClientStream} (found : m.session.clientStreams[c]? = some x) :
    x.ended = true := by
  cases hUnended : x.ended with
  | true => rfl
  | false =>
      have hCancelled := (hRooted.isCancelled_iff (mem_handles_client found)).mpr (.inr hEnded)
      have hStuck := hSettled.clientStreams c
      simp [pollClient?, found, hUnended, hCancelled] at hStuck

theorem Rooted.shutDown (hRooted : m.Rooted) (hEnded : m.isEnded = true)
    (hStopped : m.session.consuming = false)
    (hEmpty : m.session.consuming = false → ∀ id, m.session.openStreams.get? id = none) :
    m.ShutDown := by
  have hCancelled : ∀ l ∈ m.session.handles, m.isCancelled l = true := fun l hl =>
    (hRooted.isCancelled_iff hl).mpr (.inr hEnded)
  refine ⟨hStopped, fun e => ?_, IdTable.eq_empty_of_get? (hEmpty hStopped), fun x hx => ?_,
    fun x hx => ?_, fun x hx => ?_, fun _ _ _ _ => ?_, fun c hc payload => ?_⟩
  · rw [receive?, hStopped]
    rfl
  · exact hCancelled _ (List.mem_append_right _ (List.mem_map_of_mem hx))
  · exact hCancelled _ (List.mem_append_left _ (List.mem_append_left _ (List.mem_map_of_mem hx)))
  · exact hCancelled _ (List.mem_append_left _ (List.mem_append_right _ (List.mem_map_of_mem hx)))
  · rw [startCall, if_pos hEnded]
  · rw [sendClient, List.getElem?_eq_getElem hc]
    exact if_pos hEnded

/-! ### What becomes of calls -/

/-- A response that was delivered is not taken back. -/
theorem step?_response (h : m.step? a = some m') :
    Retained (fun x y : Call => x.response.isSome = true → y.response.isSome = true)
      m.session.calls m'.session.calls := by
  intro c x hx
  cases step?_callTurn h c with
  | same calls => exact ⟨x, calls.trans hx, id⟩
  | made new => cases new.symm.trans hx
  | ended y found _ _ now | queued y found _ _ _ _ _ now =>
      cases found.symm.trans hx
      exact ⟨_, now, id⟩
  | answered _ _ _ _ _ now => exact ⟨_, now, fun _ => rfl⟩

/-- A slot that is no longer open was used for a response, and its call has that. -/
def UsedSlots (s : Session M S) : Prop :=
  ∀ id c, s.pending.get? id = some (.call c false) →
    ∃ x, s.calls[c]? = some x ∧ x.response.isSome = true

theorem UsedSlots.step (hUsed : UsedSlots m.session) (hTable : m.session.TableExact)
    (h : m.step? a = some m') : UsedSlots m'.session := by
  intro id c hSlot
  cases step?_slotTurn h hSlot with
  | kept before =>
      obtain ⟨x, hx, hResponse⟩ := hUsed id c before
      obtain ⟨y, hy, hKept⟩ := step?_response h c x hx
      exact ⟨y, hy, hKept hResponse⟩
  | used _ content before calls =>
      have hOwner := (hTable.entry id (.call c)).mp (by rw [before]; rfl)
      obtain ⟨x, hx, _⟩ := Option.bind_eq_some_iff.mp hOwner
      exact ⟨{ x with response := some content }, by rw [calls, List.getElem?_modify_eq, hx]; rfl, rfl⟩

theorem Life.usedSlots {registry : Registry M S} {callTimeout : Option Duration} {capacity : Nat}
    {lifetime : LifetimeId} {s : Session M S} {past : History M S}
    (life : Life (Session.new registry callTimeout capacity lifetime) past s)
    (hRoom : past.HasRoom) : UsedSlots s := by
  induction life with
  | refl => exact fun id c hSlot => by cases hSlot
  | step prior last ih =>
      obtain ⟨hBefore, _⟩ := List.forall_mem_append.mp hRoom
      exact UsedSlots.step (ih hBefore) (prior.tableExact hBefore) last

/-- What ends a call when no more responses come. Whether the session goes on is not asked. -/
inductive OwnEnd (m : Machine M S) (c : CallId) (x : Call) : Action → Prop where
  | dropped : OwnEnd m c x (.dropCall c)
  /-- The transport was gone before it had the request. -/
  | refused (t : Ticket) (sending : x.state = .sending t)
      (abandoned : m.session.outbound.abandoned = true) : OwnEnd m c x (.advance t)
  /-- The response came before the end of the session. -/
  | answered (content : Content) (response : x.response = some content) : OwnEnd m c x (.pollCall c)
  | cancelled (l : LifetimeId) (own : x.lifetime = some l) (cancelled : m.isCancelled l = true) :
      OwnEnd m c x (.pollCall c)
  | late (deadline : Nat) (waiting : x.state = .waiting (some deadline)) (passed : deadline ≤ m.now) :
      OwnEnd m c x (.pollCall c)

/-- A call that is not over has its own slot, and the slot is open unless a response was delivered. -/
theorem not_isOrphaned (hTable : m.session.TableExact) (hUsed : UsedSlots m.session) {c : CallId}
    {x : Call} (found : m.session.calls[c]? = some x) (hUnfinished : x.state.isOver = false)
    (hSilent : x.response = none) : m.isOrphaned c x = false := by
  have hAwaited : m.session.awaited? (.call c) = some x.id := by
    simp [Session.awaited?, found, Call.awaited?, hUnfinished]
  obtain ⟨slot, hSlot, hOwner⟩ := Option.map_eq_some_iff.mp ((hTable.entry x.id (.call c)).mpr hAwaited)
  cases slot with
  | stream d => cases hOwner
  | call d isOpen =>
      cases hOwner
      cases isOpen with
      | true => simp [isOrphaned, hSlot]
      | false =>
          obtain ⟨y, hy, hResponse⟩ := hUsed x.id c hSlot
          rw [found] at hy
          cases hy
          rw [hSilent] at hResponse
          cases hResponse

theorem pollCall?_ownEnd {c : CallId} {x : Call} (h : m.pollCall? c = some m')
    (found : m.session.calls[c]? = some x)
    (hSlot : x.response = none → m.isOrphaned c x = false) : m.OwnEnd c x (.pollCall c) := by
  cases hResponse : x.response with
  | some content => exact .answered content hResponse
  | none =>
      simp only [pollCall?, found, hResponse, hSlot hResponse, Bool.false_eq_true, if_false] at h
      split at h
      · next deadline? hState =>
          split at h
          · next hCancelled =>
              obtain ⟨l, hOwn, hCancelled⟩ := (Option.any_eq_true _ _).mp hCancelled
              exact .cancelled l hOwn hCancelled
          · split at h
            · next hLate =>
                obtain ⟨deadline, rfl, hPassed⟩ := (Option.any_eq_true _ _).mp hLate
                exact .late deadline hState (of_decide_eq_true hPassed)
            · cases h
      · cases h

/-- The two are the same, if the first waits for its response. -/
def SameWait (x y : Call) : Prop :=
  ∀ deadline?, x.state = .waiting deadline? → y = x

theorem SameWait.trans {x y z : Call} (h : SameWait x y) (later : SameWait y z) : SameWait x z := by
  intro deadline? hWaiting
  obtain rfl := h deadline? hWaiting
  exact later deadline? hWaiting

/-- The call is not over, and if it waited for its response, nothing about it has changed. -/
def GoesOn (m : Machine M S) (c : CallId) (x : Call) : Prop :=
  ∃ y, m.session.calls[c]? = some y ∧ y.state.isOver = false ∧ SameWait x y

/-- The call came to an end of its own. -/
def History.OwnEnd (past : History M S) (c : CallId) (x : Call) : Prop :=
  ∃ p a y, (p, a) ∈ past ∧ p.session.calls[c]? = some y ∧ SameWait x y ∧ p.OwnEnd c y a

theorem GoesOn.same {c : CallId} {x : Call} (found : m.session.calls[c]? = some x)
    (hUnfinished : x.state.isOver = false) : m.GoesOn c x :=
  ⟨x, found, hUnfinished, fun _ _ => rfl⟩

/-- A call that is not over goes on, or it comes to an end of its own. -/
theorem step?_call_goes_on (h : m.step? a = some m') (hEnded : m.isEnded = true)
    (hTracked : Tracked m.session) (hTable : m.session.TableExact) (hUsed : UsedSlots m.session)
    {c : CallId} {x : Call} (found : m.session.calls[c]? = some x)
    (hUnfinished : x.state.isOver = false) : m'.GoesOn c x ∨ m.OwnEnd c x a := by
  cases step?_callTurn h c with
  | same calls => exact .inl (.same (calls.trans found) hUnfinished)
  | made new => cases new.symm.trans found
  | answered _ _ _ cause =>
      subst cause
      obtain ⟨_, hOpen, _⟩ := receive?_eq_some h
      rw [hEnded] at hOpen
      cases hOpen
  | queued y hy _ advance send sender _ now =>
      cases hy.symm.trans found
      obtain ⟨z, hz, hSending⟩ := hTracked.advancing advance send sender
      cases hz.symm.trans found
      exact .inl ⟨_, now, rfl, fun _ hWaiting => by cases hSending.symm.trans hWaiting⟩
  | ended y hy _ cause =>
      cases hy.symm.trans found
      refine .inr ?_
      cases cause with
      | dropped => exact .dropped
      | returned => exact pollCall?_ownEnd h found (not_isOrphaned hTable hUsed found hUnfinished)
      | refused advance send sender =>
          obtain ⟨z, hz, hSending⟩ := hTracked.advancing advance send sender
          cases hz.symm.trans found
          cases Outbound.advance?_cases advance with
          | refused _ _ _ _ _ abandoned => exact .refused _ hSending abandoned

/-- Once the session has ended, a call that is not over goes on until it comes to an end of its own. -/
theorem Execution.call_goes_on {host : Host} {registry : Registry M S} {callTimeout : Option Duration}
    {capacity : Nat} (exec : Execution (Machine.new host registry callTimeout capacity) before q)
    (hEnded : q.isEnded = true) (later : Execution q after m)
    (hRoom : History.HasRoom (before ++ after)) {c : CallId} {x : Call}
    (found : q.session.calls[c]? = some x) (hUnfinished : x.state.isOver = false) :
    m.GoesOn c x ∨ History.OwnEnd after c x := by
  induction later with
  | refl => exact .inl (.same found hUnfinished)
  | @step past p p' a prior last ih =>
      rw [← List.append_assoc] at hRoom
      obtain ⟨hRoomBefore, _⟩ := List.forall_mem_append.mp hRoom
      obtain ⟨y, hy, hGoesOn, hSame⟩ | ⟨r, b, y, hMem, hOwn⟩ := ih hRoomBefore
      · have life := (exec.append prior).life
        obtain ⟨z, hz, hStill, hSame'⟩ | hOwn := step?_call_goes_on last
          (prior.isEnded (exec.rooted (rooted_new _ _ _ _)) hEnded) (life.tracked (tracked_new _ _ _ _))
          (life.tableExact hRoomBefore) (life.usedSlots hRoomBefore) hy hGoesOn
        · exact .inl ⟨z, hz, hStill, hSame.trans hSame'⟩
        · exact .inr ⟨p, a, y, List.mem_append_right _ (List.mem_singleton.mpr rfl), hy, hSame, hOwn⟩
      · exact .inr ⟨r, b, y, List.mem_append_left _ hMem, hOwn⟩

/-- The end of a session reaches everything. Once its lifetime is cancelled, by whomever, the consumer
has stopped in every settled state and never takes an envelope again, no stream is served and none will
be, all runs and streams are cancelled, those of later too, and new calls and messages are refused, also
on streams that are opened afterwards. If there was a free id whenever one was taken, only calls that are
not over are left in the table of ids. Those the end of the session does not touch: one that waits for its
response waits on, unless it is dropped, or had its response already, or its own lifetime is cancelled, or
its time is up. One whose request is not queued yet has one end more: the transport may be gone. -/
theorem session_end_cascades {host : Host} {registry : Registry M S} {callTimeout : Option Duration}
    {capacity : Nat} (exec : Execution (Machine.new host registry callTimeout capacity) before q)
    (hEnded : q.isEnded = true) (later : Execution q after m) (hSettled : m.Settled) :
    (∀ future m', Execution m future m' → m'.ShutDown) ∧
    (History.HasRoom (before ++ after) →
      (∀ id slot, m.session.pending.get? id = some slot → ∃ c isOpen x, slot = .call c isOpen ∧
        m.session.calls[c]? = some x ∧ x.id = id ∧ x.state.isOver = false) ∧
      ∀ c x, q.session.calls[c]? = some x → x.state.isOver = false →
        m.GoesOn c x ∧ (m.session.pending.get? x.id).map Slot.owner = some (.call c) ∨
          History.OwnEnd after c x) := by
  have reached := exec.append later
  have hRooted := reached.rooted (rooted_new _ _ _ _)
  have hOver := later.isEnded (exec.rooted (rooted_new _ _ _ _)) hEnded
  refine ⟨fun future m' further => ?_, fun hRoom => ?_⟩
  · exact (further.rooted hRooted).shutDown (further.isEnded hRooted hOver)
      (further.stopped (hSettled.stopped hOver)) (reached.append further).life.servingExact.stopped
  have hTable := reached.life.tableExact hRoom
  refine ⟨fun id slot hSlot => ?_, fun c x found hUnfinished => ?_⟩
  · have hAwaited := (hTable.entry id slot.owner).mp (by rw [hSlot]; rfl)
    cases slot with
    | stream c =>
        obtain ⟨x, hx, hId⟩ := Option.bind_eq_some_iff.mp hAwaited
        rw [ClientStream.awaited?, if_pos (hSettled.stream_ended hRooted hOver hx)] at hId
        cases hId
    | call c isOpen =>
        obtain ⟨x, hx, hId⟩ := Option.bind_eq_some_iff.mp hAwaited
        unfold Call.awaited? at hId
        split at hId
        · cases hId
        · next hUnfinished =>
            exact ⟨c, isOpen, x, rfl, hx, Option.some.inj hId, Bool.eq_false_iff.mpr hUnfinished⟩
  · obtain ⟨y, hy, hGoesOn, hSame⟩ | hOwn := exec.call_goes_on hEnded later hRoom found hUnfinished
    · refine .inl ⟨⟨y, hy, hGoesOn, hSame⟩, (hTable.entry x.id (.call c)).mpr ?_⟩
      have hId := (later.life.grows.calls.rel found hy).id
      simp [Session.awaited?, hy, Call.awaited?, hGoesOn, hId]
    · exact .inr hOwn

/-- A call waits, a stream is open in each direction and a handler is at work when the session is closed.
The call waits on, and all the rest is over; a stream that is opened later sends nothing. -/
theorem session_end_cascades_of_busy : ∃ (before after : History Unit Unit) (q m : Machine Unit Unit),
    Execution (Machine.new (Host.new false) ⟨[⟨"A.b", ()⟩], [⟨"A.c", (), true, true⟩]⟩ none 4) before q ∧
      q.isEnded = true ∧ Execution q after m ∧ m.Settled ∧ History.HasRoom (before ++ after) ∧
      m.session.runs.length = 1 ∧ m.session.servedStreams.length = 1 ∧ m.ShutDown ∧
      (∃ y, m.session.calls[0]? = some y ∧ y.state.isOver = false) ∧ m.session.pending.size = 1 ∧
      (m.openStream "B.c").sendClient 1 (.ofValue []) = .error .sessionClosed := by
  let registry : Registry Unit Unit := ⟨[⟨"A.b", ()⟩], [⟨"A.c", (), true, true⟩]⟩
  let busy : List Action :=
    [.call "B.b" (.ofValue []) none none, .advance 0, .openStream "B.c",
      .receive (.request { id := 7, method := "A.c", payload := .ofValue [], isStream := true }),
      .receive (.request { id := 8, method := "A.b", payload := .ofValue [], isStream := false }),
      .close]
  have hPlay : ((Machine.new (Host.new false) registry none 4).play
      (busy ++ .stop false :: [.pollClient 0])).map
        (fun r => (r.2.isSettled, decide (History.HasRoom r.1), r.2.session.runs.length,
          r.2.session.servedStreams.length, r.2.session.pending.size,
          r.2.session.clientStreams.length)) = some (true, true, 1, 1, 1, 1) := by decide +kernel
  have hBusy : ((Machine.new (Host.new false) registry none 4).play busy).map
      (fun r => (r.2.isEnded, r.2.session.calls.map fun x => x.state.isOver)) =
        some (true, [false]) := by decide +kernel
  obtain ⟨⟨past, m⟩, hRun, hFacts⟩ := Option.map_eq_some_iff.mp hPlay
  simp only [Prod.mk.injEq] at hFacts
  obtain ⟨hSettled, hRoom, hRuns, hServed, hPending, hStreams⟩ := hFacts
  have hActions := play_actions hRun
  have exec := Execution.refl.play hRun
  obtain ⟨before, q, rest, hBefore, rfl⟩ := play_at hRun
  simp only [hBefore, Option.map_some, Option.some.injEq, Prod.mk.injEq] at hBusy
  obtain ⟨hEnded, hCalls⟩ := hBusy
  have hRestActions : rest.map Prod.snd = [.pollClient 0] := by
    rw [List.map_append, List.map_cons, play_actions hBefore] at hActions
    exact List.cons_inj_right _ |>.mp (List.append_cancel_left hActions)
  obtain ⟨exec, q', hStep, hRest⟩ := exec.split
  have later := (Execution.refl.step hStep).append hRest
  obtain ⟨x, hCall, hUnfinished⟩ := List.map_eq_singleton_iff.mp hCalls
  have found : q.session.calls[0]? = some x := by rw [hCall]; rfl
  obtain ⟨hShut, hLeft⟩ := session_end_cascades exec hEnded later (isSettled_iff.mp hSettled)
  obtain ⟨-, hGoesOn⟩ := hLeft (of_decide_eq_true hRoom)
  refine ⟨before, _, q, m, exec, hEnded, later, isSettled_iff.mp hSettled, of_decide_eq_true hRoom, hRuns,
    hServed, hShut [] m .refl, ?_, hPending, ?_⟩
  · obtain ⟨⟨y, hy, hStill, _⟩, _⟩ | ⟨p, a, y, hMem, _, _, hOwn⟩ := hGoesOn 0 x found hUnfinished
    · exact ⟨y, hy, hStill⟩
    · have hAction : a ∈ [.stop false, .pollClient 0] := by
        have hAny : a ∈ List.map Prod.snd _ := List.mem_map.mpr ⟨(p, a), hMem, rfl⟩
        rwa [List.map_append, hRestActions] at hAny
      obtain _ | _ := List.mem_pair.mp hAction <;> subst a <;> cases hOwn
  · have opened : m.step? (.openStream "B.c") = some (m.openStream "B.c") := rfl
    have hNew : 1 < (m.openStream "B.c").session.clientStreams.length := by
      simp [openStream, Session.allocate, hStreams]
    exact (hShut _ _ (Execution.refl.step opened)).sends 1 hNew _

end PeerLink.Machine

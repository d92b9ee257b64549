import PeerLink.Proofs.Pair.Execution
import PeerLink.Proofs.Session.OpenStreams
import PeerLink.Proofs.Session.Speaking

/-! A session that does nothing but serve. Handlers and the remote peer cancel lifetimes only when a run or
a stream is over, and each cancels that of its own run or stream. So as long as nobody else does anything to
the session, it goes on, and so does every stream whose input is open. If moreover its handlers wait for each
response before they send the next one, then no response overtakes another one with the same id. -/
namespace PeerLink.Machine

variable {M S : Type} {m m' : Machine M S} {a : Action} {past : History M S}

/-- The action says no response while another one with the same id is under way. -/
def SaysAlone (m : Machine M S) (a : Action) : Prop :=
  ∀ x id content, m.Says a x (.response ⟨id, content⟩) → ∀ z ∈ m.session.sends, z.state = .pending →
    z.envelope.reply? id = none

/-- Responses with the same id that are said alone do not overlap. -/
theorem Life.serial {registry : Registry M S} {callTimeout : Option Duration} {capacity : Nat}
    {lifetime : LifetimeId} {s : Session M S}
    (life : Life (Session.new registry callTimeout capacity lifetime) past s)
    (hAlone : ∀ x ∈ past, x.1.SaysAlone x.2) (id : Int32) :
    past.Serial s fun x => (Envelope.reply? id x.2).isSome := by
  intro y hy u hBegins t hUnderWay ht
  obtain ⟨before, q, a, x, e, z, prior, hMem, _, cause, hu, hTicket, hz, ht', _⟩ :=
    life.overlap ⟨y, hy, hBegins, hUnderWay⟩
  rw [Session.picks, ht', Option.any_some] at ht
  rw [Session.picks, hu, Option.any_some, Option.isSome_eq_false_iff, Option.isNone_iff_eq_none]
  cases hReply : e.reply? id with
  | none => rfl
  | some content =>
      obtain rfl := Envelope.reply?_eq_some hReply
      have hTracked := prior.tracked (tracked_new registry callTimeout capacity lifetime)
      obtain ⟨w, hw, hPending⟩ := hTracked.pending t hTicket
      rw [Session.said_of_sends hw, Option.some_inj] at hz
      rw [← hz, hAlone _ hMem x id content cause w (List.mem_of_getElem? hw) hPending] at ht
      cases ht

/-- What handlers, the remote peer and the transport do to a session that serves and goes on. -/
def Action.serves : Action → Bool
  | .advance _ => true
  | .finishRun _ _ => true
  | .sendServed _ _ => true
  | .readyServed _ => true
  | .closeServed _ => true
  | .receiveServed _ => true
  | .finishServed _ _ => true
  | .receive _ => true
  | .take => true
  | _ => false

/-- The tasks of a session that serves lead from one state to the other, without its transport, and no
response is said while another one with its id is under way. -/
def Works (m m' : Machine M S) : Prop :=
  ∃ past, Execution m past m' ∧
    ∀ x ∈ past, x.2.serves = true ∧ x.2.isLocal = true ∧ x.1.SaysAlone x.2

theorem Works.refl (m : Machine M S) : m.Works m :=
  ⟨[], .refl, fun _ hx => absurd hx List.not_mem_nil⟩

theorem Works.step {q : Machine M S} (h : m.Works q) (last : q.step? a = some m')
    (serves : a.serves = true) (isLocal : a.isLocal = true) (alone : q.SaysAlone a) : m.Works m' := by
  obtain ⟨past, exec, hAll⟩ := h
  refine ⟨_, exec.step last, fun x hx => ?_⟩
  obtain hx | hx := List.mem_append.mp hx
  · exact hAll x hx
  · rw [List.mem_singleton.mp hx]
    exact ⟨serves, isLocal, alone⟩

/-- The lifetime is that of a run whose handler has returned, or of a stream that gets no more input. -/
def IsOver (m : Machine M S) (l : LifetimeId) : Prop :=
  (∃ run ∈ m.session.runs, run.lifetime = l ∧ run.result ≠ none) ∨
    ∃ x ∈ m.session.servedStreams, x.lifetime = l ∧ x.inboxClosed = true

/-- Nothing was cancelled but what is over. -/
def SparesLive (m : Machine M S) : Prop :=
  ∀ l, m.lifetimes.isFlagged l = true → m.IsOver l

theorem IsOver.step {l : LifetimeId} (hOver : m.IsOver l) (h : m.step? a = some m') : m'.IsOver l := by
  obtain ⟨run, hRun, rfl, hResult⟩ | ⟨x, hx, rfl, hClosed⟩ := hOver
  · obtain ⟨i, hi⟩ := List.mem_iff_getElem?.mp hRun
    obtain ⟨run', hRun', hKeeps⟩ := step?_runs h i run hi
    obtain ⟨r, hr⟩ := Option.ne_none_iff_exists'.mp hResult
    refine .inl ⟨run', List.mem_of_getElem? hRun', hKeeps.lifetime, ?_⟩
    rw [hKeeps.result r hr]
    exact Option.some_ne_none r
  · obtain ⟨i, hi⟩ := List.mem_iff_getElem?.mp hx
    obtain ⟨x', hx', hKeeps⟩ := step?_servedStreams h i x hi
    exact .inr ⟨x', List.mem_of_getElem? hx', hKeeps.lifetime, hKeeps.inboxClosed hClosed⟩

/-- A step that cancels only what is over by then spares what is live. -/
theorem SparesLive.step_of (hSpares : m.SparesLive) (h : m.step? a = some m')
    (hNew : ∀ l, m'.lifetimes.isFlagged l = true → m.lifetimes.isFlagged l = true ∨ m'.IsOver l) :
    m'.SparesLive := by
  intro l hl
  obtain hOld | hOver := hNew l hl
  · exact (hSpares l hOld).step h
  · exact hOver

theorem SparesLive.of_lifetimes (hSpares : m.SparesLive) (h : m.step? a = some m')
    (hSame : m'.lifetimes = m.lifetimes) : m'.SparesLive :=
  hSpares.step_of h fun _ hl => .inl (hSame ▸ hl)

/-- Streams that end have their input closed. -/
theorem Closes.isOver {m₁ : Machine M S} {ended : List ServedStreamId} (closes : m.Closes m₁ ended)
    (streams : m'.session.servedStreams = m₁.session.servedStreams) {l : LifetimeId}
    (hl : m₁.lifetimes.isFlagged l = true) : m.lifetimes.isFlagged l = true ∨ m'.IsOver l := by
  obtain hOld | ⟨_, i, hi, x, hx, rfl⟩ := (closes.isFlagged l).mp hl
  · exact .inl hOld
  · refine .inr (.inr ⟨{ x with inboxClosed := true }, ?_, rfl, rfl⟩)
    have hEnded := closes.streams i
    rw [hx, Option.map_some, if_pos hi, ← streams] at hEnded
    exact List.mem_of_getElem? hEnded

theorem SparesLive.receive (hSpares : m.SparesLive) {e : Envelope}
    (h : m.step? (.receive e) = some m') : m'.SparesLive := by
  have hStep := h
  obtain ⟨_, _, rfl⟩ := receive?_eq_some h
  refine hSpares.step_of hStep fun l hl => ?_
  cases e with
  | bye => exact (closes_closeOpenStreams m).isOver rfl hl
  | streamClose id =>
      simp only [handle, handleStreamClose] at hl ⊢
      split at hl
      · exact (closes_closeServed m _).isOver rfl hl
      · exact .inl hl
  | response r =>
      simp only [handle] at hl
      obtain ⟨_, _, he⟩ | ⟨_, _, he⟩ | ⟨_, he⟩ := deliver_cases m r <;>
        rw [he] at hl <;> exact .inl hl
  | request r =>
      cases hStream : r.isStream with
      | true =>
          simp only [handle, hStream, if_true] at hl
          obtain ⟨_, _, he⟩ | ⟨_, _, he⟩ | ⟨_, _, _, he⟩ := handleStream_cases m r <;> rw [he] at hl
          · exact .inl hl
          · exact .inl hl
          · exact .inl ((Lifetimes.isFlagged_add _ _ l).symm.trans hl)
      | false =>
          simp only [handle, hStream, Bool.false_eq_true, if_false] at hl
          obtain ⟨_, he⟩ | ⟨_, _, he⟩ := handleCall_cases m r <;> rw [he] at hl
          · exact .inl hl
          · exact .inl ((Lifetimes.isFlagged_add _ _ l).symm.trans hl)
  | opening _ => exact .inl hl
  | openingAck _ => exact .inl hl

/-- The handler of a call that returns ends its own run. -/
theorem SparesLive.finishRun (hSpares : m.SparesLive) {i : RunId}
    {result : Except HandlerError Payload} (h : m.step? (.finishRun i result) = some m') :
    m'.SparesLive := by
  obtain ⟨run, hRun, _, rfl⟩ := step?_finishRun_eq_some h
  refine hSpares.step_of h fun l hl => ?_
  rw [finishRun_lifetimes hRun, Lifetimes.isFlagged_cancel] at hl
  obtain hl | ⟨rfl, _⟩ := hl
  · exact .inl hl
  · refine .inr (.inl ⟨{ run with result := some result }, ?_, rfl, Option.some_ne_none _⟩)
    rw [finishRun_runs]
    refine List.mem_of_getElem? (i := i) ?_
    rw [List.getElem?_modify_eq, hRun]
    rfl

/-- The handler of a stream that returns ends its own stream. -/
theorem SparesLive.finishServed (hSpares : m.SparesLive) (hExact : ServingExact past m.session)
    {i : ServedStreamId} {result : Except Failure Unit}
    (h : m.step? (.finishServed i result) = some m') : m'.SparesLive := by
  obtain ⟨x, hx, _, rfl⟩ := step?_finishServed_eq_some h
  obtain ⟨_, hLifetimes, _⟩ := finishServed_effect hx result
  obtain ⟨_, y, hy, _, hLifetime, hStill, hClosed⟩ := finishServed_own hx result
  have hOver : y.inboxClosed = true := by
    by_cases hOpen : m.session.openStreams.get? x.id = some i
    · exact hClosed hOpen
    · exact hStill (hExact.gone i x hx hOpen)
  have hOwn : (m.finishServed i result).IsOver x.lifetime :=
    .inr ⟨y, List.mem_of_getElem? hy, hLifetime, hOver⟩
  refine hSpares.step_of h fun l hl => ?_
  rw [hLifetimes, Lifetimes.isFlagged_cancel] at hl
  obtain hl | ⟨rfl, _⟩ := hl
  · obtain hl | ⟨_, j, hj, z, hz, rfl⟩ := ((closes_removeServed m i x.id).isFlagged l).mp hl
    · exact .inl hl
    · unfold removed at hj
      split at hj
      · obtain rfl := List.mem_singleton.mp hj
        obtain rfl := Option.some_inj.mp (hz.symm.trans hx)
        exact .inr hOwn
      · cases hj
  · exact .inr hOwn

/-- Serving spares what is live. -/
theorem SparesLive.step (hSpares : m.SparesLive) (hExact : ServingExact past m.session)
    (hServes : a.serves = true) (h : m.step? a = some m') : m'.SparesLive := by
  cases a with
  | receive e => exact hSpares.receive h
  | finishRun i result => exact hSpares.finishRun h
  | finishServed i result => exact hSpares.finishServed hExact h
  | advance | take | sendServed _ _ | readyServed _ | closeServed _ | receiveServed _ =>
      exact hSpares.of_lifetimes h (congrArg Host.lifetimes (step?_toHost h rfl))
  | _ => cases hServes

/-- A session that spares what is live goes on itself. -/
theorem SparesLive.not_ended (hSpares : m.SparesLive) (hRooted : m.Rooted) : m.isEnded = false := by
  apply Bool.eq_false_iff.mpr
  intro hEnded
  have hFlagged := (Lifetimes.isCancelled_root hRooted.root).symm.trans hEnded
  have hHandle : m.session.lifetime ∈ m.session.handles := by
    obtain ⟨run, hRun, hSame, _⟩ | ⟨x, hx, hSame, _⟩ := hSpares _ hFlagged
    · rw [← hSame]
      exact List.mem_append_left _ (List.mem_append_left _ (List.mem_map_of_mem hRun))
    · rw [← hSame]
      exact List.mem_append_right _ (List.mem_map_of_mem hx)
  exact Nat.lt_irrefl _ (hRooted.above _ hHandle)

/-- While its input is open, a stream is not cancelled. -/
theorem SparesLive.not_cancelled (hSpares : m.SparesLive) (hRooted : m.Rooted) {i : ServedStreamId}
    {x : ServedStream S} (hx : m.session.servedStreams[i]? = some x) (hOpen : x.inboxClosed = false) :
    m.isCancelled x.lifetime = false := by
  apply Bool.eq_false_iff.mpr
  intro hCancelled
  obtain hFlagged | hEnded := (hRooted.isCancelled_iff (served_mem_handles hx)).mp hCancelled
  · obtain ⟨_, hRuns, _, hUnique⟩ := hRooted.served_unique hx
    obtain ⟨run, hRun, hSame, _⟩ | ⟨y, hy, hSame, hClosed⟩ := hSpares _ hFlagged
    · exact hRuns (hSame ▸ List.mem_map_of_mem hRun)
    · obtain ⟨j, hj⟩ := List.mem_iff_getElem?.mp hy
      rw [hUnique j y hj hSame] at hj
      obtain rfl := Option.some_inj.mp (hx.symm.trans hj)
      rw [hOpen] at hClosed
      cases hClosed
  · rw [hSpares.not_ended hRooted] at hEnded
    cases hEnded

end PeerLink.Machine

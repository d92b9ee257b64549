import PeerLink.Proofs.Session.Discipline
import PeerLink.Proofs.Session.LastResponse

/-! What the success of a close tells. The first close of a stream is sent, and a mark is set before that. All
others return at once, without an error, because of the mark. So whether a close is in the queue when one of
them returns depends on what has become of the send of the first: it may still wait for its turn, and if it
was refused or was given up in line, no close is ever sent (`close_reported`). -/
namespace PeerLink

variable {M S : Type}

/-- What the owner of a stream closes: a stream opened here, or one that a handler serves. -/
inductive Handle where
  | client (c : ClientStreamId)
  | served (i : ServedStreamId)

namespace Session

/-- A close of the stream was begun. -/
def isClosed (s : Session M S) : Handle → Bool
  | .client c => s.clientStreams[c]?.any ClientStream.closeSent
  | .served i => s.servedStreams[i]?.any ServedStream.closeSent

/-- The close of the stream, as it is sent. -/
def close? (s : Session M S) : Handle → Option Envelope
  | .client c => s.clientStreams[c]?.map fun x => .streamClose x.id
  | .served i => s.servedStreams[i]?.map fun x => .response ⟨x.id, .close true⟩

end Session

/-- A close that was sent on behalf of the stream. -/
def Handle.isClose : Handle → Sender × Envelope → Bool
  | .client c, (x, .streamClose _) => x = .client c
  | .client _, _ => false
  | .served i, (x, e) => x.stream? = some i && e.content? = some (.close true)

/-- The send carries a close of the stream. -/
def Send.closes (stream : Handle) (z : Send) : Bool :=
  stream.isClose (z.sender, z.envelope)

namespace Machine

variable {m m' : Machine M S} {a : Action} {past : History M S} {s : Session M S} {stream : Handle}
  {t : Ticket}

/-- A close by the owner of the stream. -/
def closing : Handle → Action
  | .client c => .closeClient c
  | .served i => .closeServed i

/-- The action closes the stream. The handler of a stream does so by its return, too. -/
def Action.closes : Handle → Action → Bool
  | .client c, .closeClient d => d = c
  | .served i, .closeServed j => j = i
  | .served i, .finishServed j (.ok _) => j = i
  | _, _ => false

theorem Action.closes_iff : a.closes stream = true ↔ (∃ c, stream = .client c ∧ a = .closeClient c) ∨
    ∃ i, stream = .served i ∧ (a = .closeServed i ∨ a = .finishServed i (.ok ())) := by
  cases stream with
  | client c =>
      cases a with
      | closeClient d => simp [Action.closes, eq_comm]
      | _ => simp [Action.closes]
  | served i =>
      cases a with
      | closeServed j => simp [Action.closes, eq_comm]
      | finishServed j value => cases value <;> simp [Action.closes, eq_comm]
      | _ => simp [Action.closes]

/-! ### The mark -/

theorem any_closeSent_modify (l : List ClientStream) (d c : ClientStreamId)
    {f : ClientStream → ClientStream} (hf : ∀ x, (f x).closeSent = x.closeSent) :
    (l.modify d f)[c]?.any ClientStream.closeSent = l[c]?.any ClientStream.closeSent := by
  rw [List.getElem?_modify]
  split
  · cases l[c]? with
    | none => rfl
    | some x => exact hf x
  · cases l[c]? <;> rfl

/-- The mark of a stream opened here is set by its close and by nothing else. -/
theorem step?_isClosed_client (h : m.step? a = some m') (c : ClientStreamId) :
    m'.session.isClosed (.client c) = (m.session.isClosed (.client c) || a.closes (.client c)) := by
  by_cases hClose : a = .closeClient c
  · subst hClose
    obtain ⟨x, hx, _, rfl⟩ := closeClient?_eq_some h
    simp [Session.isClosed, Session.modifyClient, Session.beginSend, hx, Action.closes]
  have hOther : a.closes (.client c) = false := by
    simp [Bool.eq_false_iff, Action.closes_iff, hClose]
  rw [hOther, Bool.or_false]
  have hModified : ∀ {d : ClientStreamId} {f : ClientStream → ClientStream},
      m'.session.clientStreams = m.session.clientStreams.modify d f →
      (∀ x, (f x).closeSent = x.closeSent) →
      m'.session.isClosed (.client c) = m.session.isClosed (.client c) := by
    intro d f streams hSame
    rw [Session.isClosed, streams]
    exact any_closeSent_modify m.session.clientStreams d c hSame
  cases step?_streams h with
  | kept _ _ streams => rw [Session.isClosed, streams, Session.isClosed]
  | opened _ _ streams =>
      simp only [Session.isClosed, streams, List.getElem?_append]
      split
      · rfl
      · next hNew =>
          rw [List.getElem?_eq_none (Nat.le_of_not_lt hNew)]
          cases c - m.session.clientStreams.length <;> rfl
  | closed d cause streams =>
      have hd : d ≠ c := fun hSame => hClose (hSame ▸ cause)
      simp only [Session.isClosed, streams, List.getElem?_modify_ne _ _ hd]
  | arrived _ _ _ _ streams => exact hModified streams fun _ => rfl
  | received _ _ _ _ _ _ _ _ streams => exact hModified streams fun _ => rfl
  | sorted _ _ _ _ _ _ _ _ streams => exact hModified streams fun _ => rfl
  | stopped _ _ _ _ _ _ streams => exact hModified streams fun _ => rfl

/-- The mark of a stream that is served is set by a close of its handler, and by its return if that went
well. -/
theorem step?_isClosed_served (h : m.step? a = some m') (i : ServedStreamId) :
    m'.session.isClosed (.served i) = (m.session.isClosed (.served i) || a.closes (.served i)) := by
  have hCloses : a.closes (.served i) = true ↔ a = .closeServed i ∨ a = .finishServed i (.ok ()) := by
    simp [Action.closes_iff]
  simp only [Session.isClosed]
  cases found' : m'.session.servedStreams[i]? with
  | none =>
      have hNone : m.session.servedStreams[i]? = none := by
        cases found : m.session.servedStreams[i]? with
        | none => rfl
        | some x =>
            obtain ⟨y, hy, _⟩ := (step?_grows h).servedStreams i x found
            cases hy.symm.trans found'
      have hNot : a.closes (.served i) = false := by
        rw [Bool.eq_false_iff, Ne, hCloses]
        rintro (rfl | rfl)
        · simp [step?, closeByHandler?, hNone] at h
        · obtain ⟨x, _, hx, _⟩ := step?_finishServed h
          cases hx.symm.trans hNone
      rw [hNone, hNot]
      rfl
  | some y =>
      cases found : m.session.servedStreams[i]? with
      | some x =>
          rw [Option.any_some, Option.any_some, Bool.eq_iff_iff, Bool.or_eq_true, hCloses]
          exact step?_mark found h found'
      | none =>
          cases step?_record h found' with
          | opened r cause _ _ _ _ _ unclosed _ =>
              subst cause
              rw [Option.any_some, unclosed]
              rfl
          | kept _ hx | arrived _ _ hx | received _ _ hx | closed _ hx | returned _ _ hx =>
              rw [found] at hx
              cases hx

theorem step?_isClosed (h : m.step? a = some m') (stream : Handle) :
    m'.session.isClosed stream = (m.session.isClosed stream || a.closes stream) := by
  cases stream with
  | client c => exact step?_isClosed_client h c
  | served i => exact step?_isClosed_served h i

/-! ### The close -/

/-- A close is said by an action that closes the stream. -/
theorem Says.closes {x : Sender} {e : Envelope} (cause : m.Says a x e)
    (hClose : stream.isClose (x, e) = true) : a.closes stream = true := by
  cases stream with
  | client c => cases cause <;> simp_all [Handle.isClose, Action.closes]
  | served i =>
      cases cause with
      | finishServed value found =>
          cases value <;>
            simp_all [Handle.isClose, Action.closes, Envelope.content?, completion, Sender.stream?]
      | _ => simp_all [Handle.isClose, Action.closes, Envelope.content?, Sender.stream?]

theorem finishServed_ok_said {i : ServedStreamId} {x : ServedStream S}
    (found : m.session.servedStreams[i]? = some x) :
    (m.finishServed i (.ok ())).session.said = m.session.said ++
      if x.closeSent then [] else [(.completion i, .response ⟨x.id, .close true⟩)] := by
  rw [finishServed_eq found, ← retire_said m i x (.ok ())]
  cases x.closeSent with
  | true => exact (List.append_nil _).symm
  | false => exact said_beginSend _ _ _

/-- An action that closes the stream says its close, unless one was begun before. -/
theorem step?_close_said (h : m.step? a = some m') (stream : Handle) : ∃ begun,
    m'.session.said = m.session.said ++ begun ∧
      begun.countP stream.isClose = (a.closes stream && !m.session.isClosed stream).toNat := by
  by_cases hCloses : a.closes stream = true
  · rw [hCloses, Bool.true_and]
    obtain ⟨c, rfl, rfl⟩ | ⟨i, rfl, rfl | rfl⟩ := Action.closes_iff.mp hCloses
    · obtain ⟨x, found, hUnclosed, rfl⟩ := closeClient?_eq_some h
      refine ⟨_, said_beginSend _ _ _, ?_⟩
      simp [Handle.isClose, Session.isClosed, found, hUnclosed]
    · obtain ⟨x, found, hUnclosed, rfl⟩ := closeByHandler?_eq_some h
      refine ⟨_, said_beginSend _ _ _, ?_⟩
      simp [Handle.isClose, Sender.stream?, Envelope.content?, Session.isClosed, found, hUnclosed]
    · obtain ⟨x, _, found, _, rfl, _⟩ := step?_finishServed h
      refine ⟨_, finishServed_ok_said found, ?_⟩
      cases hMark : x.closeSent <;>
        simp [Handle.isClose, Sender.stream?, Envelope.content?, Session.isClosed, found, hMark]
  · obtain ⟨begun, hSaid, rfl | ⟨x, e, cause, rfl⟩, _⟩ := step?_flow h
    · exact ⟨[], hSaid, by simp [hCloses]⟩
    · refine ⟨_, hSaid, ?_⟩
      have hNot : stream.isClose (x, e) = false :=
        Bool.eq_false_iff.mpr fun hClose => hCloses (cause.closes hClose)
      simp [hNot, hCloses]

/-- The mark counts the closes that were sent. -/
theorem Life.closes_said {registry : Registry M S} {callTimeout : Option Duration} {capacity : Nat}
    {lifetime : LifetimeId} (life : Life (Session.new registry callTimeout capacity lifetime) past s)
    (stream : Handle) : s.said.countP stream.isClose = (s.isClosed stream).toNat := by
  induction life with
  | refl => cases stream <;> rfl
  | @step past s host a m' prior last ih =>
      obtain ⟨begun, hSaid, hCount⟩ := step?_close_said last stream
      rw [hSaid, List.countP_append, ih, hCount, step?_isClosed last stream]
      cases s.isClosed stream <;> cases a.closes stream <;> rfl

/-! ### What becomes of a send -/

/-- The sender gave up while it waited for its turn. -/
def History.GivenUpInLine (past : History M S) (t : Ticket) : Prop :=
  ∃ q a q', (q, a) ∈ past ∧ q.step? a = some q' ∧ t ∈ q.session.outbound.waiting.map Prod.fst ∧
    q'.session.sends[t]?.map Send.state = some .givenUp

/-- Nobody will put the envelope of the send into the queue any more. -/
inductive Lost (past : History M S) (s : Session M S) (t : Ticket) : Prop where
  | refused (h : s.sendResult? t = some .refused)
  | givenUp (h : past.GivenUpInLine t)

theorem mem_tickets_of_mem_waiting {o : Outbound} (h : t ∈ o.waiting.map Prod.fst) : t ∈ o.tickets :=
  List.mem_append_right _ h

theorem Tracked.not_waiting (hTracked : Tracked s) {z : Send} (hz : s.sends[t]? = some z)
    (hState : z.state ≠ .pending) : t ∉ s.outbound.waiting.map Prod.fst := fun hIn => by
  obtain ⟨x, hx, hPending⟩ := hTracked.pending t (mem_tickets_of_mem_waiting hIn)
  cases hx.symm.trans hz
  exact hState hPending

/-- A send that was given up had been, or was under way until then. -/
theorem step?_gaveUp (h : m.step? a = some m') {z : Send} (hz : m'.session.sends[t]? = some z)
    (hState : z.state = .givenUp) :
    ∃ y, m.session.sends[t]? = some y ∧ (y.state = .givenUp ∨ y.state = .pending) := by
  cases step?_sends h with
  | kept sends _ => exact ⟨z, sends ▸ hz, .inl hState⟩
  | began x e _ sends _ =>
      rw [sends] at hz
      obtain hz | ⟨_, rfl⟩ := getElem?_concat_eq_some hz
      · exact ⟨z, hz, .inl hState⟩
      · cases hState
  | gaveUp u _ sends _ =>
      rw [sends, Session.giveUp] at hz
      split at hz
      · exact ⟨z, hz, .inl hState⟩
      · next hOpen =>
          obtain ⟨_, hz⟩ | ⟨rfl, y, hy, rfl⟩ := getElem?_modify_eq_some hz
          · exact ⟨z, hz, .inl hState⟩
          · refine ⟨y, hy, ?_⟩
            obtain ⟨sender, e, state⟩ := y
            cases state with
            | pending => exact .inr rfl
            | givenUp => exact .inl rfl
            | done result => simp [Session.sendResult?, hy] at hOpen
  | queued outbound _ _ _ next =>
      rw [next] at hz
      exact ⟨z, hz, .inl hState⟩
  | completed outbound u result _ _ next =>
      rw [next, finishSend_sends] at hz
      obtain ⟨_, hz⟩ | ⟨_, y, _, rfl⟩ := getElem?_modify_eq_some hz
      · exact ⟨z, hz, .inl hState⟩
      · cases hState
  | taken e outbound _ _ next =>
      rw [next] at hz
      exact ⟨z, hz, .inl hState⟩
  | abandoned _ next =>
      rw [next] at hz
      exact ⟨z, hz, .inl hState⟩

/-- Nobody gets back into the line. -/
theorem step?_out_of_line (h : m.step? a = some m') (hOld : t < m.session.sends.length)
    (hOut : t ∉ m.session.outbound.waiting.map Prod.fst) :
    t ∉ m'.session.outbound.waiting.map Prod.fst ∧ t ∉ (History.entered [(m, a)]).map Prod.fst := by
  refine ⟨fun hIn => ?_, fun hIn => ?_⟩
  · obtain ⟨hSub, -⟩ | ⟨x, e, -, hWaiting⟩ := step?_waiting h
    · exact hOut ((hSub.map Prod.fst).subset hIn)
    · rw [hWaiting, List.map_append, List.mem_append] at hIn
      exact hIn.elim hOut fun hNew => absurd (List.mem_singleton.mp hNew) (Nat.ne_of_lt hOld)
  · obtain ⟨y, hy, rfl⟩ := List.mem_map.mp hIn
    exact hOut (List.mem_map_of_mem (mem_entered_now hy).1)

/-- What waits for its turn has not got into the queue. -/
theorem Queueing.waiting_outside (hQueue : Queueing past s)
    (hWaiting : t ∈ s.outbound.waiting.map Prod.fst) : t ∉ (History.entered past).map Prod.fst :=
  fun hIn => List.disjoint_of_nodup_append hQueue.distinct hIn hWaiting

/-- The turn by which an envelope gets into the queue gives up no send. -/
theorem Tracked.gaveUp_unentered (hTracked : Tracked m.session) (h : m.step? a = some m')
    (hWaiting : t ∈ m.session.outbound.waiting.map Prod.fst) {z : Send}
    (hz : m'.session.sends[t]? = some z) (hGone : z.state = .givenUp) :
    t ∉ (History.entered [(m, a)]).map Prod.fst := fun hIn => by
  have hAdvance : ∃ u, a = .advance u := by
    by_contra hOther
    simp [History.entered_other (not_exists.mp hOther)] at hIn
  obtain ⟨u, rfl⟩ := hAdvance
  obtain ⟨x, hx, hPending⟩ := hTracked.pending t (mem_tickets_of_mem_waiting hWaiting)
  have hUnless : m.session.sends[t]? ≠ some z := fun hOld => by
    cases hx.symm.trans hOld
    cases hPending.symm.trans hGone
  obtain ⟨outbound, ⟨_, rfl⟩ | ⟨result, _, rfl⟩⟩ := advanceOutbound?_cases h
  · exact hUnless hz
  · rw [finishSend_sends] at hz
    obtain ⟨_, hOld⟩ | ⟨_, w, _, rfl⟩ := getElem?_modify_eq_some hz
    · exact hUnless hOld
    · cases hGone

theorem Life.out_of_line {s' : Session M S} {later : History M S} (rest : Life s later s')
    (hOld : t < s.sends.length) (hOut : t ∉ s.outbound.waiting.map Prod.fst) :
    t ∉ s'.outbound.waiting.map Prod.fst ∧ t ∉ (History.entered later).map Prod.fst := by
  induction rest with
  | refl => exact ⟨hOut, List.not_mem_nil⟩
  | @step later s₁ host a m' prior last ih =>
      have hStill : t < s₁.sends.length := Nat.lt_of_lt_of_le hOld prior.sends_length_le
      obtain ⟨hAfter, hEnters⟩ := step?_out_of_line last hStill ih.1
      refine ⟨hAfter, ?_⟩
      rw [History.entered_append, List.map_append, List.mem_append, not_or]
      exact ⟨ih.2, hEnters⟩

section

variable {registry : Registry M S} {callTimeout : Option Duration} {capacity : Nat}
  {lifetime : LifetimeId}

/-- A send was given up in line, or after its envelope had got into the queue. -/
theorem Life.givenUp_place (life : Life (Session.new registry callTimeout capacity lifetime) past s)
    {z : Send} (hz : s.sends[t]? = some z) (hState : z.state = .givenUp) :
    t ∈ (History.entered past).map Prod.fst ∨ past.GivenUpInLine t := by
  induction life generalizing z with
  | refl => simp [Session.new] at hz
  | @step past s host a m' prior last ih =>
      have hBefore : t ∈ (History.entered past).map Prod.fst →
          t ∈ (History.entered (past ++ [(⟨host, s⟩, a)])).map Prod.fst := fun hIn => by
        rw [History.entered_append, List.map_append]
        exact List.mem_append_left _ hIn
      obtain ⟨y, hy, hGone | hPending⟩ := step?_gaveUp last hz hState
      · obtain hIn | ⟨q, b, q', hMem, hRest⟩ := ih hy hGone
        · exact .inl (hBefore hIn)
        · exact .inr ⟨q, b, q', List.mem_append_left _ hMem, hRest⟩
      · obtain hWaiting | hIn | hOver | hOver := prior.whereabouts hy
        · refine .inr ⟨_, a, m', List.mem_append_right _ (List.mem_singleton.mpr rfl), last, hWaiting, ?_⟩
          rw [hz, Option.map_some, hState]
        · exact .inl (hBefore hIn)
        all_goals cases hPending.symm.trans hOver

/-- What is lost is neither in line nor in the queue. -/
theorem Execution.lost_outside {host : Host}
    (exec : Execution (Machine.new host registry callTimeout capacity) past m)
    (hLost : Lost past m.session t) : t < m.session.sends.length ∧
      t ∉ m.session.outbound.waiting.map Prod.fst ∧ t ∉ (History.entered past).map Prod.fst := by
  have hTracked : ∀ {past : History M S} {q : Machine M S},
      Execution (Machine.new host registry callTimeout capacity) past q → Tracked q.session :=
    fun exec => exec.life.tracked (tracked_new registry callTimeout capacity _)
  cases hLost with
  | refused hRefused =>
      obtain ⟨x, hx, hDone⟩ := sendResult?_eq_some hRefused
      refine ⟨(List.getElem?_eq_some_iff.mp hx).1, (hTracked exec).not_waiting hx ?_,
        exec.life.refusedOutside t x hx hDone⟩
      rw [hDone]
      nofun
  | givenUp hGivenUp =>
      obtain ⟨q, a, q', hMem, hStep, hWaiting, hState⟩ := hGivenUp
      obtain ⟨before, after, rfl⟩ := List.append_of_mem hMem
      obtain ⟨hBefore, q'', hAgain, hLater⟩ := exec.split
      cases hAgain.symm.trans hStep
      obtain ⟨y, hy, hGone⟩ := Option.map_eq_some_iff.mp hState
      have hOld : t < q'.session.sends.length := (List.getElem?_eq_some_iff.mp hy).1
      have hNow := (hTracked (hBefore.step hStep)).not_waiting hy (by rw [hGone]; nofun)
      obtain ⟨hOut, hNever⟩ := hLater.life.out_of_line hOld hNow
      refine ⟨Nat.lt_of_lt_of_le hOld hLater.life.sends_length_le, hOut, ?_⟩
      rw [History.entered_append_later, History.entered_cons, List.map_append, List.map_append,
        List.mem_append, List.mem_append]
      rintro (hIn | hIn | hIn)
      · exact hBefore.life.queueing.waiting_outside hWaiting hIn
      · exact (hTracked hBefore).gaveUp_unentered hStep hWaiting hy hGone hIn
      · exact hNever hIn

/-- An envelope has got into the queue unless it still waits in line or is lost. -/
theorem Execution.entered_iff {host : Host}
    (exec : Execution (Machine.new host registry callTimeout capacity) past m) {z : Send}
    (hz : m.session.sends[t]? = some z) : t ∈ (History.entered past).map Prod.fst ↔
      ¬ (t ∈ m.session.outbound.waiting.map Prod.fst ∨ Lost past m.session t) := by
  constructor
  · rintro hIn (hWaiting | hLost)
    · exact exec.life.queueing.waiting_outside hWaiting hIn
    · exact (exec.lost_outside hLost).2.2 hIn
  · intro hNot
    rw [not_or] at hNot
    obtain ⟨hOut, hKept⟩ := hNot
    obtain hWaiting | hIn | hGivenUp | hRefused := exec.life.whereabouts hz
    · exact absurd hWaiting hOut
    · exact hIn
    · exact (exec.life.givenUp_place hz hGivenUp).resolve_right fun h => hKept (.givenUp h)
    · refine absurd (Lost.refused ?_) hKept
      obtain ⟨sender, e, state⟩ := z
      cases hRefused
      rw [Session.sendResult?, hz]

/-! ### The report -/

/-- If just one element has a property, it stands at one place. -/
theorem exists_place_of_countP_eq_one {α : Type} {p : α → Bool} {l : List α} (h : l.countP p = 1) :
    ∃ (t : Nat) (x : α), l[t]? = some x ∧ p x = true ∧
      ∀ (u : Nat) (y : α), l[u]? = some y → p y = true → u = t := by
  rw [List.countP_eq_length_filter, List.length_eq_one_iff] at h
  obtain ⟨x, hx⟩ := h
  obtain ⟨before, after, rfl, hBefore, hp, hAfter⟩ := List.filter_eq_cons_iff.mp hx
  rw [List.filter_eq_nil_iff] at hAfter
  refine ⟨before.length, x, by simp, hp, fun u y hy hpy => ?_⟩
  rcases Nat.lt_trichotomy u before.length with hu | hu | hu
  · rw [List.getElem?_append_left hu] at hy
    exact absurd hpy (hBefore y (List.mem_of_getElem? hy))
  · exact hu
  · obtain ⟨k, rfl⟩ := Nat.exists_eq_add_of_lt hu
    rw [List.getElem?_append_right (Nat.le_of_lt hu), Nat.add_assoc, Nat.add_sub_cancel_left,
      List.getElem?_cons_succ] at hy
    exact absurd hpy (hAfter y (List.mem_of_getElem? hy))

/-- A close that was sent is the close of the stream. -/
theorem Life.close_eq {start : Session M S} (hStart : start.said = []) (life : Life start past s)
    {e : Envelope} (found : s.close? stream = some e) {z : Send} (hz : z ∈ s.sends)
    (hCloses : z.closes stream = true) : z.envelope = e := by
  have hExplained := life.explained hStart z.sender z.envelope (List.mem_map_of_mem hz)
  rw [Send.closes] at hCloses
  generalize z.sender = sender at hExplained hCloses
  generalize z.envelope = envelope at hExplained hCloses ⊢
  cases stream with
  | client c =>
      obtain ⟨x, hx, rfl⟩ := Option.map_eq_some_iff.mp found
      cases hExplained with
      | close foundAgain _ =>
          obtain rfl := Sender.client.inj (of_decide_eq_true hCloses)
          cases hx.symm.trans foundAgain
          rfl
      | call | message | bye | refusal | run | served => cases hCloses
  | served i =>
      obtain ⟨x, hx, rfl⟩ := Option.map_eq_some_iff.mp found
      obtain ⟨hSpeaker, hContent⟩ : sender.stream? = some i ∧
          envelope.content? = some (.close true) := by simpa [Handle.isClose] using hCloses
      cases hExplained with
      | served content foundAgain speaker =>
          cases speaker.symm.trans hSpeaker
          cases hx.symm.trans foundAgain
          cases hContent
          rfl
      | call | message | close | bye | refusal | run => cases hSpeaker

/-- The first close of a stream is sent. -/
theorem step?_closing {e : Envelope} (found : m.session.close? stream = some e)
    (hUnclosed : m.session.isClosed stream = false) : ∃ q x, m.step? (closing stream) = some q ∧
      q.session.sends = m.session.sends ++ [⟨x, e, .pending⟩] := by
  cases stream with
  | client c =>
      obtain ⟨x, hx, rfl⟩ := Option.map_eq_some_iff.mp found
      have hMark : x.closeSent = false := by simpa [Session.isClosed, hx] using hUnclosed
      exact ⟨_, .client c, by simp only [closing, step?, closeClient?, hx, hMark]; rfl, rfl⟩
  | served i =>
      obtain ⟨x, hx, rfl⟩ := Option.map_eq_some_iff.mp found
      have hMark : x.closeSent = false := by simpa [Session.isClosed, hx] using hUnclosed
      refine ⟨_, .served i, by simp only [closing, step?, closeByHandler?, hx, hMark]; rfl, ?_⟩
      simp [sendServed, Session.modifyServed, Session.beginSend, hx]

/-- Later closes return at once. -/
theorem step?_closing_of_closed (hClosed : m.session.isClosed stream = true) :
    m.step? (closing stream) = none := by
  cases stream with
  | client c =>
      obtain ⟨x, hx, hMark⟩ := (Option.any_eq_true _ _).mp hClosed
      simp [closing, step?, closeClient?, hx, hMark]
  | served i =>
      obtain ⟨x, hx, hMark⟩ := (Option.any_eq_true _ _).mp hClosed
      simp [closing, step?, closeByHandler?, hx, hMark]

/-- A stream that is closed stays so. -/
theorem Life.isClosed {s' : Session M S} {later : History M S} (rest : Life s later s')
    (hClosed : s.isClosed stream = true) : s'.isClosed stream = true := by
  induction rest with
  | refl => exact hClosed
  | step _ last ih => rw [step?_isClosed last, ih, Bool.true_or]

/-- The close of a stream that is closed: the send with this number carries it, no other send does, and it
is told what has become of it. -/
structure CloseSent (past : History M S) (s : Session M S) (stream : Handle) (e : Envelope)
    (t : Ticket) : Prop where
  sent : ∃ z, s.sends[t]? = some z ∧ z.closes stream = true ∧ z.envelope = e
  only : ∀ u y, s.sends[u]? = some y → y.closes stream = true → u = t
  queued : (t, e) ∈ History.entered past ↔
    ¬ (t ∈ s.outbound.waiting.map Prod.fst ∨ Lost past s t)

theorem Queueing.entered_pair (hQueue : Queueing past s) {z : Send} (hz : s.sends[t]? = some z) :
    (t, z.envelope) ∈ History.entered past ↔ t ∈ (History.entered past).map Prod.fst := by
  refine ⟨fun h => List.mem_map_of_mem h, fun h => ?_⟩
  obtain ⟨⟨u, e⟩, hMem, rfl⟩ := List.mem_map.mp h
  have hKnown := hQueue.known _ (List.mem_append_left _ hMem)
  rw [hz, Option.map_some, Option.some.injEq] at hKnown
  rwa [hKnown]

/-- Of a stream that is closed, one close was sent. -/
theorem Life.close_place (life : Life (Session.new registry callTimeout capacity lifetime) past s)
    (hClosed : s.isClosed stream = true) :
    ∃ (t : Ticket) (z : Send), s.sends[t]? = some z ∧ z.closes stream = true ∧
      ∀ (u : Ticket) (y : Send), s.sends[u]? = some y → y.closes stream = true → u = t := by
  refine exists_place_of_countP_eq_one ?_
  have hSaid := life.closes_said stream
  rw [hClosed, Session.said, List.countP_map] at hSaid
  exact hSaid

theorem Execution.closeSent_of_closed {host : Host}
    (exec : Execution (Machine.new host registry callTimeout capacity) past m) {e : Envelope}
    (found : m.session.close? stream = some e) (hClosed : m.session.isClosed stream = true) :
    ∃ t, CloseSent past m.session stream e t := by
  obtain ⟨t, z, hz, hCloses, hOnly⟩ := exec.life.close_place hClosed
  have hEnvelope := exec.life.close_eq rfl found (List.mem_of_getElem? hz) hCloses
  refine ⟨t, ⟨z, hz, hCloses, hEnvelope⟩, hOnly, ?_⟩
  rw [← hEnvelope, exec.life.queueing.entered_pair hz]
  exact exec.entered_iff hz

/-- A close that is lost is not made up for. -/
theorem Execution.never_closed {host : Host}
    (exec : Execution (Machine.new host registry callTimeout capacity) past m) {z : Send}
    (hz : m.session.sends[t]? = some z) (hCloses : z.closes stream = true)
    (hLost : Lost past m.session t) {later : History M S} (hLater : Execution m later m')
    (hClosed : m'.session.isClosed stream = true) {y : Ticket × Envelope}
    (hy : y ∈ History.entered (past ++ later)) {w : Send} (hw : m'.session.sends[y.1]? = some w) :
    w.closes stream = false := by
  refine Bool.eq_false_iff.mpr fun hAgain => ?_
  obtain ⟨u, _, _, _, hOnly⟩ := (exec.append hLater).life.close_place hClosed
  obtain ⟨z', hz', hKeeps⟩ := (Life.grows hLater.life).sends t z hz
  have hSame : z'.closes stream = true := by
    rw [Send.closes, hKeeps.sender, hKeeps.envelope]
    exact hCloses
  have hPlace : y.1 = t := (hOnly _ w hw hAgain).trans (hOnly t z' hz' hSame).symm
  obtain ⟨hOld, hOut, hNotIn⟩ := exec.lost_outside hLost
  have hIn : t ∈ (History.entered (past ++ later)).map Prod.fst := hPlace ▸ List.mem_map_of_mem hy
  rw [History.entered_append_later, List.map_append, List.mem_append] at hIn
  rcases hIn with hIn | hIn
  · exact hNotIn hIn
  · exact (hLater.life.out_of_line hOld hOut).2 hIn

/-- What the success of a close tells. Of a stream that is not closed, no close was sent. A close then is,
and when it returns without an error its envelope has got into the queue, if not before. Of a stream that is
closed, just one close was ever sent. All further closes return at once, without an error, and that close has
got into the queue by then unless it still waits for its turn, was refused, or was given up in line. In the
last two cases, no close of the stream will ever get into the queue, while all further closes succeed. -/
theorem close_reported {host : Host}
    (exec : Execution (Machine.new host registry callTimeout capacity) past m) {e : Envelope}
    (found : m.session.close? stream = some e) :
    (m.session.isClosed stream = false → (∀ z ∈ m.session.sends, z.closes stream = false) ∧
      ∃ q, m.step? (closing stream) = some q ∧ ∀ later m', Execution q later m' →
        m'.session.sendResult? m.session.nextTicket = some .accepted →
          (m.session.nextTicket, e) ∈ History.entered (past ++ (m, closing stream) :: later)) ∧
    (m.session.isClosed stream = true → m.step? (closing stream) = none ∧
      ∃ t, CloseSent past m.session stream e t ∧ (Lost past m.session t →
        ∀ later m', Execution m later m' → m'.step? (closing stream) = none ∧
          ∀ y ∈ History.entered (past ++ later), ∀ z, m'.session.sends[y.1]? = some z →
            z.closes stream = false)) := by
  refine ⟨fun hUnclosed => ⟨?_, ?_⟩, fun hClosed => ⟨step?_closing_of_closed hClosed, ?_⟩⟩
  · have hSaid := exec.life.closes_said stream
    rw [hUnclosed, Session.said, List.countP_map, Bool.toNat_false, List.countP_eq_zero] at hSaid
    exact fun z hz => Bool.eq_false_iff.mpr (hSaid z hz)
  · obtain ⟨q, x, hStep, hSends⟩ := step?_closing found hUnclosed
    refine ⟨q, hStep, fun later m' hLater hResult => ?_⟩
    have whole := (exec.step hStep).append hLater
    rw [List.append_assoc, List.singleton_append] at whole
    have hNew : q.session.sends[m.session.nextTicket]? = some ⟨x, e, .pending⟩ := by
      rw [hSends]
      exact List.getElem?_concat_length
    obtain ⟨z, hz, hKeeps⟩ := (Life.grows hLater.life).sends _ _ hNew
    obtain ⟨y, hy, hDone⟩ := sendResult?_eq_some hResult
    have hEnvelope : z.envelope = e := hKeeps.envelope
    rw [← hEnvelope, whole.life.queueing.entered_pair hz]
    exact whole.life.queueing.accepted _ y hy hDone
  · obtain ⟨t, hSent⟩ := exec.closeSent_of_closed found hClosed
    refine ⟨t, hSent, fun hLost later m' hLater => ?_⟩
    have hStays := hLater.life.isClosed hClosed
    obtain ⟨w, hw, hCloses, _⟩ := hSent.sent
    exact ⟨step?_closing_of_closed hStays, fun y hy z hz =>
      exec.never_closed hw hCloses hLost hLater hStays hy hz⟩

/-- The queue is full, the first close of a stream is given up, and from then on every close of it succeeds
without sending anything. -/
theorem close_reported_of_lost : ∃ (past : History Unit Unit) (m : Machine Unit Unit) (t : Ticket),
    Execution (Machine.new (Host.new false) Registry.empty none 0) past m ∧
      CloseSent past m.session (.client 0) (.streamClose 0) t ∧ Lost past m.session t ∧
      ∀ later m', Execution m later m' → m'.step? (closing (.client 0)) = none ∧
        ∀ y ∈ History.entered (past ++ later), ∀ z, m'.session.sends[y.1]? = some z →
          z.closes (.client 0) = false := by
  have hPlay : ((Machine.new (Host.new false) (Registry.empty : Registry Unit Unit) none 0).play
      [.openStream "A.b", .bye, .closeClient 0, .advance 0, .giveUp 1]).map
      (fun r => (History.entered r.1, r.2.session.outbound.waiting, r.2.session.close? (.client 0),
        r.2.session.isClosed (.client 0))) =
      some ([(0, .bye)], [], some (.streamClose 0), true) := by decide +kernel
  obtain ⟨⟨past, m⟩, hRun, hFacts⟩ := Option.map_eq_some_iff.mp hPlay
  simp only [Prod.mk.injEq] at hFacts
  obtain ⟨hEntered, hWaiting, found, hClosed⟩ := hFacts
  have exec := Execution.refl.play hRun
  rw [List.nil_append] at exec
  obtain ⟨_, t, hSent, hNever⟩ := (close_reported exec found).2 hClosed
  have hLost : Lost past m.session t := by
    have hOut : (t, Envelope.streamClose 0) ∉ History.entered past := by simp [hEntered]
    rw [hSent.queued, not_not, hWaiting] at hOut
    exact hOut.resolve_left List.not_mem_nil
  exact ⟨past, m, t, exec, hSent, hLost, hNever hLost⟩

/-- A stream opened here and one that is served are closed while the queue is full, and both closes are given
up. The handler of the second returns. The queue drains, nothing is left to do, a close of either stream
succeeds, and neither close has been in the queue. -/
theorem close_reported_unsent : ∃ (past : History Unit Unit) (m : Machine Unit Unit),
    Execution (Machine.new (Host.new false) ⟨[], [⟨"A.c", (), true, true⟩]⟩ none 0) past m ∧ m.Settled ∧
      m.isServing 0 = false ∧
      ∀ x ∈ [(Handle.client 0, Envelope.streamClose 0), (.served 0, .response ⟨7, .close true⟩)],
        m.session.close? x.1 = some x.2 ∧ m.step? (closing x.1) = none ∧
          x.2 ∉ (History.entered past).map Prod.snd := by
  have hPlay : ((Machine.new (Host.new false) (⟨[], [⟨"A.c", (), true, true⟩]⟩ : Registry Unit Unit)
      none 0).play
      [.openStream "A.b",
        .receive (.request { id := 7, method := "A.c", payload := .ofValue [], isStream := true }),
        .bye, .closeClient 0, .closeServed 0, .advance 0, .giveUp 1, .giveUp 2, .finishServed 0 (.ok ()),
        .take, .advance 0]).map
      (fun r => (History.entered r.1, r.2.session.close? (.client 0), r.2.session.close? (.served 0),
        r.2.isSettled && !r.2.isServing 0 && r.2.session.isClosed (.client 0) &&
          r.2.session.isClosed (.served 0))) =
      some ([(0, .bye)], some (.streamClose 0), some (.response ⟨7, .close true⟩), true) := by
    decide +kernel
  obtain ⟨⟨past, m⟩, hRun, hFacts⟩ := Option.map_eq_some_iff.mp hPlay
  simp only [Prod.mk.injEq, Bool.and_eq_true, Bool.not_eq_true'] at hFacts
  obtain ⟨hEntered, hOpened, hServed, ⟨⟨hSettled, hReturned⟩, hClosed⟩, hClosed'⟩ := hFacts
  refine ⟨past, m, Execution.refl.play hRun, isSettled_iff.mp hSettled, hReturned, ?_⟩
  simp only [List.forall_mem_cons, hEntered]
  exact ⟨⟨hOpened, step?_closing_of_closed hClosed, by simp⟩,
    ⟨hServed, step?_closing_of_closed hClosed', by simp⟩, nofun⟩

end

end Machine

end PeerLink

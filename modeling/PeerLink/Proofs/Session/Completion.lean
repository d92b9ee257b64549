import PeerLink.Proofs.Session.Speaking
import PeerLink.Proofs.Session.Shared

/-! How the end of a handler is signalled. A stream says at most one close, because whoever says it sets a
mark first, and the mark is looked at again when the handler returns. An error is said by the return of
the handler only, and nothing is said after that as long as the handler keeps its stream to itself
(`completion_signalled_once`). -/
namespace PeerLink

variable {M S : Type}

def Content.isClose : Content → Bool
  | .close _ => true
  | _ => false

def Content.isError : Content → Bool
  | .error _ => true
  | _ => false

/-- What a send says on behalf of a stream that is served. -/
def Send.speech? (i : ServedStreamId) (z : Send) : Option Content :=
  if z.sender.stream? = some i then z.envelope.content? else none

/-- What was handed to the queue on behalf of a stream that is served, and not taken back. -/
def Session.handed (s : Session M S) (i : ServedStreamId) : List Content :=
  (s.sends.filter fun z => z.state ≠ .givenUp).filterMap (Send.speech? i)

/-- Nobody gives up on a close that the handler of the stream sends. -/
def Session.KeepsCloses (s : Session M S) (i : ServedStreamId) : Prop :=
  ∀ z ∈ s.sends, z.sender = .served i → ∀ flag, z.envelope.content? = some (.close flag) →
    z.state ≠ .givenUp

instance (s : Session M S) (i : ServedStreamId) : Decidable (s.KeepsCloses i) :=
  inferInstanceAs (Decidable (∀ z ∈ s.sends, _ → _))

namespace Machine

variable {m m' : Machine M S} {a : Action} {past : History M S} {s : Session M S}
  {i : ServedStreamId} {x y : ServedStream S}

/-- The handle of the stream is used to say something. -/
def Action.speaks (i : ServedStreamId) : Action → Bool
  | .sendServed j _ => j = i
  | .readyServed j => j = i
  | .closeServed j => j = i
  | _ => false

/-- The handle of the stream does not outlive the handler. -/
def History.Scoped (past : History M S) (i : ServedStreamId) : Prop :=
  ∀ e ∈ past, e.2.speaks i = true → ∀ x ∈ e.1.session.servedStreams[i]?, x.result = none

instance (past : History M S) (i : ServedStreamId) : Decidable (past.Scoped i) :=
  inferInstanceAs (Decidable (∀ e ∈ past, _ → _))

/-! ### One action -/

/-- The return of a handler marks its stream as closed, if all went well. -/
theorem retire_found (found : m.session.servedStreams[i]? = some x) (result : Except Failure Unit) :
    ∃ y, (m.retire i x result).session.servedStreams[i]? = some y ∧
      y.closeSent = (x.closeSent || result.isOk) := by
  obtain ⟨z, hz, hClose⟩ := removeServed_found found x.id
  refine ⟨{ z with result := some result, closeSent := z.closeSent || result.isOk }, ?_, by rw [hClose]⟩
  rw [retire_session, List.getElem?_modify_eq, hz]
  rfl

/-- What one action says on a stream, and what it makes of the mark and the result. -/
inductive SignalStep (m m' : Machine M S) (a : Action) (i : ServedStreamId) (x y : ServedStream S) :
    Prop where
  | kept (later : List Content) (result : y.result = x.result) (closeSent : y.closeSent = x.closeSent)
      (spoken : m'.session.spoken i = m.session.spoken i ++ later)
      (plain : ∀ content ∈ later, content.isLast = false) (silent : a.speaks i = false → later = [])
  | closed (cause : a = .closeServed i) (result : y.result = x.result) (unclosed : x.closeSent = false)
      (closeSent : y.closeSent = true)
      (spoken : m'.session.spoken i = m.session.spoken i ++ [.close true])
  | returned (value : Except Failure Unit) (cause : a = .finishServed i value)
      (running : x.result = none) (result : y.result = some value)
      (closeSent : y.closeSent = (x.closeSent || value.isOk))
      (spoken : m'.session.spoken i = m.session.spoken i ++
        if value.isOk && x.closeSent then [] else [completion value])

theorem finishServed_signal {value : Except Failure Unit}
    (found : m.session.servedStreams[i]? = some x)
    (h : m.step? (.finishServed i value) = some m') (found' : m'.session.servedStreams[i]? = some y) :
    m.SignalStep m' (.finishServed i value) i x y := by
  obtain ⟨z, w, hz, hRunning, rfl, hw, hResult⟩ := step?_finishServed h
  cases hz.symm.trans found
  cases hw.symm.trans found'
  obtain ⟨v, hv, hClose⟩ := retire_found found value
  have he := finishServed_eq found value
  have hBefore : (m.retire i x value).session.spoken i = m.session.spoken i := by
    rw [Session.spoken, retire_said]
    rfl
  refine .returned value rfl hRunning hResult ?_ ?_
  · have hSame : (m.finishServed i value).session.servedStreams =
        (m.retire i x value).session.servedStreams := by
      rw [he]
      split <;> rfl
    rw [hSame, hv] at found'
    cases found'
    exact hClose
  · rw [he]
    split
    · rw [hBefore, List.append_nil]
    · rw [← hBefore]
      exact spoken_speaker (said_beginSend _ _ _) rfl

theorem closeServed_signal (found : m.session.servedStreams[i]? = some x)
    (h : m.step? (.closeServed i) = some m') (found' : m'.session.servedStreams[i]? = some y) :
    m.SignalStep m' (.closeServed i) i x y := by
  have hSpoken := spoken_speaker (closeByHandler?_said found h) (rfl : Sender.stream? (.served i) = some i)
  have hResult := (step?_marks h found found' fun _ he => by cases he).1
  obtain ⟨z, hz, hUnclosed, rfl⟩ := closeByHandler?_eq_some h
  cases hz.symm.trans found
  refine .closed rfl hResult hUnclosed ?_ hSpoken
  obtain ⟨hne, _⟩ | ⟨_, _, _, rfl⟩ := getElem?_modify_eq_some found'
  · exact absurd rfl hne
  · rfl

theorem step?_signal (found : m.session.servedStreams[i]? = some x) (h : m.step? a = some m')
    (found' : m'.session.servedStreams[i]? = some y) : m.SignalStep m' a i x y := by
  by_cases hFinish : ∃ value, a = .finishServed i value
  · obtain ⟨value, rfl⟩ := hFinish
    exact finishServed_signal found h found'
  by_cases hClose : a = .closeServed i
  · subst hClose
    exact closeServed_signal found h found'
  obtain ⟨hResult, hCloseSent⟩ := step?_marks h found found' fun value he => hFinish ⟨value, he⟩
  obtain ⟨begun, hSaid, rfl | ⟨speaker, e, cause, rfl⟩, _⟩ := step?_flow h
  · refine .kept [] hResult (hCloseSent hClose) ?_ nofun fun _ => rfl
    rw [Session.spoken, hSaid, List.append_nil, List.append_nil]
    rfl
  by_cases hSpeaker : speaker.stream? = some i
  · cases cause with
    | sendServed payload _ =>
        cases hSpeaker
        exact .kept [.payload payload] hResult (hCloseSent hClose) (spoken_speaker hSaid rfl)
          (by simp [Content.isLast]) (by simp [Action.speaks])
    | readyServed _ =>
        cases hSpeaker
        exact .kept [.ready true] hResult (hCloseSent hClose) (spoken_speaker hSaid rfl)
          (by simp [Content.isLast]) (by simp [Action.speaks])
    | closeServed _ => cases hSpeaker; exact absurd rfl hClose
    | finishServed value _ => cases hSpeaker; exact absurd ⟨value, rfl⟩ hFinish
    | call | sendClient | closeClient | bye | refusal | run => cases hSpeaker
  · exact .kept [] hResult (hCloseSent hClose)
      ((spoken_other hSaid hSpeaker).trans (List.append_nil _).symm) nofun fun _ => rfl

/-! ### What a stream has said -/

/-- What a stream has said, against its mark and its result. -/
structure Signals (x : ServedStream S) (contents : List Content) : Prop where
  closes : contents.countP Content.isClose = if x.closeSent then 1 else 0
  closed : x.result = some (.ok ()) → x.closeSent = true
  quiet : (∀ failure, x.result ≠ some (.error failure)) →
    ∀ content ∈ contents, content.isError = false
  failed : ∀ failure, x.result = some (.error failure) → ∃ front,
    contents = front ++ [.error failure.toRemote] ∧ ∀ content ∈ front, content.isError = false

theorem Content.plain {content : Content} (h : content.isLast = false) :
    content.isClose = false ∧ content.isError = false := by
  cases content with
  | payload | ready => exact ⟨rfl, rfl⟩
  | error | close => cases h

theorem Signals.step (hSignals : Signals x (m.session.spoken i))
    (found : m.session.servedStreams[i]? = some x)
    (hScoped : a.speaks i = true → x.result = none) (h : m.step? a = some m')
    (found' : m'.session.servedStreams[i]? = some y) : Signals y (m'.session.spoken i) := by
  have hQuiet : x.result = none → ∀ content ∈ m.session.spoken i, content.isError = false :=
    fun hRunning => hSignals.quiet (by simp [hRunning])
  cases step?_signal found h found' with
  | kept later result closeSent spoken plain silent =>
      rw [spoken]
      have hPlain : ∀ content ∈ later, content.isError = false := fun content hContent =>
        (Content.plain (plain content hContent)).2
      refine ⟨?_, fun hOk => ?_, fun hNot => ?_, fun failure hFailed => ?_⟩
      · have hNone : later.countP Content.isClose = 0 := List.countP_eq_zero.mpr fun content hContent =>
          Bool.eq_false_iff.mp (Content.plain (plain content hContent)).1
        rw [List.countP_append, hNone, closeSent, Nat.add_zero]
        exact hSignals.closes
      · rw [closeSent]
        exact hSignals.closed (result.symm.trans hOk)
      · rw [List.forall_mem_append]
        exact ⟨hSignals.quiet fun failure he => hNot failure (result.trans he), hPlain⟩
      · rw [result] at hFailed
        -- The handler has returned, so nobody uses its stream any more.
        have hSilent : a.speaks i = false := Bool.eq_false_iff.mpr fun hSpeaks => by
          rw [hScoped hSpeaks] at hFailed
          cases hFailed
        rw [silent hSilent, List.append_nil]
        exact hSignals.failed failure hFailed
  | closed cause result unclosed closeSent spoken =>
      have hRunning : x.result = none := hScoped (by simp [cause, Action.speaks])
      rw [spoken]
      refine ⟨?_, fun _ => closeSent, fun _ => ?_, fun failure hFailed => ?_⟩
      · rw [List.countP_append, hSignals.closes, unclosed, closeSent]
        rfl
      · rw [List.forall_mem_append]
        exact ⟨hQuiet hRunning, by simp [Content.isError]⟩
      · rw [result, hRunning] at hFailed
        cases hFailed
  | returned value cause running result closeSent spoken =>
      rw [spoken]
      cases value with
      | ok _ =>
          have hClosed : y.closeSent = true := by simp [closeSent, Except.isOk, Except.toBool]
          refine ⟨?_, fun _ => hClosed, fun _ => ?_, fun failure hFailed => ?_⟩
          · rw [List.countP_append, hSignals.closes, hClosed]
            cases x.closeSent <;> rfl
          · rw [List.forall_mem_append]
            refine ⟨hQuiet running, ?_⟩
            split <;> simp [completion, Content.isError]
          · rw [result] at hFailed
            cases hFailed
      | error failure =>
          refine ⟨?_, fun hOk => ?_, fun hNot => absurd result (hNot failure), fun _ hFailed => ?_⟩
          · rw [List.countP_append, hSignals.closes, closeSent]
            simp [Except.isOk, Except.toBool, completion, Content.isClose]
          · rw [result] at hOk
            cases hOk
          · rw [result] at hFailed
            cases hFailed
            exact ⟨_, rfl, hQuiet running⟩

section

variable {registry : Registry M S} {callTimeout : Option Duration} {capacity : Nat}
  {lifetime : LifetimeId}

theorem History.Scoped.before {e : Machine M S × Action} (h : History.Scoped (past ++ [e]) i) :
    past.Scoped i :=
  fun e' hMem => h e' (List.mem_append_left _ hMem)

theorem Life.signals (life : Life (Session.new registry callTimeout capacity lifetime) past s)
    (hScoped : past.Scoped i) (found : s.servedStreams[i]? = some x) : Signals x (s.spoken i) := by
  induction life generalizing x with
  | refl => simp [Session.new] at found
  | @step past s host a m' prior last ih =>
      cases hOld : s.servedStreams[i]? with
      | some w =>
          refine (ih hScoped.before hOld).step (m := ⟨host, s⟩) hOld (fun hSpeaks => ?_) last found
          exact hScoped _ (List.mem_append_right _ (List.mem_singleton.mpr rfl)) hSpeaks w hOld
      | none =>
          cases step?_record last found with
          | opened r cause _ _ _ _ _ unclosed running =>
              subst cause
              have hNothing : m'.session.spoken i = [] := by
                rw [Session.spoken, step?_receive_said last]
                exact (prior.unspoken rfl hOld).1
              rw [hNothing]
              refine ⟨by rw [unclosed]; rfl, fun hOk => ?_, fun _ => by simp, fun _ hFailed => ?_⟩
              · rw [running] at hOk
                cases hOk
              · rw [running] at hFailed
                cases hFailed
          | kept _ hx | arrived _ _ hx | received _ _ hx | closed _ hx | returned _ _ hx =>
              rw [hOld] at hx
              cases hx

/-- An error is said on a stream by the return of its handler, which says what the handler has returned. -/
theorem Life.completion_said (life : Life (Session.new registry callTimeout capacity lifetime) past s) :
    (∀ speaker e failure, (speaker, e) ∈ s.said → speaker.stream? = some i →
      e.content? = some (.error failure) → speaker = .completion i) ∧
    ∀ e, (.completion i, e) ∈ s.said → ∃ x value, s.servedStreams[i]? = some x ∧
      x.result = some value ∧ e.content? = some (completion value) := by
  induction life with
  | refl => simp [Session.said, Session.new]
  | @step past s host a m' prior last ih =>
      obtain ⟨hErrors, hReturned⟩ := ih
      have hKept {e : Envelope} : (∃ x value, s.servedStreams[i]? = some x ∧ x.result = some value ∧
            e.content? = some (completion value)) →
          ∃ x value, m'.session.servedStreams[i]? = some x ∧ x.result = some value ∧
            e.content? = some (completion value) := by
        rintro ⟨x, value, found, hResult, hContent⟩
        obtain ⟨y, hy, hKeeps⟩ := step?_servedStreams last i x found
        exact ⟨y, value, hy, hKeeps.result value hResult, hContent⟩
      obtain ⟨begun, hSaid, rfl | ⟨speaker, e, cause, rfl⟩, _⟩ := step?_flow last
      · rw [hSaid, List.append_nil]
        exact ⟨hErrors, fun e he => hKept (hReturned e he)⟩
      · rw [hSaid]
        refine ⟨fun speaker' e' failure hMem hStream hError => ?_, fun e' hMem => ?_⟩
        · rcases List.mem_append.mp hMem with hMem | hMem
          · exact hErrors speaker' e' failure hMem hStream hError
          · cases List.mem_singleton.mp hMem
            cases cause with
            | finishServed => cases hStream; rfl
            | sendServed | readyServed | closeServed => cases hError
            | call | sendClient | closeClient | bye | refusal | run => cases hStream
        · rcases List.mem_append.mp hMem with hMem | hMem
          · exact hKept (hReturned e' hMem)
          · obtain ⟨hSpeaker, rfl⟩ := Prod.mk.inj (List.mem_singleton.mp hMem)
            subst hSpeaker
            cases cause with
            | finishServed value _ =>
                obtain ⟨_, y, _, _, _, hy, hResult⟩ := step?_finishServed last
                exact ⟨y, value, hy, hResult, rfl⟩

/-- A handler returns at most once. -/
theorem Life.returned_once (life : Life (Session.new registry callTimeout capacity lifetime) past s)
    (found : s.servedStreams[i]? = some x) {value : Except Failure Unit}
    (hResult : x.result = some value) :
    ∃ before q after, past = before ++ (q, .finishServed i value) :: after ∧
      ∀ e ∈ before ++ after, ∀ other, e.2 ≠ .finishServed i other := by
  induction life generalizing x with
  | refl => simp [Session.new] at found
  | @step past s host a m' prior last ih =>
      by_cases hFinish : ∃ other, a = .finishServed i other
      · obtain ⟨other, rfl⟩ := hFinish
        obtain ⟨w, y, hw, hRunning, _, hy, hValue⟩ := step?_finishServed last
        cases hy.symm.trans found
        cases hValue.symm.trans hResult
        refine ⟨past, _, [], rfl, fun e hMem earlier hEarlier => ?_⟩
        obtain ⟨q, b⟩ := e
        rw [List.append_nil] at hMem
        cases (show b = .finishServed i earlier from hEarlier)
        obtain ⟨z, hz, hDone⟩ := prior.returned hMem
        cases hw.symm.trans hz
        rw [hRunning] at hDone
        cases hDone
      · have hNot : ∀ other, a ≠ .finishServed i other := fun other he => hFinish ⟨other, he⟩
        cases hOld : s.servedStreams[i]? with
        | some w =>
            rw [(step?_marks last hOld found hNot).1] at hResult
            obtain ⟨before, q, after, rfl, hOnce⟩ := ih hOld hResult
            refine ⟨before, q, after ++ [(⟨host, s⟩, a)], by simp, ?_⟩
            rw [← List.append_assoc, List.forall_mem_append]
            exact ⟨hOnce, by simpa using hNot⟩
        | none =>
            cases step?_record last found with
            | opened _ _ _ _ _ _ _ _ running =>
                rw [hResult] at running
                cases running
            | kept _ hx | arrived _ _ hx | received _ _ hx | closed _ hx | returned _ _ hx =>
                rw [hOld] at hx
                cases hx

/-- What the return of a handler says is never taken back. -/
theorem Life.completion_kept (life : Life (Session.new registry callTimeout capacity lifetime) past s)
    {z : Send} (hz : z ∈ s.sends) (hSender : z.sender = .completion i) : z.state ≠ .givenUp := by
  intro hState
  obtain hCan | ⟨c, hCall⟩ := life.patientTasks z hz hState
  · rw [hSender] at hCan
    cases hCan
  · cases hSender.symm.trans hCall

end

/-! ### What a stream has handed to the queue -/

theorem speech?_eq_some {z : Send} {content : Content} : z.speech? i = some content ↔
    z.sender.stream? = some i ∧ z.envelope.content? = some content := by
  rw [Send.speech?, Option.ite_none_right_eq_some]

theorem spoken_eq (s : Session M S) (i : ServedStreamId) :
    s.spoken i = s.sends.filterMap (Send.speech? i) := by
  rw [Session.spoken, Session.said, List.filterMap_map]
  rfl

theorem handed_sublist (s : Session M S) (i : ServedStreamId) : (s.handed i).Sublist (s.spoken i) := by
  rw [spoken_eq]
  exact List.filter_sublist.filterMap _

/-- What nobody gives up on is counted alike. -/
theorem handed_countP {p : Content → Bool} (hKept : ∀ z ∈ s.sends, ∀ content,
      z.speech? i = some content → p content = true → z.state ≠ .givenUp) :
    (s.handed i).countP p = (s.spoken i).countP p := by
  rw [spoken_eq, Session.handed, List.countP_filterMap, List.countP_filterMap, List.countP_filter]
  refine List.countP_congr fun z hz => ?_
  cases hContent : z.speech? i with
  | none => simp
  | some content =>
      simp only [Option.map_some, Option.getD_some, Bool.and_eq_true, decide_eq_true_eq]
      exact ⟨And.left, fun h => ⟨h, hKept z hz content hContent h⟩⟩

/-- If what a stream said last is not taken back, it is what was handed over last. -/
theorem handed_of_spoken {front : List Content} {last : Content} (hSpoken : s.spoken i = front ++ [last])
    (hKept : ∀ z ∈ s.sends, z.speech? i = some last → z.state ≠ .givenUp) :
    ∃ kept, s.handed i = kept ++ [last] ∧ kept.Sublist front := by
  rw [spoken_eq, List.filterMap_eq_append_iff] at hSpoken
  obtain ⟨before, rest, hSends, rfl, hRest⟩ := hSpoken
  obtain ⟨between, z, after, rfl, hBetween, hz, hAfter⟩ := List.filterMap_eq_cons_iff.mp hRest
  have hState : z.state ≠ .givenUp := hKept z (by simp [hSends]) hz
  have hNone : ∀ l : List Send, l.filterMap (Send.speech? i) = [] →
      (l.filter fun z => z.state ≠ .givenUp).filterMap (Send.speech? i) = [] := fun l hl =>
    List.sublist_nil.mp (hl ▸ List.filter_sublist.filterMap _)
  refine ⟨(before.filter fun z => z.state ≠ .givenUp).filterMap (Send.speech? i), ?_,
    List.filter_sublist.filterMap _⟩
  rw [Session.handed, hSends, List.filter_append, List.filter_append,
    List.filter_cons_of_pos (by simpa using hState), List.filterMap_append, List.filterMap_append,
    List.filterMap_cons_some hz, hNone between (List.filterMap_eq_nil_iff.mpr hBetween), hNone after hAfter]
  rfl

/-! ### Completion -/

/-- The return of the handler in the state `q`: the lifetime of the stream is cancelled and the stream has
left the table before anything is handed to the queue. -/
def RetiresFirst (q : Machine M S) (i : ServedStreamId) (x : ServedStream S)
    (value : Except Failure Unit) : Prop :=
  ∃ p q' : Machine M S, q.step? (.finishServed i value) = some q' ∧
    p.session.sends = q.session.sends ∧ p.isCancelled x.lifetime = true ∧
    p.session.openStreams.get? x.id ≠ some i ∧
    (q' = p ∨ ∃ content, q' = p.onSession (·.beginSend (.completion i) (.response ⟨x.id, content⟩)))

/-- The handler of the stream has returned once, and this was counted and acted on once. -/
structure Completed (start : Meter) (past : History M S) (m : Machine M S) (i : ServedStreamId)
    (x : ServedStream S) (value : Except Failure Unit) : Prop where
  once : ∃ before q after, past = before ++ (q, .finishServed i value) :: after ∧
    (∀ e ∈ before ++ after, ∀ other, e.2 ≠ .finishServed i other) ∧
    m.meter = History.tally after ((History.tally before start).counted value) ∧
    q.RetiresFirst i x value
  cancelled : m.isCancelled x.lifetime = true
  left : m.session.openStreams.get? x.id ≠ some i

section

variable {host : Host} {registry : Registry M S} {callTimeout : Option Duration} {capacity : Nat}

theorem Rooted.retiresFirst (hRooted : m.Rooted) {value : Except Failure Unit}
    (h : m.step? (.finishServed i value) = some m') (found : m.session.servedStreams[i]? = some x) :
    m.RetiresFirst i x value := by
  obtain ⟨z, _, hz, _, rfl, _⟩ := step?_finishServed h
  cases hz.symm.trans found
  refine ⟨m.retire i x value, _, h, by rw [retire_session], ?_, ?_, ?_⟩
  · refine Lifetimes.isCancelled_of_isFlagged ?_
    rw [retire_lifetimes, Lifetimes.isFlagged_cancel, (closes_removeServed m i x.id).next]
    exact .inr ⟨rfl, hRooted.lt_next (served_mem_handles found)⟩
  · rw [retire_session, removeServed_openStreams]
    split
    · simp
    · next hNot => exact hNot
  · rw [finishServed_eq found]
    split
    · exact .inl rfl
    · exact .inr ⟨_, rfl⟩

/-- The mark of a stream counts the closes that were handed over, if none of them was given up. -/
theorem Life.handed_closes {lifetime : LifetimeId}
    (life : Life (Session.new registry callTimeout capacity lifetime) past s) (hScoped : past.Scoped i)
    (hKept : s.KeepsCloses i) (found : s.servedStreams[i]? = some x) :
    (s.handed i).countP Content.isClose = if x.closeSent then 1 else 0 := by
  rw [← (life.signals hScoped found).closes]
  refine handed_countP fun z hz content hSpeech hClose => ?_
  obtain ⟨hStream, hContent⟩ := speech?_eq_some.mp hSpeech
  cases hSender : z.sender with
  | served j =>
      rw [hSender] at hStream
      cases hStream
      cases content with
      | close flag => exact hKept z hz hSender flag hContent
      | payload | error | ready => cases hClose
  | completion j => exact life.completion_kept hz hSender
  | call | run | refusal | client | bye =>
      rw [hSender] at hStream
      cases hStream

theorem Execution.completed
    (exec : Execution (Machine.new host registry callTimeout capacity) past m)
    (found : m.session.servedStreams[i]? = some x) {value : Except Failure Unit}
    (hResult : x.result = some value) : Completed host.meter past m i x value := by
  have hLeft : m.session.openStreams.get? x.id ≠ some i := fun hOpen => by
    rw [(exec.life.servingExact.here i x found hOpen).1] at hResult
    cases hResult
  refine ⟨?_, Lifetimes.isCancelled_of_isFlagged (exec.goneFlagged i x found hLeft), hLeft⟩
  obtain ⟨before, q, after, rfl, hOnce⟩ := exec.life.returned_once found hResult
  obtain ⟨hBefore, q', hStep, _⟩ := exec.split
  obtain ⟨w, _, hw, _⟩ := step?_finishServed hStep
  have hGrows := exec.life.grows_since (List.mem_append_right _ List.mem_cons_self)
  have hKeeps := hGrows.servedStreams.rel hw found
  refine ⟨before, q, after, rfl, hOnce, ?_, ?_⟩
  · rw [exec.meter, History.tally, List.foldl_append]
    rfl
  · have hRetires := (hBefore.rooted (rooted_new _ _ _ _)).retiresFirst hStep hw
    rwa [RetiresFirst, ← hKeeps.lifetime, ← hKeeps.id] at hRetires

/-- The end of a handler is signalled once. While the handler runs, its stream has handed out no error, at
most one close, and nothing on account of a return. When it has returned, it has done so once, which was
counted once, and the lifetime of its stream was cancelled and the stream gone from the table before
anything was handed out for that. If all went well, exactly one close has been handed out, by whomever;
otherwise the error was, last of all and once. The handle of the stream must not outlive the handler, and
none of the handler's closes must have been given up. -/
theorem completion_signalled_once
    (exec : Execution (Machine.new host registry callTimeout capacity) past m)
    (found : m.session.servedStreams[i]? = some x) (hScoped : past.Scoped i)
    (hKept : m.session.KeepsCloses i) :
    (x.result = none → (∀ content ∈ m.session.handed i, content.isError = false) ∧
      (m.session.handed i).countP Content.isClose ≤ 1 ∧
      ∀ z ∈ m.session.sends, z.sender ≠ .completion i) ∧
    (x.result = some (.ok ()) → Completed host.meter past m i x (.ok ()) ∧
      (m.session.handed i).countP Content.isClose = 1 ∧
      ∀ content ∈ m.session.handed i, content.isError = false) ∧
    ∀ failure, x.result = some (.error failure) →
      Completed host.meter past m i x (.error failure) ∧
      ∃ front, m.session.handed i = front ++ [.error failure.toRemote] ∧
        ∀ content ∈ front, content.isError = false := by
  have hSignals := exec.life.signals hScoped found
  obtain ⟨hErrors, hReturned⟩ := exec.life.completion_said (i := i)
  have hSaid : ∀ z ∈ m.session.sends, (z.sender, z.envelope) ∈ m.session.said := fun z hz =>
    List.mem_map_of_mem hz
  have hCloses := exec.life.handed_closes hScoped hKept found
  have hQuiet : (∀ failure, x.result ≠ some (.error failure)) →
      ∀ content ∈ m.session.handed i, content.isError = false := fun hNot content hContent =>
    hSignals.quiet hNot content ((handed_sublist _ _).subset hContent)
  refine ⟨fun hRunning => ⟨hQuiet (by simp [hRunning]), ?_, fun z hz hSender => ?_⟩,
    fun hOk => ⟨exec.completed found hOk, ?_, hQuiet (by simp [hOk])⟩,
    fun failure hFailed => ⟨exec.completed found hFailed, ?_⟩⟩
  · rw [hCloses]
    split <;> omega
  · obtain ⟨y, value, hy, hResult, _⟩ := hReturned z.envelope (hSender ▸ hSaid z hz)
    cases hy.symm.trans found
    rw [hRunning] at hResult
    cases hResult
  · rw [hCloses, hSignals.closed hOk]
    rfl
  · obtain ⟨front, hSpoken, hFront⟩ := hSignals.failed failure hFailed
    obtain ⟨kept, hHanded, hSub⟩ := handed_of_spoken hSpoken fun z hz hSpeech => by
      obtain ⟨hStream, hContent⟩ := speech?_eq_some.mp hSpeech
      exact exec.life.completion_kept hz (hErrors _ _ _ (hSaid z hz) hStream hContent)
    exact ⟨kept, hHanded, fun content hContent => hFront content (hSub.subset hContent)⟩

end

/-- Two streams are served one after the other with one id. The handler of the first sends, closes its
stream and returns when the second is already there; that of the second closes its stream as well, and
then fails. -/
theorem completion_signalled_once_of_reused_id : ∃ (past : History Unit Unit) (m : Machine Unit Unit)
    (x y : ServedStream Unit),
    Execution (Machine.new (Host.new true) ⟨[], [⟨"A.c", (), true, true⟩]⟩ none 1) past m ∧
      m.session.servedStreams = [x, y] ∧ x.id = y.id ∧
      Completed (Meter.new true) past m 0 x (.ok ()) ∧
      (m.session.handed 0).countP Content.isClose = 1 ∧
      Completed (Meter.new true) past m 1 y (.error (.ofRoot (.error ⟨"E", "e"⟩))) ∧
      (∃ front, m.session.handed 1 = front ++ [.error ⟨"E", "e"⟩] ∧
        ∀ content ∈ front, content.isError = false) ∧
      m.meter = ⟨true, 1, 1, 0⟩ := by
  let message : Envelope :=
    .request { id := 7, method := "A.c", payload := .ofValue [], isStream := true }
  let actions : List Action :=
    [.receive message, .sendServed 0 (.ofValue [1]), .closeServed 0, .receive (.streamClose 7),
      .receive message, .finishServed 0 (.ok ()), .closeServed 1, .receive .bye,
      .finishServed 1 (.error (.ofRoot (.error ⟨"E", "e"⟩))), .advance 0]
  have hPlay : ((Machine.new (Host.new true) (⟨[], [⟨"A.c", (), true, true⟩]⟩ : Registry Unit Unit)
      none 1).play actions).map (fun r => (r.2.session.servedStreams.map fun x => (x.id, x.result),
        decide (History.Scoped r.1 0 ∧ History.Scoped r.1 1 ∧ r.2.session.KeepsCloses 0 ∧
          r.2.session.KeepsCloses 1), r.2.meter)) =
      some ([(7, some (.ok ())), (7, some (.error (.ofRoot (.error ⟨"E", "e"⟩))))], true,
        ⟨true, 1, 1, 0⟩) := by decide +kernel
  obtain ⟨⟨past, m⟩, hRun, hFacts⟩ := Option.map_eq_some_iff.mp hPlay
  simp only [Prod.mk.injEq, decide_eq_true_eq] at hFacts
  obtain ⟨hStreams, ⟨hFirst, hSecond, hKept, hKept'⟩, hMeter⟩ := hFacts
  have exec := Execution.refl.play hRun
  rw [List.nil_append] at exec
  obtain ⟨x, rest, hServed, hx, hRest⟩ := List.map_eq_cons_iff.mp hStreams
  obtain ⟨y, rfl, hy⟩ := List.map_eq_singleton_iff.mp hRest
  obtain ⟨hId, hOk⟩ := Prod.mk.inj hx
  obtain ⟨hId', hFailed⟩ := Prod.mk.inj hy
  have hFirstFound : m.session.servedStreams[0]? = some x := by rw [hServed]; rfl
  have hSecondFound : m.session.servedStreams[1]? = some y := by rw [hServed]; rfl
  obtain ⟨_, hSucceeds, _⟩ := completion_signalled_once exec hFirstFound hFirst hKept
  obtain ⟨_, _, hFails⟩ := completion_signalled_once exec hSecondFound hSecond hKept'
  obtain ⟨hCompleted, hOne, _⟩ := hSucceeds hOk
  obtain ⟨hCompleted', hLast⟩ := hFails _ hFailed
  exact ⟨past, m, x, y, exec, hServed, hId.trans hId'.symm, hCompleted, hOne, hCompleted', hLast,
    hMeter⟩

end Machine

end PeerLink

import PeerLink.Proofs.Session.Completion
import PeerLink.Proofs.Session.Wording

/-! How a stream that is served ends. Whatever its handler does, the stream says at most one close and at
most one error. A handler that says nothing more once it has closed the stream or has returned leaves these
responses at the end of all (`last_response_final`). There is one of them, unless a handler closes its stream
and fails afterwards: its failure is reported behind the close. -/
namespace PeerLink

variable {M S : Type}

/-- The close and the error of a stream, by its mark and its result. -/
def ServedStream.ending (x : ServedStream S) : List Content :=
  (if x.closeSent then [.close true] else []) ++
    match x.result with
    | some (.error failure) => [.error failure.toRemote]
    | _ => []

theorem ServedStream.ending_eq_nil {x : ServedStream S} (running : x.result = none)
    (unclosed : x.closeSent = false) : x.ending = [] := by
  simp [ending, running, unclosed]

theorem ServedStream.ending_isLast (x : ServedStream S) : ∀ content ∈ x.ending, content.isLast = true := by
  intro content h
  rcases List.mem_append.mp h with h | h
  · split at h
    · rw [List.mem_singleton.mp h]
      rfl
    · cases h
  · split at h
    · rw [List.mem_singleton.mp h]
      rfl
    · cases h

namespace Machine

variable {m m' : Machine M S} {a : Action} {past : History M S} {s : Session M S}
  {i : ServedStreamId} {x y : ServedStream S}

/-- The handler of the stream closed it. -/
def History.Closes (past : History M S) (i : ServedStreamId) : Prop :=
  ∃ q, (q, .closeServed i) ∈ past

/-- The handler says nothing more on its stream once it has closed the stream or has returned. -/
def History.KeepsSilent (past : History M S) (i : ServedStreamId) : Prop :=
  ∀ e ∈ past, e.2.speaks i = true → ∀ x ∈ e.1.session.servedStreams[i]?,
    x.result = none ∧ x.closeSent = false

instance (past : History M S) (i : ServedStreamId) : Decidable (past.KeepsSilent i) :=
  inferInstanceAs (Decidable (∀ e ∈ past, _ → _))

/-- The handler closes the stream or returns. -/
def Action.concludes (i : ServedStreamId) : Action → Bool
  | .closeServed j => j = i
  | .finishServed j _ => j = i
  | _ => false

/-- When the handler closes the stream or returns, none of its sends on the stream is under way. -/
def History.EndsIdle (past : History M S) (i : ServedStreamId) : Prop :=
  ∀ e ∈ past, e.2.concludes i = true → e.1.isIdle i = true

instance (past : History M S) (i : ServedStreamId) : Decidable (past.EndsIdle i) :=
  inferInstanceAs (Decidable (∀ e ∈ past, _ → _))

/-- How a stream ends, by what its handler has done so far. -/
inductive Ending (past : History M S) (i : ServedStreamId) (x : ServedStream S) : List Content → Prop where
  | going (unclosed : ¬ past.Closes i) (running : x.result = none) : Ending past i x []
  | closed (closed : past.Closes i) (unfailed : ∀ failure, x.result ≠ some (.error failure)) :
      Ending past i x [.close true]
  | returned (unclosed : ¬ past.Closes i) (result : x.result = some (.ok ())) :
      Ending past i x [.close true]
  | failed (failure : Failure) (unclosed : ¬ past.Closes i) (result : x.result = some (.error failure)) :
      Ending past i x [.error failure.toRemote]
  /-- The failure of a handler is reported even if it has closed the stream before. -/
  | failedClosed (failure : Failure) (closed : past.Closes i)
      (result : x.result = some (.error failure)) :
      Ending past i x [.close true, .error failure.toRemote]

/-! ### One action -/

/-- What ends a stream is said at the moment when it becomes part of the ending, and nothing else is. -/
theorem SignalStep.ending (h : m.SignalStep m' a i x y) : ∃ later,
    m'.session.spoken i = m.session.spoken i ++ later ∧
      (later.filter Content.isLast ++ x.ending).Perm y.ending := by
  cases h with
  | kept later result closeSent spoken plain _ =>
      refine ⟨later, spoken, ?_⟩
      have hNone : later.filter Content.isLast = [] :=
        List.filter_eq_nil_iff.mpr fun content hContent => Bool.eq_false_iff.mp (plain content hContent)
      rw [hNone, ServedStream.ending, ServedStream.ending, result, closeSent]
      exact List.Perm.refl _
  | closed _ result unclosed closeSent spoken =>
      refine ⟨_, spoken, ?_⟩
      rw [ServedStream.ending, ServedStream.ending, result, unclosed, closeSent]
      exact List.Perm.refl _
  | returned value _ running result closeSent spoken =>
      refine ⟨_, spoken, ?_⟩
      rw [ServedStream.ending, ServedStream.ending, running, result, closeSent]
      cases value with
      | ok _ => cases x.closeSent <;> exact List.Perm.refl _
      | error failure =>
          cases x.closeSent with
          | false => exact List.Perm.refl _
          | true => exact List.Perm.swap _ _ _

/-- A handler that keeps silent adds to what it said only before the end. -/
theorem SignalStep.ends (h : m.SignalStep m' a i x y)
    (hSilent : a.speaks i = true → x.result = none ∧ x.closeSent = false) {front : List Content}
    (hSpoken : m.session.spoken i = front ++ x.ending)
    (hFront : ∀ content ∈ front, content.isLast = false) : ∃ front,
      m'.session.spoken i = front ++ y.ending ∧ ∀ content ∈ front, content.isLast = false := by
  cases h with
  | kept later result closeSent spoken plain silent =>
      have hSame : y.ending = x.ending := by
        rw [ServedStream.ending, ServedStream.ending, result, closeSent]
      cases hSpeaks : a.speaks i with
      | false =>
          refine ⟨front, ?_, hFront⟩
          rw [spoken, silent hSpeaks, List.append_nil, hSpoken, hSame]
      | true =>
          obtain ⟨hRunning, hUnclosed⟩ := hSilent hSpeaks
          have hNothing := ServedStream.ending_eq_nil hRunning hUnclosed
          refine ⟨front ++ later, ?_, List.forall_mem_append.mpr ⟨hFront, plain⟩⟩
          rw [spoken, hSpoken, hSame, hNothing, List.append_nil, List.append_nil]
  | closed cause result unclosed closeSent spoken =>
      have hRunning : x.result = none := (hSilent (by simp [cause, Action.speaks])).1
      refine ⟨front, ?_, hFront⟩
      rw [spoken, hSpoken, ServedStream.ending_eq_nil hRunning unclosed, ServedStream.ending, result,
        hRunning, closeSent]
      simp
  | returned value _ running result closeSent spoken =>
      refine ⟨front, ?_, hFront⟩
      rw [spoken, hSpoken, ServedStream.ending, ServedStream.ending, running, result, closeSent,
        List.append_assoc]
      cases value with
      | ok _ => cases x.closeSent <;> simp [Except.isOk, Except.toBool, completion]
      | error failure => simp [Except.isOk, Except.toBool, completion]

/-- The mark of a stream is set when its handler closes it or returns without an error. -/
theorem step?_mark (found : m.session.servedStreams[i]? = some x) (h : m.step? a = some m')
    (found' : m'.session.servedStreams[i]? = some y) :
    y.closeSent = true ↔ x.closeSent = true ∨ a = .closeServed i ∨ a = .finishServed i (.ok ()) := by
  by_cases hFinish : ∃ value, a = .finishServed i value
  · obtain ⟨value, rfl⟩ := hFinish
    cases finishServed_signal found h found' with
    | kept _ result _ _ _ _ =>
        obtain ⟨z, w, hz, hRunning, _, hw, hResult⟩ := step?_finishServed h
        cases hz.symm.trans found
        cases hw.symm.trans found'
        rw [result, hRunning] at hResult
        cases hResult
    | closed cause => cases cause
    | returned _ cause _ _ closeSent _ =>
        cases cause
        cases value <;> simp [closeSent, Except.isOk, Except.toBool]
  · have hNot : ∀ value, a ≠ .finishServed i value := fun value he => hFinish ⟨value, he⟩
    by_cases hClose : a = .closeServed i
    · subst hClose
      have hSpoken := spoken_speaker (closeByHandler?_said found h)
        (rfl : Sender.stream? (.served i) = some i)
      cases closeServed_signal found h found' with
      | kept later _ _ spoken plain _ =>
          obtain rfl := List.append_cancel_left (spoken.symm.trans hSpoken)
          exact absurd (plain _ (List.mem_singleton.mpr rfl)) (by simp [Content.isLast])
      | closed _ _ _ closeSent _ => simp [closeSent]
      | returned _ cause => cases cause
    · rw [(step?_marks h found found' hNot).2 hClose]
      simp [hClose, hNot]

/-! ### Runs -/

theorem History.Closes.concat {e : Machine M S × Action} :
    History.Closes (past ++ [e]) i ↔ past.Closes i ∨ e.2 = .closeServed i := by
  simp only [History.Closes, List.mem_append, List.mem_singleton, exists_or]
  refine or_congr_right ⟨?_, fun h => ⟨e.1, by rw [← h]⟩⟩
  rintro ⟨q, rfl⟩
  rfl

theorem History.KeepsSilent.before {e : Machine M S × Action} (h : History.KeepsSilent (past ++ [e]) i) :
    past.KeepsSilent i :=
  fun e' hMem => h e' (List.mem_append_left _ hMem)

/-- A stream that was closed by its handler exists. -/
theorem Life.closes_found {start : Session M S} (life : Life start past s) (hCloses : past.Closes i) :
    ∃ x, s.servedStreams[i]? = some x := by
  obtain ⟨q, hMem⟩ := hCloses
  obtain ⟨q', hStep⟩ := life.happened hMem
  obtain ⟨x, found, _⟩ := closeByHandler?_eq_some hStep
  obtain ⟨y, hy, _⟩ := (life.grows_since hMem).servedStreams i x found
  exact ⟨y, hy⟩

/-- What has been said on a stream, against its ending. -/
structure Final (past : History M S) (i : ServedStreamId) (x : ServedStream S) (contents : List Content) :
    Prop where
  terminal : (contents.filter Content.isLast).Perm x.ending
  closeSent : x.closeSent = true ↔ past.Closes i ∨ x.result = some (.ok ())
  ends : past.KeepsSilent i → ∃ front, contents = front ++ x.ending ∧
    ∀ content ∈ front, content.isLast = false

theorem Final.step (hFinal : Final past i x (m.session.spoken i))
    (found : m.session.servedStreams[i]? = some x) (h : m.step? a = some m')
    (found' : m'.session.servedStreams[i]? = some y) :
    Final (past ++ [(m, a)]) i y (m'.session.spoken i) := by
  have hSignal := step?_signal found h found'
  refine ⟨?_, ?_, fun hSilent => ?_⟩
  · obtain ⟨later, hSpoken, hEnding⟩ := hSignal.ending
    rw [hSpoken, List.filter_append]
    exact ((hFinal.terminal.append_right _).trans List.perm_append_comm).trans hEnding
  · rw [step?_mark found h found', hFinal.closeSent, History.Closes.concat]
    by_cases hFinish : ∃ value, a = .finishServed i value
    · obtain ⟨value, rfl⟩ := hFinish
      obtain ⟨z, w, hz, hRunning, _, hw, hResult⟩ := step?_finishServed h
      cases hz.symm.trans found
      cases hw.symm.trans found'
      cases value <;> simp [hRunning, hResult]
    · have hNot : ∀ value, a ≠ .finishServed i value := fun value he => hFinish ⟨value, he⟩
      rw [(step?_marks h found found' hNot).1]
      simp only [hNot, or_false]
      exact or_right_comm
  · obtain ⟨front, hSpoken, hFront⟩ := hFinal.ends hSilent.before
    refine hSignal.ends (fun hSpeaks => ?_) hSpoken hFront
    exact hSilent _ (List.mem_append_right _ (List.mem_singleton.mpr rfl)) hSpeaks x found

section

variable {registry : Registry M S} {callTimeout : Option Duration} {capacity : Nat}
  {lifetime : LifetimeId}

theorem Life.final (life : Life (Session.new registry callTimeout capacity lifetime) past s)
    (found : s.servedStreams[i]? = some x) : Final past i x (s.spoken i) := by
  induction life generalizing x with
  | refl => simp [Session.new] at found
  | @step past s host a m' prior last ih =>
      cases hOld : s.servedStreams[i]? with
      | some w => exact (ih hOld).step (m := ⟨host, s⟩) hOld last found
      | none =>
          cases step?_record last found with
          | opened r cause _ _ _ _ _ unclosed running =>
              subst cause
              have hNothing : m'.session.spoken i = [] := by
                rw [Session.spoken, step?_receive_said last]
                exact (prior.unspoken rfl hOld).1
              have hUnclosed : ¬ past.Closes i := fun hCloses => by
                obtain ⟨w, hw⟩ := prior.closes_found hCloses
                cases hw.symm.trans hOld
              have hEnding := ServedStream.ending_eq_nil running unclosed
              rw [hNothing]
              refine ⟨by rw [hEnding]; exact List.Perm.refl _, ?_, fun _ => ⟨[], by rw [hEnding]; rfl, ?_⟩⟩
              · rw [History.Closes.concat, unclosed, running]
                simp [hUnclosed]
              · exact fun content hContent => absurd hContent List.not_mem_nil
          | kept _ hx | arrived _ _ hx | received _ _ hx | closed _ hx | returned _ _ hx =>
              rw [hOld] at hx
              cases hx

/-- The ending of a stream, told by what its handler did. -/
theorem Final.ending {contents : List Content} (hFinal : Final past i x contents) :
    Ending past i x x.ending := by
  have hMark := hFinal.closeSent
  by_cases hCloses : past.Closes i
  · have hClosed : x.closeSent = true := hMark.mpr (.inl hCloses)
    cases hResult : x.result with
    | none =>
        rw [ServedStream.ending, hClosed, hResult]
        exact .closed hCloses (by simp [hResult])
    | some value =>
        rw [ServedStream.ending, hClosed, hResult]
        cases value with
        | ok _ => exact .closed hCloses (by simp [hResult])
        | error failure => exact .failedClosed failure hCloses hResult
  · cases hResult : x.result with
    | none =>
        have hUnclosed : x.closeSent = false := by
          simpa [hCloses, hResult] using hMark
        rw [ServedStream.ending_eq_nil hResult hUnclosed]
        exact .going hCloses hResult
    | some value =>
        cases value with
        | ok _ =>
            rw [ServedStream.ending, hMark.mpr (.inr hResult), hResult]
            exact .returned hCloses hResult
        | error failure =>
            have hUnclosed : x.closeSent = false := by
              simpa [hCloses, hResult] using hMark
            rw [ServedStream.ending, hUnclosed, hResult]
            exact .failed failure hCloses hResult

/-! ### What got into the queue -/

/-- What is said at the end of a stream is said by an action that concludes it. -/
theorem Says.concludes {x : Sender} {e : Envelope} {content : Content} (cause : m.Says a x e)
    (hSpeaker : x.stream? = some i) (hContent : e.content? = some content) (hLast : content.isLast = true) :
    a.concludes i = true := by
  cases cause with
  | closeServed | finishServed => cases hSpeaker; simp [Action.concludes]
  | sendServed | readyServed =>
      cases hContent
      cases hLast
  | call | sendClient | closeClient | bye | refusal | run => cases hSpeaker

/-- Within its scope, the handler of a stream runs when the stream is concluded. -/
theorem running_of_concludes (hSilent : past.KeepsSilent i) (hMem : (m, a) ∈ past)
    (hStep : m.step? a = some m') (hConcludes : a.concludes i = true) {y : ServedStream S}
    (found : m.session.servedStreams[i]? = some y) : y.result = none := by
  cases a with
  | closeServed j =>
      obtain rfl : j = i := of_decide_eq_true hConcludes
      exact (hSilent _ hMem (by simp [Action.speaks]) y found).1
  | finishServed j other =>
      obtain rfl : j = i := of_decide_eq_true hConcludes
      obtain ⟨v, _, hv, hRunning, _⟩ := step?_finishServed hStep
      cases hv.symm.trans found
      exact hRunning
  | _ => cases hConcludes

/-- What the stream says at its end does not begin while another send on it is under way. -/
theorem Life.last_alone (life : Life (Session.new registry callTimeout capacity lifetime) past s)
    (hSilent : past.KeepsSilent i) (hIdle : past.EndsIdle i) {t u : Ticket}
    (hOverlap : past.Overlap t u) {w w' : Sender} {e e' : Envelope} {content : Content}
    (ht : s.said[t]? = some (w, e)) (hw : w.stream? = some i) (hu : s.said[u]? = some (w', e'))
    (hw' : w'.stream? = some i) (hContent : e'.content? = some content) : content.isLast = false := by
  obtain ⟨before, q, a, x, f, z, prior, hMem, ⟨q', hStep⟩, cause, hu', hUnderWay, hz, ht', -⟩ :=
    life.overlap hOverlap
  cases hu.symm.trans hu'
  cases ht.symm.trans ht'
  by_contra hLast
  have hConcludes := cause.concludes hw' hContent (Bool.not_eq_false _ ▸ hLast)
  -- The other send is none of the handler, so the handler has returned.
  have hCompletion : w = .completion i := by
    cases w with
    | served j =>
        cases hw
        exact absurd hz (not_served_of_isIdle (hIdle _ hMem hConcludes) hUnderWay)
    | completion j => cases hw; rfl
    | _ => cases hw
  subst hCompletion
  obtain ⟨y, value, found, hResult, _⟩ := prior.completion_said.2 e (List.mem_of_getElem? hz)
  have hRunning := running_of_concludes hSilent hMem hStep hConcludes found
  rw [hResult] at hRunning
  cases hRunning

/-- A list in which nothing else follows what `p` holds of ends with that. -/
theorem filter_append_filter {α : Type} {p : α → Bool} {l : List α}
    (h : l.Pairwise fun a b => p a = true → p b = true) :
    l = l.filter (fun a => !p a) ++ l.filter p := by
  induction l with
  | nil => rfl
  | cons a rest ih =>
      obtain ⟨hFirst, hRest⟩ := List.pairwise_cons.mp h
      cases ha : p a with
      | false => simpa [ha] using ih hRest
      | true =>
          have hAll : ∀ b ∈ rest, p b = true := fun b hb => hFirst b hb ha
          have hNone : rest.filter (fun a => !p a) = [] :=
            List.filter_eq_nil_iff.mpr fun b hb => by simp [hAll b hb]
          simp [ha, hNone, List.filter_eq_self.mpr hAll]

/-- A stream whose handler keeps silent has said nothing but its ending behind what ends it. -/
theorem Final.said_isLast {s : Session M S} (hFinal : Final past i x (s.spoken i))
    (hSilent : past.KeepsSilent i) {t u : Ticket} (hLt : t < u) {y z : Sender × Envelope}
    {content later : Content} (ht : s.said[t]? = some y) (hContent : speechOn? i y = some content)
    (hLast : content.isLast = true) (hu : s.said[u]? = some z) (hLater : speechOn? i z = some later) :
    later.isLast = true := by
  obtain ⟨front, hSpoken, hFront⟩ := hFinal.ends hSilent
  have hOrder : (s.spoken i).Pairwise fun a b => a.isLast = true → b.isLast = true := by
    rw [hSpoken, List.pairwise_append]
    refine ⟨?_, ?_, fun a _ b hb _ => x.ending_isLast b hb⟩
    · exact List.Pairwise.imp_of_mem (fun ha _ _ hLast => by rw [hFront _ ha] at hLast; cases hLast)
        (List.pairwise_of_forall (R := fun _ _ => True) fun _ _ => trivial)
    · exact List.Pairwise.imp_of_mem (fun _ hb _ _ => x.ending_isLast _ hb)
        (List.pairwise_of_forall (R := fun _ _ => True) fun _ _ => trivial)
  rw [Session.spoken, List.pairwise_filterMap, List.pairwise_iff_getElem] at hOrder
  obtain ⟨hTLength, hT⟩ := List.getElem?_eq_some_iff.mp ht
  obtain ⟨hULength, hU⟩ := List.getElem?_eq_some_iff.mp hu
  exact hOrder t u hTLength hULength hLt content (by rw [hT, hContent]) later (by rw [hU, hLater]) hLast

/-- If its handler keeps silent, and waits for its sends before it ends the stream, then nothing gets in
behind the ending. -/
theorem Life.queuedOn_ends (life : Life (Session.new registry callTimeout capacity lifetime) past s)
    (found : s.servedStreams[i]? = some x) (hSilent : past.KeepsSilent i) (hIdle : past.EndsIdle i) :
    ∃ front ending, past.queuedOn s i = front ++ ending ∧ (∀ content ∈ front, content.isLast = false) ∧
      ending.Sublist x.ending := by
  have hFinal := life.final found
  have hOrder : (past.queuedOn s i).Pairwise fun a b => a.isLast = true → b.isLast = true := by
    rw [History.queuedOn, past.accepted_filterMap, List.pairwise_filterMap]
    refine life.entered_order.imp fun {t u} hBefore content hContent later hLater hLast => ?_
    obtain ⟨y, hy, hContent⟩ := Option.bind_eq_some_iff.mp hContent
    obtain ⟨z, hz, hLater⟩ := Option.bind_eq_some_iff.mp hLater
    obtain hLt | hOverlap := hBefore
    · exact hFinal.said_isLast hSilent hLt hy hContent hLast hz hLater
    · obtain ⟨hStream, hContent⟩ := speechOn?_eq_some.mp hContent
      obtain ⟨hStream', hLater⟩ := speechOn?_eq_some.mp hLater
      rw [life.last_alone hSilent hIdle hOverlap hz hStream' hy hStream hContent] at hLast
      cases hLast
  have hSerial : past.Serial s fun y => ((speechOn? i y).filter Content.isLast).isSome := by
    intro e he u hu t ht hPick
    by_contra hPicked
    rw [Bool.not_eq_false] at hPicked
    obtain ⟨y, hy, hPick⟩ := (Option.any_eq_true _ _).mp hPick
    obtain ⟨z, hz, hPicked⟩ := (Option.any_eq_true _ _).mp hPicked
    obtain ⟨content, hContent⟩ := Option.isSome_iff_exists.mp hPick
    obtain ⟨later, hLater⟩ := Option.isSome_iff_exists.mp hPicked
    obtain ⟨hContent, _⟩ := Option.filter_eq_some_iff.mp hContent
    obtain ⟨hLater, hLast⟩ := Option.filter_eq_some_iff.mp hLater
    obtain ⟨hStream, _⟩ := speechOn?_eq_some.mp hContent
    obtain ⟨hStream', hLater⟩ := speechOn?_eq_some.mp hLater
    rw [life.last_alone hSilent hIdle ⟨e, he, hu, ht⟩ hy hStream hz hStream' hLater] at hLast
    cases hLast
  refine ⟨_, _, filter_append_filter hOrder, fun content hContent => ?_, ?_⟩
  · simpa using (List.mem_filter.mp hContent).2
  · obtain ⟨front, hSpoken, hFront⟩ := hFinal.ends hSilent
    have hEnding : (s.spoken i).filter Content.isLast = x.ending := by
      rw [hSpoken, List.filter_append, List.filter_eq_self.mpr x.ending_isLast,
        List.filter_eq_nil_iff.mpr fun content hContent => by simp [hFront content hContent], List.nil_append]
    rw [← hEnding, History.queuedOn, Session.spoken, List.filter_filterMap, List.filter_filterMap]
    exact life.accepted_sublist hSerial fun y hy =>
      Option.isNone_iff_eq_none.mp (Option.isSome_eq_false_iff.mp hy)

/-- The last response of a stream is final. Whatever the handler does, what its stream says has at most one
close and one error, and which of them is told by what the handler did: it closed the stream, it returned, or
it failed. If the handler keeps silent once it has closed the stream or has returned, these responses are
the last that the stream says, the error of a handler that fails after its own close behind that. What is in
the queue on behalf of the stream is part of what it said. If the handler also waits for its sends before it
closes the stream and before it returns, then these responses are the last ones there, too. -/
theorem last_response_final {host : Host}
    (exec : Execution (Machine.new host registry callTimeout capacity) past m)
    (found : m.session.servedStreams[i]? = some x) : ∃ ending, Ending past i x ending ∧
      ((m.session.spoken i).filter Content.isLast).Perm ending ∧
      (past.KeepsSilent i → ∃ front, m.session.spoken i = front ++ ending ∧
        ∀ content ∈ front, content.isLast = false) ∧
      (past.queuedOn m.session i).Subperm (m.session.spoken i) ∧
      (past.KeepsSilent i → past.EndsIdle i → ∃ front tail, past.queuedOn m.session i = front ++ tail ∧
        (∀ content ∈ front, content.isLast = false) ∧ tail.Sublist ending) := by
  have hFinal := exec.life.final found
  exact ⟨x.ending, hFinal.ending, hFinal.terminal, hFinal.ends, exec.life.queueing.queuedOn_subperm i,
    exec.life.queuedOn_ends found⟩

end

theorem History.closes_iff : past.Closes i ↔ .closeServed i ∈ past.map Prod.snd := by
  simp [History.Closes]

/-- One handler sends a message and fails. Another one closes its stream and fails afterwards. -/
theorem last_response_final_of_failures : ∃ (past : History Unit Unit) (m : Machine Unit Unit)
    (x y : ServedStream Unit),
    Execution (Machine.new (Host.new false) ⟨[], [⟨"A.c", (), true, true⟩]⟩ none 4) past m ∧
      m.session.servedStreams = [x, y] ∧
      (∃ front, m.session.spoken 0 = front ++ [.error ⟨"E", "e"⟩] ∧
        ∀ content ∈ front, content.isLast = false) ∧
      ∃ front, m.session.spoken 1 = front ++ [.close true, .error ⟨"E", "e"⟩] ∧
        ∀ content ∈ front, content.isLast = false := by
  let message (id : Int32) : Envelope :=
    .request { id, method := "A.c", payload := .ofValue [], isStream := true }
  let failure : Failure := .ofRoot (.error ⟨"E", "e"⟩)
  let actions : List Action :=
    [.receive (message 1), .receive (message 2), .sendServed 0 (.ofValue [1]), .closeServed 1,
      .finishServed 0 (.error failure), .finishServed 1 (.error failure), .advance 0, .advance 1]
  have hPlay : ((Machine.new (Host.new false) (⟨[], [⟨"A.c", (), true, true⟩]⟩ : Registry Unit Unit)
      none 4).play actions).map (fun r => (r.2.session.servedStreams.map ServedStream.result,
        decide (History.KeepsSilent r.1 0 ∧ History.KeepsSilent r.1 1))) =
      some ([some (.error failure), some (.error failure)], true) := by decide +kernel
  obtain ⟨⟨past, m⟩, hRun, hFacts⟩ := Option.map_eq_some_iff.mp hPlay
  simp only [Prod.mk.injEq, decide_eq_true_eq] at hFacts
  obtain ⟨hStreams, hFirst, hSecond⟩ := hFacts
  have exec := Execution.refl.play hRun
  rw [List.nil_append] at exec
  obtain ⟨x, rest, hServed, hx, hRest⟩ := List.map_eq_cons_iff.mp hStreams
  obtain ⟨y, rfl, hy⟩ := List.map_eq_singleton_iff.mp hRest
  have hOpen : ¬ History.Closes past 0 := by
    rw [History.closes_iff, play_actions hRun]
    simp [actions]
  have hClosed : History.Closes past 1 := by
    rw [History.closes_iff, play_actions hRun]
    simp [actions]
  obtain ⟨ending, hEnding, _, hSilent, _⟩ := last_response_final (i := 0) exec (by rw [hServed]; rfl)
  obtain ⟨ending', hEnding', _, hSilent', _⟩ := last_response_final (i := 1) exec (by rw [hServed]; rfl)
  refine ⟨past, m, x, y, exec, hServed, ?_, ?_⟩
  · cases hEnding with
    | failed cause _ result =>
        cases hx.symm.trans result
        exact hSilent hFirst
    | going _ result | returned _ result => cases hx.symm.trans result
    | closed closed | failedClosed _ closed => exact absurd closed hOpen
  · cases hEnding' with
    | failedClosed cause _ result =>
        cases hy.symm.trans result
        exact hSilent' hSecond
    | closed _ unfailed => exact absurd hy (unfailed failure)
    | going unclosed | returned unclosed | failed _ unclosed => exact absurd hClosed unclosed

/-- A handler closes its stream, sends a message and fails. Another one fails, and its handle is used once
more afterwards. -/
theorem response_behind_last : ∃ (past : History Unit Unit) (m : Machine Unit Unit),
    Execution (Machine.new (Host.new false) ⟨[], [⟨"A.c", (), true, true⟩]⟩ none 8) past m ∧
      past.queuedOn m.session 0 = [.close true, .payload (.ofValue [1]), .error ⟨"E", "e"⟩] ∧
      past.queuedOn m.session 1 = [.error ⟨"E", "e"⟩, .payload (.ofValue [2])] ∧
      ¬ ∀ i < m.session.servedStreams.length, ∃ front ending, past.queuedOn m.session i = front ++ ending ∧
        (∀ content ∈ front, content.isLast = false) ∧ ending.length ≤ 1 := by
  let message (id : Int32) : Envelope :=
    .request { id, method := "A.c", payload := .ofValue [], isStream := true }
  let failure : Failure := .ofRoot (.error ⟨"E", "e"⟩)
  have hPlay : ((Machine.new (Host.new false) (⟨[], [⟨"A.c", (), true, true⟩]⟩ : Registry Unit Unit)
      none 8).play [.receive (message 1), .receive (message 2), .closeServed 0,
        .sendServed 0 (.ofValue [1]), .finishServed 0 (.error failure), .finishServed 1 (.error failure),
        .sendServed 1 (.ofValue [2]), .advance 0, .advance 1, .advance 2, .advance 3, .advance 4]).map
      (fun r => (History.queuedOn r.1 r.2.session 0, History.queuedOn r.1 r.2.session 1,
        r.2.session.servedStreams.length)) =
      some ([.close true, .payload (.ofValue [1]), .error ⟨"E", "e"⟩],
        [.error ⟨"E", "e"⟩, .payload (.ofValue [2])], 2) := by decide +kernel
  obtain ⟨⟨past, m⟩, hRun, hFacts⟩ := Option.map_eq_some_iff.mp hPlay
  simp only [Prod.mk.injEq] at hFacts
  obtain ⟨hFirst, hSecond, hCount⟩ := hFacts
  refine ⟨past, m, Execution.refl.play hRun, hFirst, hSecond, fun hFinal => ?_⟩
  obtain ⟨front, ending, hQueued, hFront, hLength⟩ := hFinal 0 (by omega)
  rw [hFirst] at hQueued
  match front, ending with
  | [], ending =>
      rw [List.nil_append] at hQueued
      subst hQueued
      exact absurd hLength (by decide)
  | content :: front, ending =>
      obtain ⟨rfl, _⟩ := List.cons.inj hQueued
      cases hFront _ List.mem_cons_self

end Machine

end PeerLink

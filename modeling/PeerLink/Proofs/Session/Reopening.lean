import PeerLink.Proofs.Session.Correspondence
import PeerLink.Proofs.Session.OpenStreams

/-! When one id is served more than once. A message with an id that has no entry starts a handler, also
if the id had an entry before. So a stream is served again if a message of it comes after its end: after a
bye, after the return of its handler, or after its close, if that was queued before a message whose send was
still waiting. -/
namespace PeerLink

variable {M S : Type}

/-- At most one stream has ever been served with this id. -/
def Session.ServedOnce (s : Session M S) (id : Int32) : Prop :=
  ∀ (i j : ServedStreamId) (x y : ServedStream S), s.servedStreams[i]? = some x →
    s.servedStreams[j]? = some y → x.id = id → y.id = id → i = j

theorem Session.Grows.servedOnce {s s' : Session M S} (h : s.Grows s') {id : Int32}
    (hOnce : s'.ServedOnce id) : s.ServedOnce id := by
  intro i j x y hx hy hxId hyId
  obtain ⟨x', hx', hKeepsX⟩ := h.servedStreams i x hx
  obtain ⟨y', hy', hKeepsY⟩ := h.servedStreams j y hy
  exact hOnce i j x' y' hx' hy' (hKeepsX.id.trans hxId) (hKeepsY.id.trans hyId)

namespace Machine

variable {m m' : Machine M S} {a : Action} {past : History M S} {start s : Session M S}

/-- The action ends the stream although its client may go on sending: a bye, or the return of its
handler. -/
def EndsEarly (m : Machine M S) (a : Action) (i : ServedStreamId) : Prop :=
  match a with
  | .receive .bye => i < m.session.servedStreams.length
  | .finishServed j _ => j = i
  | _ => False

/-- The action ends the stream as its client wants it: a close of the client. -/
def EndsClosed (m : Machine M S) (a : Action) (i : ServedStreamId) : Prop :=
  match a with
  | .receive (.streamClose id) => ∃ x, m.session.servedStreams[i]? = some x ∧ x.id = id
  | _ => False

/-- A message with this id has come after a stream with this id had been ended in this way. -/
def History.Followed (past : History M S) (ends : Machine M S → Action → ServedStreamId → Prop)
    (id : Int32) : Prop :=
  ∃ before m r after, past = before ++ (m, .receive (.request r)) :: after ∧ r.isStream = true ∧
    r.id = id ∧ ∃ (i : ServedStreamId) (x : ServedStream S), m.session.servedStreams[i]? = some x ∧
      x.id = id ∧ ∃ q a, (q, a) ∈ before ∧ ends q a i

/-- A message with this id has come after a bye or the return of a handler had ended a stream with it. -/
def History.Late (past : History M S) (id : Int32) : Prop :=
  past.Followed EndsEarly id

/-- A message with this id has come after the close of a stream with it. -/
def History.Trailed (past : History M S) (id : Int32) : Prop :=
  past.Followed EndsClosed id

theorem History.followed_append {ends : Machine M S → Action → ServedStreamId → Prop} {id : Int32} :
    History.Followed (past ++ [(m, a)]) ends id ↔ History.Followed past ends id ∨
      ∃ r, a = .receive (.request r) ∧ r.isStream = true ∧ r.id = id ∧
        ∃ (i : ServedStreamId) (x : ServedStream S), m.session.servedStreams[i]? = some x ∧
          x.id = id ∧ ∃ q b, (q, b) ∈ past ∧ ends q b i := by
  constructor
  · rintro ⟨before, q, r, after, hSplit, hStream, hId, hServed⟩
    obtain rfl | ⟨rest, y, rfl⟩ := List.eq_nil_or_concat after
    · obtain ⟨rfl, hLast⟩ := List.append_inj' hSplit rfl
      obtain ⟨rfl, rfl⟩ := Prod.mk.inj (List.singleton_inj.mp hLast)
      exact .inr ⟨r, rfl, hStream, hId, hServed⟩
    · rw [List.concat_eq_append, ← List.cons_append, ← List.append_assoc] at hSplit
      obtain ⟨rfl, _⟩ := List.append_inj' hSplit rfl
      exact .inl ⟨before, q, r, rest, rfl, hStream, hId, hServed⟩
  · rintro (⟨before, q, r, after, rfl, hStream, hId, hServed⟩ | ⟨r, rfl, hStream, hId, hServed⟩)
    · exact ⟨before, q, r, after ++ [(m, a)], by simp, hStream, hId, hServed⟩
    · exact ⟨past, m, r, [], rfl, hStream, hId, hServed⟩

theorem EndsEarly.ends {i : ServedStreamId} (h : m.EndsEarly a i) : m.Ends a i := by
  cases a with
  | receive e =>
      cases e with
      | bye => exact h
      | _ => exact h.elim
  | finishServed j result => exact h
  | _ => exact h.elim

theorem EndsClosed.ends {i : ServedStreamId} (h : m.EndsClosed a i) : m.Ends a i := by
  cases a with
  | receive e =>
      cases e with
      | streamClose id => exact h
      | _ => exact h.elim
  | _ => exact h.elim

/-! ### How streams end -/

/-- A session that has stopped takes no more envelopes. -/
theorem Life.stopped (life : Life start past s) {q : Machine M S} {exhausted : Bool}
    (h : (q, .stop exhausted) ∈ past) : s.consuming = false := by
  induction life with
  | refl => cases h
  | @step past s host a m' _ last ih =>
      by_cases hStop : ∃ exhausted, a = .stop exhausted
      · obtain ⟨_, rfl⟩ := hStop
        obtain ⟨_, _, rfl⟩ := stopConsuming?_eq_some last
        rfl
      · rw [step?_consuming last fun exhausted he => hStop ⟨exhausted, he⟩]
        rcases List.mem_append.mp h with h | h
        · exact ih h
        · obtain ⟨_, rfl⟩ := Prod.mk.inj (List.mem_singleton.mp h)
          exact absurd ⟨exhausted, rfl⟩ hStop

/-- While envelopes are taken, a stream has ended early or was closed by its client. -/
theorem Life.ended_cases (life : Life start past s) (hConsuming : s.consuming = true)
    {i : ServedStreamId} (h : History.Ended past i) :
    (∃ q a, (q, a) ∈ past ∧ EndsEarly q a i) ∨ ∃ q a, (q, a) ∈ past ∧ EndsClosed q a i := by
  obtain ⟨q, b, hMem, hEnds⟩ := h
  cases b with
  | stop exhausted =>
      rw [life.stopped hMem] at hConsuming
      cases hConsuming
  | finishServed j result => exact .inl ⟨q, _, hMem, hEnds⟩
  | receive e =>
      cases e with
      | bye => exact .inl ⟨q, _, hMem, hEnds⟩
      | streamClose id => exact .inr ⟨q, _, hMem, hEnds⟩
      | _ => exact hEnds.elim
  | _ => exact hEnds.elim

/-- A message that trails has come behind the close. -/
theorem Life.heard_trailed (life : Life start past s) {id : Int32} (h : History.Trailed past id) :
    ∃ r, r.isStream = true ∧ r.id = id ∧
      [.streamClose id, .request r].Sublist (History.heard past) := by
  obtain ⟨before, m, r, after, rfl, hStream, hId, i, x, hx, hxId, q, a, hMem, hEnds⟩ := h
  obtain ⟨prior, _⟩ := life.split
  cases a with
  | receive e =>
      cases e with
      | streamClose id' =>
          obtain ⟨y, hy, rfl⟩ := hEnds
          have hKeeps := (prior.grows_since hMem).servedStreams.rel hy hx
          have hClose : .streamClose id ∈ History.heard before := by
            rw [← hxId, hKeeps.id]
            exact List.mem_filterMap.mpr ⟨_, hMem, rfl⟩
          refine ⟨r, hStream, hId, ?_⟩
          have hHeard : History.heard (before ++ (m, .receive (.request r)) :: after) =
              History.heard before ++ .request r :: History.heard after := by
            unfold History.heard
            rw [List.filterMap_append, List.filterMap_cons]
          rw [hHeard]
          exact (List.singleton_sublist.mpr hClose).append
            (List.singleton_sublist.mpr List.mem_cons_self)
      | _ => exact hEnds.elim
  | _ => exact hEnds.elim

section

variable {registry : Registry M S} {callTimeout : Option Duration} {capacity : Nat}
  {lifetime : LifetimeId}

/-! ### One id, several streams -/

/-- A message for a stream that has ended starts another one, or there is another one already. -/
theorem not_servedOnce_of_ended {host : Host} {r : Request} {i : ServedStreamId} {x : ServedStream S}
    (hFits : TableFits s) (hStream : r.isStream = true)
    (hMethod : (s.registry.stream? r.method).isSome) (found : s.servedStreams[i]? = some x)
    (hId : x.id = r.id) (hGone : s.openStreams.get? r.id ≠ some i)
    (h : (Machine.mk host s).step? (.receive (.request r)) = some m') :
    ¬ m'.session.ServedOnce r.id := by
  intro hOnce
  have hOld := (step?_grows h).servedOnce hOnce
  obtain ⟨_, _, rfl⟩ := receive?_eq_some h
  simp only [handle, hStream, if_true] at hOnce
  obtain ⟨k, hk, _⟩ | ⟨_, hNone, _⟩ | ⟨method, _, _, he⟩ := handleStream_cases ⟨host, s⟩ r
  · obtain ⟨y, hy, hy'⟩ := hFits.id r.id k hk
    have hSame := hOld i k x y found hy hId hy'
    rw [hSame] at hGone
    exact hGone hk
  · rw [hNone] at hMethod
    cases hMethod
  · rw [he] at hOnce
    have hLt := (List.getElem?_eq_some_iff.mp found).1
    have hSame := hOnce i s.servedStreams.length x _
      ((List.getElem?_append_left hLt).trans found) List.getElem?_concat_length hId rfl
    exact Nat.ne_of_lt hLt hSame

/-- The messages with this id name the same method. -/
def SameMethod (heard : List Envelope) (id : Int32) : Prop :=
  ∀ r r', .request r ∈ heard → .request r' ∈ heard → r.isStream = true → r'.isStream = true →
    r.id = id → r'.id = id → r.method = r'.method

theorem Life.not_servedOnce
    (life : Life (Session.new registry callTimeout capacity lifetime) past s) {id : Int32}
    {ends : Machine M S → Action → ServedStreamId → Prop}
    (hEnds : ∀ {q : Machine M S} {a : Action} {i : ServedStreamId}, ends q a i → q.Ends a i)
    (hMethod : SameMethod (History.heard past) id) (h : History.Followed past ends id) :
    ¬ s.ServedOnce id := by
  induction life with
  | refl =>
      obtain ⟨before, q, r, after, hSplit, _⟩ := h
      simp at hSplit
  | @step past s host a m' prior last ih =>
      rcases History.followed_append.mp h with
        h | ⟨r, rfl, hStream, rfl, i, x, found, hId, q, b, hMem, hOver⟩
      · have hBefore : SameMethod (History.heard past) id := fun r r' hr hr' =>
          hMethod r r' (History.mem_heard_of_mem hr _) (History.mem_heard_of_mem hr' _)
        exact fun hOnce => ih hBefore h ((step?_grows last).servedOnce hOnce)
      · have hExact := prior.servingExact
        obtain ⟨r', hHeard, hStream', hId', hRegistered⟩ := prior.served rfl i x found
        have hSame := hMethod r r' (History.mem_heard_receive _) (History.mem_heard_of_mem hHeard _)
          hStream hStream' rfl (hId'.trans hId)
        rw [← hSame] at hRegistered
        refine not_servedOnce_of_ended hExact.fits hStream hRegistered found hId ?_ last
        rw [← hId]
        exact fun hHere => (hExact.ended i x found).mp hHere ⟨q, b, hMem, hEnds hOver⟩

/-- If there is a stream with the id of the one that is started now, then that has ended, and the message
that starts the new one has come after its end. -/
theorem Life.followed_of_new
    (prior : Life (Session.new registry callTimeout capacity lifetime) past s) {host : Host}
    (last : (Machine.mk host s).step? a = some m') {i j : ServedStreamId} {x y : ServedStream S}
    (hx : s.servedStreams[i]? = some x) (hNone : s.servedStreams[j]? = none)
    (hy : m'.session.servedStreams[j]? = some y) (hSame : x.id = y.id) :
    History.Late (past ++ [(⟨host, s⟩, a)]) y.id ∨ History.Trailed (past ++ [(⟨host, s⟩, a)]) y.id := by
  obtain ⟨r, rfl, hStream, hFree, _, _, hId, _⟩ := step?_new_served last hNone hy
  have hEnded : History.Ended past i := by
    by_contra hNot
    have hHere := (prior.servingExact.ended i x hx).mpr hNot
    rw [hSame, hId, hFree] at hHere
    cases hHere
  have hConsuming := (receive?_eq_some last).1
  refine (prior.ended_cases hConsuming hEnded).imp (fun hEarly => ?_) fun hClosed => ?_
  · exact History.followed_append.mpr (.inr ⟨r, rfl, hStream, hId.symm, i, x, hx, hSame, hEarly⟩)
  · exact History.followed_append.mpr (.inr ⟨r, rfl, hStream, hId.symm, i, x, hx, hSame, hClosed⟩)

/-- An id that is served again has had a message after the end of its stream. -/
theorem Life.servedOnce
    (life : Life (Session.new registry callTimeout capacity lifetime) past s) {id : Int32}
    (hLate : ¬ History.Late past id) (hTrailed : ¬ History.Trailed past id) : s.ServedOnce id := by
  induction life with
  | refl =>
      intro i j x y hx
      simp [Session.new] at hx
  | @step past s host a m' prior last ih =>
      have hOnce : s.ServedOnce id := ih (fun h => hLate (History.followed_append.mpr (.inl h)))
        fun h => hTrailed (History.followed_append.mpr (.inl h))
      have hOrigin : ∀ (i : ServedStreamId) (x : ServedStream S),
          m'.session.servedStreams[i]? = some x → s.servedStreams[i]? = none ∨
            ∃ x', s.servedStreams[i]? = some x' ∧ x.id = x'.id := by
        intro i x hx
        cases hOld : s.servedStreams[i]? with
        | none => exact .inl rfl
        | some x' =>
            exact .inr ⟨x', rfl, ((step?_servedStreams last).rel hOld hx).id⟩
      rintro i j x y hx hy rfl hyId
      obtain hOldX | ⟨x', hOldX, hX⟩ := hOrigin i x hx
      · obtain hOldY | ⟨y', hOldY, hY⟩ := hOrigin j y hy
        · obtain ⟨_, _, _, _, _, hi, _⟩ := step?_new_served last hOldX hx
          obtain ⟨_, _, _, _, _, hj, _⟩ := step?_new_served last hOldY hy
          rw [hi, hj]
        · have hAgain := prior.followed_of_new last hOldY hOldX hx (hY.symm.trans hyId)
          exact hAgain.elim (absurd · hLate) (absurd · hTrailed)
      · obtain hOldY | ⟨y', hOldY, hY⟩ := hOrigin j y hy
        · rw [← hyId] at hLate hTrailed
          have hAgain := prior.followed_of_new last hOldX hOldY hy (hX.symm.trans hyId.symm)
          exact hAgain.elim (absurd · hLate) (absurd · hTrailed)
        · exact hOnce i j x' y' hOldX hOldY hX.symm (hY.symm.trans hyId)

end

end Machine

end PeerLink

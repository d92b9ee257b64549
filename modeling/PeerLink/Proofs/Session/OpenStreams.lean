import Mathlib.Data.List.Induction
import Mathlib.Data.List.Nodup
import PeerLink.Proofs.Session.Handles

/-! The table of open streams. A stream is in it from its first message to its end, and whatever ends it
also closes its input and cancels its lifetime. Ids come back, so a handler may return when its id leads
to another stream by then; what it removes is decided by the number of its own stream. -/
namespace PeerLink.Machine

variable {M S : Type} {m m' : Machine M S} {a : Action} {past : History M S}

/-- A close with its id, a bye, the end of the session or the return of its handler has ended the
stream. Whether it was in the table then is not asked. -/
def History.Ended (past : History M S) (i : ServedStreamId) : Prop :=
  ∃ q a, (q, a) ∈ past ∧ Ends q a i

theorem History.ended_append {i : ServedStreamId} :
    History.Ended (past ++ [(m, a)]) i ↔ History.Ended past i ∨ m.Ends a i := by
  constructor
  · rintro ⟨q, b, h, hEnds⟩
    rcases List.mem_append.mp h with h | h
    · exact .inl ⟨q, b, h, hEnds⟩
    · obtain ⟨rfl, rfl⟩ := Prod.mk.inj (List.mem_singleton.mp h)
      exact .inr hEnds
  · rintro (⟨q, b, h, hEnds⟩ | hEnds)
    · exact ⟨q, b, List.mem_append_left _ h, hEnds⟩
    · exact ⟨m, a, List.mem_append_right _ (List.mem_singleton.mpr rfl), hEnds⟩

/-- Only a stream that has been started can end. -/
theorem Ends.lt_length (h : m.step? a = some m') {i : ServedStreamId} (hEnds : m.Ends a i) :
    i < m.session.servedStreams.length := by
  cases a with
  | finishServed j result =>
      obtain ⟨x, hx, _⟩ := step?_finishServed_eq_some h
      rw [← show j = i from hEnds]
      exact (List.getElem?_eq_some_iff.mp hx).1
  | stop _ => exact hEnds
  | receive e =>
      cases e with
      | bye => exact hEnds
      | streamClose id =>
          obtain ⟨x, hx, _⟩ := hEnds
          exact (List.getElem?_eq_some_iff.mp hx).1
      | _ => exact hEnds.elim
  | _ => exact hEnds.elim

/-- Table, inputs and handlers agree, and they agree with the history. -/
structure ServingExact (past : History M S) (s : Session M S) : Prop where
  fits : TableFits s
  /-- In the table, a stream has its handler and its input. -/
  here : ∀ i x, s.servedStreams[i]? = some x → s.openStreams.get? x.id = some i →
    x.result = none ∧ x.inboxClosed = false
  /-- Out of the table, its input is closed. -/
  gone : ∀ i x, s.servedStreams[i]? = some x → s.openStreams.get? x.id ≠ some i →
    x.inboxClosed = true
  ended : ∀ i x, s.servedStreams[i]? = some x →
    (s.openStreams.get? x.id = some i ↔ ¬ History.Ended past i)
  bounded : ∀ i, History.Ended past i → i < s.servedStreams.length
  stopped : s.consuming = false → ∀ id, s.openStreams.get? id = none

/-- Out of the table, the lifetime of a stream is cancelled. -/
def GoneFlagged (m : Machine M S) : Prop :=
  ∀ i x, m.session.servedStreams[i]? = some x → m.session.openStreams.get? x.id ≠ some i →
    m.lifetimes.isFlagged x.lifetime = true

theorem served_mem_handles {i : ServedStreamId} {x : ServedStream S}
    (h : m.session.servedStreams[i]? = some x) : x.lifetime ∈ m.session.handles :=
  List.mem_append_right _ (List.mem_map_of_mem (List.mem_of_getElem? h))

theorem Closes.flagged {m₁ : Machine M S} {ended : List ServedStreamId} (h : m.Closes m₁ ended)
    (hRooted : m.Rooted) {i : ServedStreamId} {x : ServedStream S}
    (hx : m.session.servedStreams[i]? = some x) (hi : i ∈ ended) :
    m₁.lifetimes.isFlagged x.lifetime = true :=
  (h.isFlagged _).mpr (.inr ⟨hRooted.lt_next (served_mem_handles hx), i, hi, x, hx, rfl⟩)

/-- Once a session takes no more envelopes, its table stays empty. -/
theorem step?_stopped (hStopped : m.session.consuming = false →
      ∀ id, m.session.openStreams.get? id = none) (h : m.step? a = some m') :
    m'.session.consuming = false → ∀ id, m'.session.openStreams.get? id = none := by
  intro hConsuming
  by_cases hStop : ∃ exhausted, a = .stop exhausted
  · obtain ⟨exhausted, rfl⟩ := hStop
    obtain ⟨_, _, rfl⟩ := stopConsuming?_eq_some h
    intro id
    simp only [session_onSession, session_cancel]
    rw [closeOpenStreams_session]
    rfl
  · have hBefore : m.session.consuming = false := by
      rw [step?_frame h] at hConsuming
      cases a with
      | stop exhausted => exact absurd ⟨exhausted, rfl⟩ hStop
      | receive e => cases e <;> exact hConsuming
      | _ => exact hConsuming
    have hEmpty := hStopped hBefore
    cases step?_served h with
    | kept _ _ _ table => rw [table]; exact hEmpty
    | opened r _ cause =>
        subst cause
        obtain ⟨hTaken, _, _⟩ := receive?_eq_some h
        rw [hBefore] at hTaken
        cases hTaken
    | ended _ _ _ _ _ _ _ keys =>
        intro id
        refine (IdTable.get?_eq_none_iff _ _).mpr fun hMem => ?_
        exact (IdTable.get?_eq_none_iff _ _).mp (hEmpty id) (keys.subset hMem)
    | finished i result x _ found _ next =>
        intro id
        rw [next, (finishServed_effect found result).1, removeServed_openStreams]
        split
        · simp [hEmpty]
        · exact hEmpty id

/-! ### One step -/

theorem ServingExact.kept (hExact : ServingExact past m.session) (h : m.step? a = some m')
    {f : ServedStreamId → ServedStream S → ServedStream S}
    (alike : ∀ j (x : ServedStream S), x.Alike (f j x))
    (streams : ∀ j, m'.session.servedStreams[j]? = m.session.servedStreams[j]?.map (f j))
    (table : m'.session.openStreams = m.session.openStreams)
    (spared : TableFits m.session → ∀ id i, m.session.openStreams.get? id = some i → ¬ m.Ends a i) :
    ServingExact (past ++ [(m, a)]) m'.session := by
  have hBack : ∀ {i : ServedStreamId} {y : ServedStream S}, m'.session.servedStreams[i]? = some y →
      ∃ x, m.session.servedStreams[i]? = some x ∧ x.Alike y := by
    intro i y hy
    rw [streams, Option.map_eq_some_iff] at hy
    obtain ⟨x, hx, rfl⟩ := hy
    exact ⟨x, hx, alike i x⟩
  refine ⟨⟨?_, fun id i hi => ?_⟩, fun i y hy hi => ?_, fun i y hy hi => ?_, fun i y hy => ?_,
    fun i hi => ?_, step?_stopped hExact.stopped h⟩
  · rw [table]
    exact hExact.fits.nodup
  · rw [table] at hi
    obtain ⟨x, hx, hId⟩ := hExact.fits.id id i hi
    exact ⟨f i x, by rw [streams, hx]; rfl, (alike i x).id.trans hId⟩
  · obtain ⟨x, hx, hAlike⟩ := hBack hy
    rw [table, hAlike.id] at hi
    rw [hAlike.result, hAlike.inboxClosed]
    exact hExact.here i x hx hi
  · obtain ⟨x, hx, hAlike⟩ := hBack hy
    rw [table, hAlike.id] at hi
    rw [hAlike.inboxClosed]
    exact hExact.gone i x hx hi
  · obtain ⟨x, hx, hAlike⟩ := hBack hy
    rw [table, hAlike.id, History.ended_append, hExact.ended i x hx, not_or]
    refine ⟨fun hNot => ⟨hNot, ?_⟩, fun hNot => hNot.1⟩
    exact spared hExact.fits x.id i ((hExact.ended i x hx).mpr hNot)
  · rw [length_eq_of_map streams]
    rcases History.ended_append.mp hi with hi | hi
    · exact hExact.bounded i hi
    · exact hi.lt_length h

theorem ServingExact.opened (hExact : ServingExact past m.session) (h : m.step? a = some m')
    {r : Request} {x : ServedStream S} (cause : a = .receive (.request r)) (hId : x.id = r.id)
    (hResult : x.result = none) (hInbox : x.inboxClosed = false)
    (free : m.session.openStreams.get? r.id = none)
    (streams : m'.session.servedStreams = m.session.servedStreams ++ [x])
    (table : m'.session.openStreams =
      m.session.openStreams.insert r.id m.session.servedStreams.length) :
    ServingExact (past ++ [(m, a)]) m'.session := by
  have hOld : ∀ {i : ServedStreamId} {y : ServedStream S}, m.session.servedStreams[i]? = some y →
      (m'.session.openStreams.get? y.id = some i ↔ m.session.openStreams.get? y.id = some i) := by
    intro i y hy
    have hLt := (List.getElem?_eq_some_iff.mp hy).1
    rw [table, IdTable.get?_insert]
    split
    · next hSame =>
        rw [hSame, free]
        simp only [Option.some.injEq, reduceCtorEq, iff_false]
        exact Nat.ne_of_gt hLt
    · rfl
  have hNew : ∀ {i : ServedStreamId} {y : ServedStream S}, m'.session.servedStreams[i]? = some y →
      m.session.servedStreams[i]? = some y ∨ i = m.session.servedStreams.length ∧ y = x := by
    intro i y hy
    rw [streams] at hy
    exact getElem?_concat_eq_some hy
  have hNone : ∀ i, ¬ m.Ends a i := fun i hi => by
    subst cause
    exact hi
  have hTable : m'.session.openStreams.get? x.id = some m.session.servedStreams.length := by
    rw [table, IdTable.get?_insert, if_pos hId]
  refine ⟨⟨?_, fun id i hi => ?_⟩, fun i y hy hi => ?_, fun i y hy hi => ?_, fun i y hy => ?_,
    fun i hi => ?_, step?_stopped hExact.stopped h⟩
  · rw [table]
    exact IdTable.nodup_keys_insert hExact.fits.nodup _ _
  · rw [table, IdTable.get?_insert] at hi
    split at hi
    · next hSame =>
        cases hi
        exact ⟨x, by simp [streams], hId.trans hSame.symm⟩
    · obtain ⟨y, hy, hYId⟩ := hExact.fits.id id i hi
      have hLt := (List.getElem?_eq_some_iff.mp hy).1
      exact ⟨y, by rw [streams, List.getElem?_append_left hLt, hy], hYId⟩
  · obtain hOldY | ⟨rfl, rfl⟩ := hNew hy
    · exact hExact.here i y hOldY ((hOld hOldY).mp hi)
    · exact ⟨hResult, hInbox⟩
  · obtain hOldY | ⟨rfl, rfl⟩ := hNew hy
    · exact hExact.gone i y hOldY fun he => hi ((hOld hOldY).mpr he)
    · exact absurd hTable hi
  · rw [History.ended_append, not_or]
    obtain hOldY | ⟨rfl, rfl⟩ := hNew hy
    · rw [hOld hOldY, hExact.ended i y hOldY]
      exact ⟨fun hNot => ⟨hNot, hNone i⟩, fun hNot => hNot.1⟩
    · refine ⟨fun _ => ⟨fun hEnded => ?_, hNone _⟩, fun _ => hTable⟩
      exact Nat.lt_irrefl _ (hExact.bounded _ hEnded)
  · rw [streams, List.length_append]
    rcases History.ended_append.mp hi with hi | hi
    · exact Nat.lt_of_lt_of_le (hExact.bounded i hi) (Nat.le_add_right _ _)
    · exact absurd hi (hNone i)

theorem ServingExact.closed (hExact : ServingExact past m.session)
    (h : m.step? a = some m') {ended : List ServedStreamId} {m₁ : Machine M S}
    (closes : m.Closes m₁ ended) (streams : m'.session.servedStreams = m₁.session.servedStreams)
    (gone : ∀ i, i ∈ ended ↔ (∃ id, m.session.openStreams.get? id = some i) ∧ m.Ends a i)
    (table : ∀ id i, m'.session.openStreams.get? id = some i ↔
      m.session.openStreams.get? id = some i ∧ i ∉ ended)
    (keys : m'.session.openStreams.keys.Sublist m.session.openStreams.keys) :
    ServingExact (past ++ [(m, a)]) m'.session := by
  have hStreams : ∀ j, m'.session.servedStreams[j]? = m.session.servedStreams[j]?.map fun x =>
      if j ∈ ended then { x with inboxClosed := true } else x := fun j => by
    rw [streams, closes.streams]
  have hBack : ∀ {i : ServedStreamId} {y : ServedStream S}, m'.session.servedStreams[i]? = some y →
      ∃ x, m.session.servedStreams[i]? = some x ∧ y.id = x.id ∧ y.result = x.result ∧
        (i ∈ ended → y.inboxClosed = true) ∧ (i ∉ ended → y.inboxClosed = x.inboxClosed) := by
    intro i y hy
    rw [hStreams, Option.map_eq_some_iff] at hy
    obtain ⟨x, hx, rfl⟩ := hy
    refine ⟨x, hx, ?_⟩
    by_cases hi : i ∈ ended <;> simp [hi]
  refine ⟨⟨?_, fun id i hi => ?_⟩, fun i y hy hi => ?_, fun i y hy hi => ?_, fun i y hy => ?_,
    fun i hi => ?_, step?_stopped hExact.stopped h⟩
  · exact hExact.fits.nodup.sublist keys
  · obtain ⟨x, hx, hId⟩ := hExact.fits.id id i ((table id i).mp hi).1
    refine ⟨_, by rw [hStreams, hx]; rfl, ?_⟩
    split <;> exact hId
  · obtain ⟨x, hx, hId, hResult, _, hOpen⟩ := hBack hy
    rw [hId, table] at hi
    rw [hResult, hOpen hi.2]
    exact hExact.here i x hx hi.1
  · obtain ⟨x, hx, hId, _, hClosed, hOpen⟩ := hBack hy
    by_cases hEnded : i ∈ ended
    · exact hClosed hEnded
    · rw [hOpen hEnded]
      exact hExact.gone i x hx fun he => hi ((table _ _).mpr ⟨hId ▸ he, hEnded⟩)
  · obtain ⟨x, hx, hId, _⟩ := hBack hy
    rw [hId, table, History.ended_append, hExact.ended i x hx, not_or]
    constructor
    · rintro ⟨hNot, hStays⟩
      have hHere := (hExact.ended i x hx).mpr hNot
      exact ⟨hNot, fun hEnds => hStays ((gone i).mpr ⟨⟨_, hHere⟩, hEnds⟩)⟩
    · rintro ⟨hNot, hNotNow⟩
      exact ⟨hNot, fun hEnded => hNotNow ((gone i).mp hEnded).2⟩
  · rw [length_eq_of_map hStreams]
    rcases History.ended_append.mp hi with hi | hi
    · exact hExact.bounded i hi
    · exact hi.lt_length h

/-- The return of a handler changes the record and the entry of its own stream only. -/
theorem finishServed_others {i : ServedStreamId} {x : ServedStream S}
    (found : m.session.servedStreams[i]? = some x) (result : Except Failure Unit) {j : ServedStreamId}
    (hj : j ≠ i) :
    (m.finishServed i result).session.servedStreams[j]? = m.session.servedStreams[j]? ∧
    ∀ id, (m.finishServed i result).session.openStreams.get? id = some j ↔
      m.session.openStreams.get? id = some j := by
  obtain ⟨hTable, _, _, hStreams⟩ := finishServed_effect found result
  have hNot : j ∉ m.removed i x.id := by
    unfold removed
    split <;> simp [hj]
  refine ⟨?_, fun id => ?_⟩
  · rw [hStreams, (closes_removeServed m i x.id).streams]
    simp [hj, hNot]
  · rw [hTable, removeServed_openStreams]
    split
    · next hOpen =>
        rw [IdTable.get?_erase]
        split
        · next hId =>
            rw [hId, hOpen]
            simp [Ne.symm hj]
        · rfl
    · rfl

/-- What the return of a handler does to its own stream. -/
theorem finishServed_own {i : ServedStreamId} {x : ServedStream S}
    (found : m.session.servedStreams[i]? = some x) (result : Except Failure Unit) :
    (m.finishServed i result).session.openStreams.get? x.id ≠ some i ∧
    ∃ y, (m.finishServed i result).session.servedStreams[i]? = some y ∧ y.id = x.id ∧
      y.lifetime = x.lifetime ∧ (x.inboxClosed = true → y.inboxClosed = true) ∧
      (m.session.openStreams.get? x.id = some i → y.inboxClosed = true) := by
  obtain ⟨hTable, _, closeSent, hStreams⟩ := finishServed_effect found result
  refine ⟨?_, ?_⟩
  · rw [hTable, removeServed_openStreams]
    split
    · simp
    · next hNot => exact hNot
  · rw [hStreams, (closes_removeServed m i x.id).streams, found]
    refine ⟨_, rfl, ?_⟩
    unfold removed
    split
    · simp
    · next hNot => simp [hNot]

theorem ServingExact.finished (hExact : ServingExact past m.session) {i : ServedStreamId}
    {result : Except Failure Unit}
    (h : m.step? (.finishServed i result) = some (m.finishServed i result)) {x : ServedStream S}
    (found : m.session.servedStreams[i]? = some x) :
    ServingExact (past ++ [(m, .finishServed i result)]) (m.finishServed i result).session := by
  obtain ⟨hGone, z, hz, hId, _, hStill, hClosed⟩ := finishServed_own found result
  obtain ⟨hTable, _, _⟩ := finishServed_effect found result
  have hLength : (m.finishServed i result).session.servedStreams.length =
      m.session.servedStreams.length :=
    step?_servedStreams_length h nofun
  have hBack : ∀ {j : ServedStreamId} {y : ServedStream S}, j ≠ i →
      (m.finishServed i result).session.servedStreams[j]? = some y →
      m.session.servedStreams[j]? = some y ∧
        ((m.finishServed i result).session.openStreams.get? y.id = some j ↔
          m.session.openStreams.get? y.id = some j) := by
    intro j y hj hy
    obtain ⟨hSame, hEntry⟩ := finishServed_others found result hj
    exact ⟨hSame ▸ hy, hEntry y.id⟩
  refine ⟨⟨?_, fun id j hj => ?_⟩, fun j y hy hj => ?_, fun j y hy hj => ?_, fun j y hy => ?_,
    fun j hj => ?_, step?_stopped hExact.stopped h⟩
  · rw [hTable, removeServed_openStreams]
    split
    · exact IdTable.nodup_keys_erase hExact.fits.nodup _
    · exact hExact.fits.nodup
  · have hBefore : m.session.openStreams.get? id = some j := by
      rw [hTable, removeServed_openStreams] at hj
      split at hj
      · rw [IdTable.get?_erase] at hj
        split at hj
        · cases hj
        · exact hj
      · exact hj
    obtain ⟨y, hy, hYId⟩ := hExact.fits.id id j hBefore
    obtain ⟨w, hw, hKeeps⟩ := step?_servedStreams h j y hy
    exact ⟨w, hw, hKeeps.id.trans hYId⟩
  · by_cases hji : j = i
    · subst hji
      rw [hz] at hy
      cases hy
      rw [hId] at hj
      exact absurd hj hGone
    · obtain ⟨hBefore, hEntry⟩ := hBack hji hy
      exact hExact.here j y hBefore (hEntry.mp hj)
  · by_cases hji : j = i
    · subst hji
      rw [hz] at hy
      cases hy
      by_cases hOpen : m.session.openStreams.get? x.id = some j
      · exact hClosed hOpen
      · exact hStill (hExact.gone j x found hOpen)
    · obtain ⟨hBefore, hEntry⟩ := hBack hji hy
      exact hExact.gone j y hBefore fun he => hj (hEntry.mpr he)
  · rw [History.ended_append]
    by_cases hji : j = i
    · subst hji
      rw [hz] at hy
      cases hy
      rw [hId]
      exact ⟨fun he => absurd he hGone, fun hNot => absurd (.inr rfl) hNot⟩
    · obtain ⟨hBefore, hEntry⟩ := hBack hji hy
      rw [hEntry, hExact.ended j y hBefore, not_or]
      exact ⟨fun hNot => ⟨hNot, fun he => hji (Eq.symm he)⟩, fun hNot => hNot.1⟩
  · rw [hLength]
    rcases History.ended_append.mp hj with hj | hj
    · exact hExact.bounded j hj
    · exact hj.lt_length h

theorem ServingExact.step (hExact : ServingExact past m.session) (h : m.step? a = some m') :
    ServingExact (past ++ [(m, a)]) m'.session := by
  cases step?_served h with
  | kept f alike streams table spared => exact hExact.kept h alike streams table spared
  | opened r method cause _ free _ next =>
      have hStreams := congrArg (fun q => q.session.servedStreams) next
      have hTable := congrArg (fun q => q.session.openStreams) next
      exact hExact.opened h cause rfl rfl rfl free hStreams hTable
  | ended ended m₁ closes streams flags gone table keys =>
      exact hExact.closed h closes streams (gone hExact.fits) (table hExact.fits) keys
  | finished i result x cause found _ next =>
      subst cause next
      exact hExact.finished h found

theorem Life.servingExact {registry : Registry M S} {callTimeout : Option Duration} {capacity : Nat}
    {lifetime : LifetimeId} {s : Session M S}
    (life : Life (Session.new registry callTimeout capacity lifetime) past s) :
    ServingExact past s := by
  induction life with
  | refl =>
      have hNone : ∀ (i : ServedStreamId) (x : ServedStream S),
          (Session.new registry callTimeout capacity lifetime).servedStreams[i]? ≠ some x := by
        simp [Session.new]
      refine ⟨⟨List.nodup_nil, fun id i hi => by cases hi⟩, fun i x hx => absurd hx (hNone i x),
        fun i x hx => absurd hx (hNone i x), fun i x hx => absurd hx (hNone i x), ?_,
        fun _ _ => rfl⟩
      rintro i ⟨q, b, hMem, _⟩
      cases hMem
  | step prior last ih => exact ServingExact.step ih last

theorem GoneFlagged.step (hGone : m.GoneFlagged) (hExact : ServingExact past m.session)
    (hRooted : m.Rooted) (h : m.step? a = some m') : m'.GoneFlagged := by
  have hFlags := (step?_lifetimes_grow h).isFlagged
  intro i y hy hNot
  cases hOld : m.session.servedStreams[i]? with
  | none =>
      obtain ⟨r, rfl, _, _, _, hi, _⟩ := step?_new_served h hOld hy
      have hEnded := (ServingExact.step hExact h).ended i y hy
      rw [History.ended_append] at hEnded
      refine absurd (hEnded.mpr (not_or.mpr ⟨fun hBefore => ?_, fun hNow => hNow⟩)) hNot
      exact Nat.lt_irrefl _ (hi ▸ hExact.bounded i hBefore)
  | some x =>
      have hKeeps := (step?_servedStreams h).rel hOld hy
      rw [hKeeps.lifetime]
      by_cases hOpen : m.session.openStreams.get? x.id = some i
      · rw [hKeeps.id] at hNot
        cases step?_served h with
        | kept _ _ _ table => exact absurd (table ▸ hOpen) hNot
        | opened r _ _ _ free _ next =>
            rw [next] at hNot
            simp only [session_onSession, IdTable.get?_insert] at hNot
            split at hNot
            · next hSame =>
                rw [hSame, free] at hOpen
                cases hOpen
            · exact absurd hOpen hNot
        | ended ended m₁ closes _ flags _ table =>
            have hEnded : i ∈ ended := by
              by_contra hStays
              exact hNot ((table hExact.fits x.id i).mpr ⟨hOpen, hStays⟩)
            exact flags _ (closes.flagged hRooted hOld hEnded)
        | finished j result w _ found _ next =>
            by_cases hj : i = j
            · subst hj
              rw [hOld] at found
              cases found
              rw [next, (finishServed_effect hOld result).2.1, Lifetimes.isFlagged_cancel,
                (closes_removeServed m i x.id).next]
              exact .inr ⟨rfl, hRooted.lt_next (served_mem_handles hOld)⟩
            · subst next
              exact absurd (((finishServed_others found result hj).2 x.id).mpr hOpen) hNot
      · exact hFlags _ (hGone i x hOld hOpen)

theorem Execution.goneFlagged {host : Host} {registry : Registry M S}
    {callTimeout : Option Duration} {capacity : Nat}
    (exec : Execution (Machine.new host registry callTimeout capacity) past m) : m.GoneFlagged := by
  induction exec with
  | refl =>
      intro i x hx
      simp [Machine.new, Session.new] at hx
  | step prior last ih =>
      exact ih.step prior.life.servingExact (prior.rooted (rooted_new _ _ _ _)) last

/-! ### Lifetimes as the sign of the end -/

/-- The stream is in the table. -/
def IsOpen (s : Session M S) (i : ServedStreamId) : Prop :=
  ∃ id, (id, i) ∈ s.openStreams.entries

/-- Nobody has cancelled the lifetime of a stream by name. -/
def History.SparesServed (past : History M S) : Prop :=
  ∀ q l, (q, Action.cancel l) ∈ past → ∀ x ∈ q.session.servedStreams, x.lifetime ≠ l

theorem TableFits.isOpen_iff {s : Session M S} (h : TableFits s) {i : ServedStreamId}
    {x : ServedStream S} (hx : s.servedStreams[i]? = some x) :
    IsOpen s i ↔ s.openStreams.get? x.id = some i := by
  constructor
  · rintro ⟨id, hMem⟩
    have hGet := IdTable.get?_of_mem h.nodup hMem
    obtain ⟨y, hy, rfl⟩ := h.id id i hGet
    rw [hx] at hy
    cases hy
    exact hGet
  · exact fun hGet => ⟨x.id, IdTable.mem_of_get? hGet⟩

/-- Two streams with the same lifetime are the same stream, and no run and no stream opened here has its
lifetime. -/
theorem Rooted.served_unique (hRooted : m.Rooted) {i : ServedStreamId} {x : ServedStream S}
    (hx : m.session.servedStreams[i]? = some x) :
    x.lifetime ≠ m.session.lifetime ∧ x.lifetime ∉ m.session.runs.map Run.lifetime ∧
    x.lifetime ∉ m.session.clientStreams.map ClientStream.lifetime ∧
    ∀ j y, m.session.servedStreams[j]? = some y → y.lifetime = x.lifetime → j = i := by
  have hServed : x.lifetime ∈ m.session.servedStreams.map ServedStream.lifetime :=
    List.mem_map_of_mem (List.mem_of_getElem? hx)
  obtain ⟨_, hStreams, hApart⟩ := List.nodup_append.mp hRooted.nodup
  refine ⟨Nat.ne_of_gt (hRooted.above _ (served_mem_handles hx)),
    fun hRun => hApart _ (List.mem_append_left _ hRun) _ hServed rfl,
    fun hClient => hApart _ (List.mem_append_right _ hClient) _ hServed rfl, fun j y hy he => ?_⟩
  have hi : (m.session.servedStreams.map ServedStream.lifetime)[i]? = some x.lifetime := by
    rw [List.getElem?_map, hx, Option.map_some]
  have hj : (m.session.servedStreams.map ServedStream.lifetime)[j]? = some x.lifetime := by
    rw [List.getElem?_map, hy, Option.map_some, he]
  exact (List.getElem?_inj (List.getElem?_eq_some_iff.mp hj).1 hStreams).mp (hj.trans hi.symm)

/-- While a stream is in the table its lifetime carries no flag, unless somebody has set it by name since
the stream is there. -/
theorem Execution.unflagged {host : Host} {registry : Registry M S}
    {callTimeout : Option Duration} {capacity : Nat}
    (exec : Execution (Machine.new host registry callTimeout capacity) past m) {i : ServedStreamId}
    {x : ServedStream S} (hx : m.session.servedStreams[i]? = some x)
    (hKept : ∀ q, (q, Action.cancel x.lifetime) ∈ past → q.session.servedStreams[i]? = none)
    (hOpen : m.session.openStreams.get? x.id = some i) :
    m.lifetimes.isFlagged x.lifetime = false := by
  induction exec generalizing x with
  | refl => cases hOpen
  | @step past m m' a prior last ih =>
      have hExact := (prior.step last).life.servingExact
      have hBefore := prior.life.servingExact
      have hRooted := prior.rooted (rooted_new _ _ _ _)
      apply Bool.eq_false_iff.mpr
      intro hFlagged
      cases hOld : m.session.servedStreams[i]? with
      | none =>
          obtain ⟨r, rfl, _, _, _, _, _, hLifetime, hLifetimes⟩ := step?_new_served last hOld hx
          rw [hLifetimes, Lifetimes.isFlagged_add, hLifetime] at hFlagged
          exact Nat.lt_irrefl _ (Lifetimes.lt_next_of_isFlagged hFlagged)
      | some w =>
          have hKeeps := (step?_servedStreams last).rel hOld hx
          have hNotEnded := (hExact.ended i x hx).mp hOpen
          rw [History.ended_append, not_or] at hNotEnded
          have hWasOpen := (hBefore.ended i w hOld).mpr hNotEnded.1
          rw [hKeeps.lifetime] at hFlagged hKept
          have hWas := ih hOld (fun q hMem => hKept q (List.mem_append_left _ hMem)) hWasOpen
          obtain ⟨hSession, hRuns, hClients, hUnique⟩ := hRooted.served_unique hOld
          -- Whatever sets a flag now belongs to something else.
          obtain hFlagged | rfl | he | he | ⟨d, y, _, hy, he⟩ | ⟨j, z, hEnds, hz, he⟩ :=
            step?_isFlagged last hBefore.fits hFlagged
          · rw [hWas] at hFlagged
            cases hFlagged
          · cases hOld.symm.trans (hKept m (List.mem_append_right _ (List.mem_singleton.mpr rfl)))
          · exact hSession he.2
          · exact hRuns he
          · exact hClients (he ▸ List.mem_map_of_mem (List.mem_of_getElem? hy))
          · rw [hUnique j z hz he] at hEnds
            exact hNotEnded.2 hEnds

/-- If nobody cancels the lifetime of a stream by name, no stream in the table carries a flag. -/
theorem Execution.open_unflagged {host : Host} {registry : Registry M S}
    {callTimeout : Option Duration} {capacity : Nat}
    (exec : Execution (Machine.new host registry callTimeout capacity) past m)
    (hSpares : History.SparesServed past) {i : ServedStreamId} {x : ServedStream S}
    (hx : m.session.servedStreams[i]? = some x) (hOpen : m.session.openStreams.get? x.id = some i) :
    m.lifetimes.isFlagged x.lifetime = false := by
  refine exec.unflagged hx (fun q hMem => ?_) hOpen
  by_contra hThere
  obtain ⟨z, hz⟩ := Option.ne_none_iff_exists'.mp hThere
  exact hSpares q _ hMem z (List.mem_of_getElem? hz)
    ((exec.life.grows_since hMem).servedStreams.rel hz hx).lifetime.symm

/-! ### The table in every reachable state -/

theorem countP_eq_length_filter_range {α : Type} (p : α → Bool) (l : List α) :
    l.countP p = ((List.range l.length).filter fun i => l[i]?.any p).length := by
  induction l using List.reverseRecOn with
  | nil => rfl
  | append_singleton l x ih =>
      have hSame : (List.range l.length).filter (fun i => (l ++ [x])[i]?.any p) =
          (List.range l.length).filter fun i => l[i]?.any p := by
        apply List.filter_congr
        intro i hi
        rw [List.getElem?_append_left (List.mem_range.mp hi)]
      rw [List.countP_append, List.length_append, List.length_singleton, List.range_succ,
        List.filter_append, List.length_append, hSame, ih]
      congr 1
      cases hx : p x <;> simp [hx]

/-- If the streams in the table are those whose lifetime is not cancelled, they can be counted by their
lifetimes. -/
theorem TableFits.size_eq (h : TableFits m.session)
    (hLive : ∀ i x, m.session.servedStreams[i]? = some x →
      (IsOpen m.session i ↔ m.isCancelled x.lifetime = false)) :
    m.session.openStreams.size = m.session.servedStreams.countP fun x => !m.isCancelled x.lifetime := by
  have hEntries : m.session.openStreams.entries.Nodup := h.nodup.of_map _
  have hNodup : (m.session.openStreams.entries.map Prod.snd).Nodup := by
    refine List.Nodup.map_on (fun e he e' he' hSame => ?_) hEntries
    have hGet := IdTable.get?_of_mem h.nodup he
    have hGet' := IdTable.get?_of_mem h.nodup he'
    rw [hSame] at hGet
    exact Prod.ext (h.id_unique hGet hGet') hSame
  let live := (List.range m.session.servedStreams.length).filter fun i =>
    m.session.servedStreams[i]?.any fun x => !m.isCancelled x.lifetime
  have hMem : ∀ i, i ∈ m.session.openStreams.entries.map Prod.snd ↔ i ∈ live := by
    intro i
    rw [List.mem_filter, List.mem_range]
    constructor
    · intro hi
      have hLt := h.lt_length hi
      obtain ⟨e, he, rfl⟩ := List.mem_map.mp hi
      have hx := List.getElem?_eq_getElem hLt
      refine ⟨hLt, ?_⟩
      rw [hx, Option.any_some, (hLive _ _ hx).mp ⟨e.1, he⟩]
      rfl
    · rintro ⟨hLt, hAny⟩
      have hx := List.getElem?_eq_getElem hLt
      rw [hx, Option.any_some, Bool.not_eq_true'] at hAny
      obtain ⟨id, hEntry⟩ := (hLive _ _ hx).mpr hAny
      exact List.mem_map.mpr ⟨(id, i), hEntry, rfl⟩
  have hPerm := (List.perm_ext_iff_of_nodup hNodup (List.nodup_range.filter _)).mpr hMem
  rw [countP_eq_length_filter_range, ← hPerm.length_eq, List.length_map]
  rfl

/-- The return of a handler cancels no lifetime but that of its own stream. -/
theorem finishServed_isCancelled (hRooted : m.Rooted) {i : ServedStreamId}
    {result : Except Failure Unit} (h : m.step? (.finishServed i result) = some m')
    {x y : ServedStream S} (hx : m.session.servedStreams[i]? = some x) {j : ServedStreamId}
    (hj : j ≠ i) (hy : m.session.servedStreams[j]? = some y) :
    m'.isCancelled y.lifetime = m.isCancelled y.lifetime := by
  have hGrows := step?_grows h
  have hRooted' := hRooted.step h
  obtain ⟨w, hw, hKeeps⟩ := hGrows.servedStreams j y hy
  obtain ⟨_, _, _, hStep⟩ := step?_finishServed_eq_some h
  -- The only new flag is that of the stream whose handler returned.
  have hFlag : ∀ l, l ≠ x.lifetime → m'.lifetimes.isFlagged l = m.lifetimes.isFlagged l := by
    intro l hl
    rw [hStep, (finishServed_effect hx result).2.1, Bool.eq_iff_iff, Lifetimes.isFlagged_cancel,
      (closes_removeServed m i x.id).isFlagged]
    constructor
    · rintro ((hFlagged | ⟨_, k, hk, z, hz, rfl⟩) | ⟨rfl, _⟩)
      · exact hFlagged
      · unfold removed at hk
        split at hk
        · rw [List.mem_singleton.mp hk, hx] at hz
          cases hz
          exact absurd rfl hl
        · cases hk
      · exact absurd rfl hl
    · exact fun hFlagged => .inl (.inl hFlagged)
  obtain ⟨hSession, _, _, hUnique⟩ := hRooted.served_unique hx
  have hOwn : y.lifetime ≠ x.lifetime := fun he => hj (hUnique j y hy he)
  have hIn' : y.lifetime ∈ m'.session.handles := hKeeps.lifetime ▸ served_mem_handles hw
  rw [Bool.eq_iff_iff, hRooted'.isCancelled_iff hIn', hRooted.isCancelled_iff (served_mem_handles hy),
    hFlag _ hOwn]
  have hEnded : m'.isEnded = m.isEnded := by
    unfold isEnded Host.isCancelled
    rw [Lifetimes.isCancelled_root hRooted'.root, Lifetimes.isCancelled_root hRooted.root,
      hGrows.lifetime, hFlag _ (Ne.symm hSession)]
  rw [hEnded]

/-- In every reachable state the table of open streams is exact. An entry belongs to a handler that has
not returned and still gets input; a stream that is no longer in the table has its input closed and its
lifetime cancelled. A handler that returns leaves every other stream and its entry alone, also one that
was opened under the same id. In a settled state, unless somebody cancelled the lifetime of a stream by
name, the table, the lifetimes and the history say the same about every stream, and the size of the
table is what can be counted from outside. Nothing is assumed about the envelopes that arrive. -/
theorem open_streams_exact {host : Host} {registry : Registry M S}
    {callTimeout : Option Duration} {capacity : Nat}
    (exec : Execution (Machine.new host registry callTimeout capacity) past m) :
    (∀ id i, (id, i) ∈ m.session.openStreams.entries →
      ∃ x, m.session.servedStreams[i]? = some x ∧ x.id = id ∧ x.result = none ∧
        x.inboxClosed = false) ∧
    (∀ i x, m.session.servedStreams[i]? = some x → ¬ IsOpen m.session i →
      x.inboxClosed = true ∧ m.isCancelled x.lifetime = true) ∧
    (∀ i result m', m.step? (.finishServed i result) = some m' → ∀ j, j ≠ i →
      (IsOpen m'.session j ↔ IsOpen m.session j) ∧
      m'.session.servedStreams[j]? = m.session.servedStreams[j]? ∧
      ∀ y, m.session.servedStreams[j]? = some y →
        m'.isCancelled y.lifetime = m.isCancelled y.lifetime) ∧
    (m.Settled → History.SparesServed past →
      (∀ i x, m.session.servedStreams[i]? = some x →
        (IsOpen m.session i ↔ m.isCancelled x.lifetime = false) ∧
        (m.isCancelled x.lifetime = false ↔ ¬ History.Ended past i)) ∧
      m.session.openStreams.size =
        m.session.servedStreams.countP fun x => !m.isCancelled x.lifetime) := by
  have hExact := exec.life.servingExact
  have hRooted := exec.rooted (rooted_new _ _ _ _)
  refine ⟨fun id i hMem => ?_, fun i x hx hGone => ?_, fun i result m' hStep j hj => ?_,
    fun hSettled hSpares => ?_⟩
  · have hGet := IdTable.get?_of_mem hExact.fits.nodup hMem
    obtain ⟨x, hx, rfl⟩ := hExact.fits.id id i hGet
    exact ⟨x, hx, rfl, hExact.here i x hx hGet⟩
  · rw [hExact.fits.isOpen_iff hx] at hGone
    exact ⟨hExact.gone i x hx hGone,
      Lifetimes.isCancelled_of_isFlagged (exec.goneFlagged i x hx hGone)⟩
  · have hFits' := (exec.step hStep).life.servingExact.fits
    have hStep' := hStep
    simp only [step?] at hStep'
    split at hStep'
    · next hServing =>
        cases hStep'
        obtain ⟨x, hx, _⟩ := isServing_iff.mp hServing
        obtain ⟨hSame, hEntry⟩ := finishServed_others hx result hj
        refine ⟨?_, hSame, fun y hy => finishServed_isCancelled hRooted hStep hx hj hy⟩
        constructor
        · rintro ⟨id, hMem⟩
          exact ⟨id, IdTable.mem_of_get? ((hEntry id).mp (IdTable.get?_of_mem hFits'.nodup hMem))⟩
        · rintro ⟨id, hMem⟩
          exact ⟨id, IdTable.mem_of_get?
            ((hEntry id).mpr (IdTable.get?_of_mem hExact.fits.nodup hMem))⟩
    · cases hStep'
  · have hLive : ∀ i x, m.session.servedStreams[i]? = some x →
        (IsOpen m.session i ↔ m.isCancelled x.lifetime = false) := by
      intro i x hx
      rw [hExact.fits.isOpen_iff hx, Bool.eq_false_iff, ne_eq,
        hRooted.isCancelled_iff (served_mem_handles hx), not_or]
      constructor
      · intro hOpen
        refine ⟨?_, fun hEnded => ?_⟩
        · rw [exec.open_unflagged hSpares hx hOpen]
          exact Bool.false_ne_true
        · -- A settled session that has ended takes no more envelopes, so its table is empty.
          have hConsuming : m.session.consuming = false := by
            have hStop := hSettled.consumer
            simpa [stopConsuming?, hEnded] using hStop
          rw [hExact.stopped hConsuming] at hOpen
          cases hOpen
      · rintro ⟨hUnflagged, _⟩
        by_contra hGone
        exact hUnflagged (exec.goneFlagged i x hx hGone)
    refine ⟨fun i x hx => ⟨hLive i x hx, ?_⟩, hExact.fits.size_eq hLive⟩
    rw [← hLive i x hx, hExact.fits.isOpen_iff hx, hExact.ended i x hx]

/-- A stream is closed, its id opens another one, and only then the first handler returns. The second
stream stays in the table. -/
theorem open_streams_of_reused_id : ∃ (past : History Unit Unit) (m : Machine Unit Unit),
    Execution (Machine.new (Host.new false) ⟨[], [⟨"A.c", (), true, true⟩]⟩ none 4) past m ∧
      m.Settled ∧ m.session.openStreams.entries = [(7, 1)] ∧
      (∃ x, m.session.servedStreams[1]? = some x ∧ x.id = 7 ∧ x.result = none ∧
        x.inboxClosed = false) ∧
      m.session.openStreams.size =
        m.session.servedStreams.countP fun x => !m.isCancelled x.lifetime := by
  let message : Envelope :=
    .request { id := 7, method := "A.c", payload := .ofValue [], isStream := true }
  let actions : List Action :=
    [.receive message, .receive (.streamClose 7), .receive message, .finishServed 0 (.ok ()),
      .advance 0]
  have hPlay : ((Machine.new (Host.new false) (⟨[], [⟨"A.c", (), true, true⟩]⟩ : Registry Unit Unit)
      none 4).play actions).map (fun r => (r.2.session.openStreams.entries, r.2.isSettled)) =
        some ([(7, 1)], true) := by decide +kernel
  obtain ⟨⟨past, m⟩, hRun, hFacts⟩ := Option.map_eq_some_iff.mp hPlay
  obtain ⟨hEntries, hSettled⟩ := Prod.mk.inj hFacts
  have exec := Execution.refl.play hRun
  have hSpares : History.SparesServed past := by
    intro q l hMem
    have hAction : Action.cancel l ∈ actions := play_actions hRun ▸ List.mem_map_of_mem hMem
    simp [actions] at hAction
  obtain ⟨hHere, _, _, hCounted⟩ := open_streams_exact exec
  refine ⟨_, m, exec, isSettled_iff.mp hSettled, hEntries, hHere 7 1 ?_,
    (hCounted (isSettled_iff.mp hSettled) hSpares).2⟩
  rw [hEntries]
  exact List.mem_singleton.mpr rfl

end PeerLink.Machine

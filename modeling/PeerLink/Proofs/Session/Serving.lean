import PeerLink.Proofs.IdTable
import PeerLink.Proofs.Lifetimes
import PeerLink.Proofs.Session.Frame

/-! What one action does to the streams that are served. A close, a bye, the end of the session and the
return of a handler end streams in the same way; they differ in the streams they end and in what is left
of the table. `ServedStep` lists everything an action can do. -/
namespace PeerLink

variable {M S : Type}

/-- The two records differ at most in queued messages and in whether a close was sent. -/
structure ServedStream.Alike (x y : ServedStream S) : Prop where
  id : y.id = x.id
  method : y.method = x.method
  handler : y.handler = x.handler
  lifetime : y.lifetime = x.lifetime
  inboxClosed : y.inboxClosed = x.inboxClosed
  result : y.result = x.result

theorem ServedStream.Alike.refl (x : ServedStream S) : x.Alike x :=
  ⟨rfl, rfl, rfl, rfl, rfl, rfl⟩

namespace Machine

/-! ### Ending streams -/

/-- Exactly the streams in `ended` have their input closed and their lifetime cancelled. -/
structure Closes (m m' : Machine M S) (ended : List ServedStreamId) : Prop where
  streams : ∀ j, m'.session.servedStreams[j]? = m.session.servedStreams[j]?.map fun x =>
    if j ∈ ended then { x with inboxClosed := true } else x
  next : m'.lifetimes.next = m.lifetimes.next
  parent? : ∀ l, m'.lifetimes.parent? l = m.lifetimes.parent? l
  isFlagged : ∀ l, m'.lifetimes.isFlagged l = true ↔ m.lifetimes.isFlagged l = true ∨
    l < m.lifetimes.next ∧ ∃ i ∈ ended, ∃ x, m.session.servedStreams[i]? = some x ∧ x.lifetime = l

theorem Closes.refl (m : Machine M S) : m.Closes m [] where
  streams j := by simp
  next := rfl
  parent? _ := rfl
  isFlagged l := by simp

theorem Closes.trans {m m' m'' : Machine M S} {ended ended' : List ServedStreamId}
    (h : m.Closes m' ended) (h' : m'.Closes m'' ended') : m.Closes m'' (ended ++ ended') where
  streams j := by
    rw [h'.streams, h.streams, Option.map_map]
    congr 1
    funext x
    by_cases hFirst : j ∈ ended <;> by_cases hSecond : j ∈ ended' <;> simp [hFirst, hSecond]
  next := h'.next.trans h.next
  parent? l := (h'.parent? l).trans (h.parent? l)
  isFlagged l := by
    have hSame : ∀ i : Nat,
        (∃ x : ServedStream S, m'.session.servedStreams[i]? = some x ∧ x.lifetime = l) ↔
          ∃ x : ServedStream S, m.session.servedStreams[i]? = some x ∧ x.lifetime = l := by
      intro i
      rw [h.streams]
      cases m.session.servedStreams[i]? with
      | none => simp
      | some x => by_cases hi : i ∈ ended <;> simp [hi]
    rw [h'.isFlagged, h.isFlagged, h.next]
    simp only [hSame, List.mem_append]
    constructor
    · rintro ((hl | ⟨hl, i, hi, hx⟩) | ⟨hl, i, hi, hx⟩)
      · exact .inl hl
      · exact .inr ⟨hl, i, .inl hi, hx⟩
      · exact .inr ⟨hl, i, .inr hi, hx⟩
    · rintro (hl | ⟨hl, i, hi | hi, hx⟩)
      · exact .inl (.inl hl)
      · exact .inl (.inr ⟨hl, i, hi, hx⟩)
      · exact .inr ⟨hl, i, hi, hx⟩

theorem closes_closeServed (m : Machine M S) (i : ServedStreamId) :
    m.Closes (m.closeServed i) [i] := by
  have hStreams : ∀ j, (m.closeServed i).session.servedStreams[j]? =
      m.session.servedStreams[j]?.map fun x =>
        if j ∈ [i] then { x with inboxClosed := true } else x := by
    intro j
    rw [closeServed_session, Session.modifyServed, List.getElem?_modify]
    by_cases hj : i = j
    · simp [hj]
    · simp [hj, Ne.symm hj]
  have hLifetimes : (m.closeServed i).lifetimes = m.lifetimes ∧ m.session.servedStreams[i]? = none ∨
      ∃ x, m.session.servedStreams[i]? = some x ∧
        (m.closeServed i).lifetimes = m.lifetimes.cancel x.lifetime := by
    unfold closeServed
    split
    · next hNone => exact .inl ⟨rfl, hNone⟩
    · next x hx => exact .inr ⟨x, hx, rfl⟩
  obtain ⟨he, hNone⟩ | ⟨x, hx, he⟩ := hLifetimes
  · refine ⟨hStreams, by rw [he], fun l => by rw [he], fun l => ?_⟩
    rw [he]
    simp [hNone]
  · refine ⟨hStreams, by simp [he], fun l => by simp [he], fun l => ?_⟩
    rw [he, Lifetimes.isFlagged_cancel]
    simp only [List.mem_singleton, exists_eq_left, hx, Option.some.injEq, exists_eq_left']
    constructor
    · rintro (hl | ⟨rfl, hl⟩)
      · exact .inl hl
      · exact .inr ⟨hl, rfl⟩
    · rintro (hl | ⟨hl, rfl⟩)
      · exact .inl hl
      · exact .inr ⟨rfl, hl⟩

theorem closes_closeAll (m : Machine M S) (entries : List (Int32 × ServedStreamId)) :
    m.Closes (entries.foldl (fun m e => m.closeServed e.2) m) (entries.map Prod.snd) := by
  induction entries generalizing m with
  | nil => exact .refl m
  | cons e rest ih => exact (closes_closeServed m e.2).trans (ih (m.closeServed e.2))

theorem closes_closeOpenStreams (m : Machine M S) :
    m.Closes m.closeOpenStreams (m.session.openStreams.entries.map Prod.snd) := by
  obtain ⟨hStreams, hNext, hParent, hFlagged⟩ := closes_closeAll m m.session.openStreams.entries
  exact ⟨hStreams, hNext, hParent, hFlagged⟩

/-- The streams that go when the handler of stream `i` returns: `i` itself, unless the entry for its id
is gone or belongs to another stream by now. -/
def removed (m : Machine M S) (i : ServedStreamId) (id : Int32) : List ServedStreamId :=
  if m.session.openStreams.get? id = some i then [i] else []

theorem closes_removeServed (m : Machine M S) (i : ServedStreamId) (id : Int32) :
    m.Closes (m.removeServed i id) (m.removed i id) := by
  unfold removeServed removed
  split
  · obtain ⟨hStreams, hNext, hParent, hFlagged⟩ := closes_closeServed m i
    exact ⟨hStreams, hNext, hParent, hFlagged⟩
  · exact .refl m

theorem removeServed_openStreams (m : Machine M S) (i : ServedStreamId) (id : Int32) :
    (m.removeServed i id).session.openStreams =
      if m.session.openStreams.get? id = some i then m.session.openStreams.erase id
      else m.session.openStreams := by
  unfold removeServed
  split
  · rw [session_onSession, closeServed_session]
    rfl
  · rfl

/-- What the return of a handler does besides the answer it sends: its entry goes if it still has one,
its lifetime is cancelled, and its result is kept. -/
theorem finishServed_effect {m : Machine M S} {i : ServedStreamId} {x : ServedStream S}
    (hx : m.session.servedStreams[i]? = some x) (result : Except Failure Unit) :
    (m.finishServed i result).session.openStreams = (m.removeServed i x.id).session.openStreams ∧
    (m.finishServed i result).lifetimes = (m.removeServed i x.id).lifetimes.cancel x.lifetime ∧
    ∃ closeSent : Bool, ∀ j, (m.finishServed i result).session.servedStreams[j]? =
      (m.removeServed i x.id).session.servedStreams[j]?.map fun y =>
        if j = i then { y with result := some result, closeSent := y.closeSent || closeSent }
        else y := by
  have hRest : (m.finishServed i result).session.openStreams = (m.retire i x result).session.openStreams ∧
      (m.finishServed i result).session.servedStreams =
        (m.retire i x result).session.servedStreams ∧
      (m.finishServed i result).lifetimes = (m.retire i x result).lifetimes := by
    rw [finishServed_eq hx]
    split <;> exact ⟨rfl, rfl, rfl⟩
  obtain ⟨hTable, hStreams, hLifetimes⟩ := hRest
  refine ⟨?_, ?_, result.isOk, fun j => ?_⟩
  · rw [hTable, retire_session]
  · rw [hLifetimes, retire_lifetimes]
  · rw [hStreams, retire_session, List.getElem?_modify]
    by_cases hj : i = j
    · simp [hj]
    · simp [hj, Ne.symm hj]

/-! ### One action -/

/-- The action ends the stream, unless that has happened before: a close with its id, a bye, the end of
the session, or the return of its handler. The table is not asked. -/
def Ends (m : Machine M S) (a : Action) (i : ServedStreamId) : Prop :=
  match a with
  | .receive (.streamClose id) => ∃ x, m.session.servedStreams[i]? = some x ∧ x.id = id
  | .receive .bye => i < m.session.servedStreams.length
  | .stop _ => i < m.session.servedStreams.length
  | .finishServed j _ => j = i
  | _ => False

/-- Ids are distinct in the table, and each leads to a stream that has it. -/
structure TableFits (s : Session M S) : Prop where
  nodup : s.openStreams.keys.Nodup
  id : ∀ id i, s.openStreams.get? id = some i → ∃ x, s.servedStreams[i]? = some x ∧ x.id = id

/-- Two entries for one stream are the same entry. -/
theorem TableFits.id_unique {s : Session M S} (h : TableFits s) {id id' : Int32} {i : ServedStreamId}
    (hi : s.openStreams.get? id = some i) (hi' : s.openStreams.get? id' = some i) : id = id' := by
  obtain ⟨x, hx, rfl⟩ := h.id id i hi
  obtain ⟨y, hy, rfl⟩ := h.id id' i hi'
  rw [hx] at hy
  cases hy
  rfl

theorem TableFits.lt_length {s : Session M S} (h : TableFits s) {i : ServedStreamId}
    (hi : i ∈ s.openStreams.entries.map Prod.snd) : i < s.servedStreams.length := by
  obtain ⟨⟨id, j⟩, he, rfl⟩ := List.mem_map.mp hi
  obtain ⟨x, hx, _⟩ := h.id id j (IdTable.get?_of_mem h.nodup he)
  exact (List.getElem?_eq_some_iff.mp hx).1

/-- What one action does to the streams that are served and to their table. What it does to the table
is said for a table that fits. -/
inductive ServedStep (m m' : Machine M S) (a : Action) : Prop where
  /-- At most messages and marks are passed on. -/
  | kept (f : ServedStreamId → ServedStream S → ServedStream S)
      (alike : ∀ j (x : ServedStream S), x.Alike (f j x))
      (streams : ∀ j, m'.session.servedStreams[j]? = m.session.servedStreams[j]?.map (f j))
      (table : m'.session.openStreams = m.session.openStreams)
      (spared : TableFits m.session → ∀ id i, m.session.openStreams.get? id = some i → ¬ m.Ends a i)
  /-- A message of the remote peer with an id that has no entry starts a handler. -/
  | opened (r : Request) (method : StreamMethod S) (cause : a = .receive (.request r))
      (isStream : r.isStream = true) (free : m.session.openStreams.get? r.id = none)
      (registered : m.session.registry.stream? r.method = some method)
      (next : m' = (m.addLifetime (some m.session.lifetime)).onSession fun s =>
        { s with
          openStreams := s.openStreams.insert r.id s.servedStreams.length
          servedStreams := s.servedStreams ++
            [{ id := r.id, method := r.method, handler := method.handler
               lifetime := m.lifetimes.next, inbox := [r.payload], inboxClosed := false
               closeSent := false, result := none }] })
  /-- The streams in `ended` leave the table while their handlers go on. -/
  | ended (ended : List ServedStreamId) (m₁ : Machine M S) (closes : m.Closes m₁ ended)
      (streams : m'.session.servedStreams = m₁.session.servedStreams)
      (flags : ∀ l, m₁.lifetimes.isFlagged l = true → m'.lifetimes.isFlagged l = true)
      (gone : TableFits m.session → ∀ i, i ∈ ended ↔
        (∃ id, m.session.openStreams.get? id = some i) ∧ m.Ends a i)
      (table : TableFits m.session → ∀ id i, m'.session.openStreams.get? id = some i ↔
        m.session.openStreams.get? id = some i ∧ i ∉ ended)
      (keys : m'.session.openStreams.keys.Sublist m.session.openStreams.keys)
  /-- A handler returns, and its stream leaves the table if it is still there. -/
  | finished (i : ServedStreamId) (result : Except Failure Unit) (x : ServedStream S)
      (cause : a = .finishServed i result) (found : m.session.servedStreams[i]? = some x)
      (running : x.result = none) (next : m' = m.finishServed i result)

theorem ServedStep.of_eq {m m' : Machine M S} {a : Action}
    (streams : m'.session.servedStreams = m.session.servedStreams)
    (table : m'.session.openStreams = m.session.openStreams)
    (spared : TableFits m.session → ∀ id i, m.session.openStreams.get? id = some i → ¬ m.Ends a i) :
    m.ServedStep m' a :=
  .kept (fun _ x => x) (fun _ x => .refl x) (fun j => by rw [streams]; simp) table spared

theorem ServedStep.of_modify {m m' : Machine M S} {a : Action} (i : ServedStreamId)
    (f : ServedStream S → ServedStream S) (alike : ∀ x : ServedStream S, x.Alike (f x))
    (streams : m'.session.servedStreams = m.session.servedStreams.modify i f)
    (table : m'.session.openStreams = m.session.openStreams)
    (spared : TableFits m.session → ∀ id i, m.session.openStreams.get? id = some i → ¬ m.Ends a i) :
    m.ServedStep m' a := by
  refine .kept (fun j x => if i = j then f x else x) (fun j x => ?_) (fun j => ?_) table spared
  · by_cases hj : i = j
    · simpa [hj] using alike x
    · simpa [hj] using ServedStream.Alike.refl x
  · rw [streams, List.getElem?_modify]
    by_cases hj : i = j <;> simp [hj]

theorem handleStream_served (m : Machine M S) (r : Request) (h : r.isStream = true) :
    m.ServedStep (m.handleStream r) (.receive (.request r)) := by
  obtain ⟨i, _, he⟩ | ⟨_, _, he⟩ | ⟨method, hFree, hMethod, he⟩ := handleStream_cases m r
  · rw [he]
    exact .of_modify i (fun x => { x with inbox := x.inbox ++ [r.payload] })
      (fun x => ⟨rfl, rfl, rfl, rfl, rfl, rfl⟩) rfl rfl fun _ _ _ _ h => h
  · rw [he]
    exact .of_eq rfl rfl fun _ _ _ _ h => h
  · exact .opened r method rfl h hFree hMethod he

theorem handleStreamClose_served (m : Machine M S) (id : Int32) :
    m.ServedStep (m.handleStreamClose id) (.receive (.streamClose id)) := by
  unfold handleStreamClose
  split
  · next i hi =>
      refine .ended [i] (m.closeServed i) (closes_closeServed m i) rfl (fun _ h => h)
        (fun hFits j => ?_) (fun hFits id' j => ?_) ?_
      · obtain ⟨x, hx, hId⟩ := hFits.id id i hi
        rw [List.mem_singleton]
        constructor
        · rintro rfl
          exact ⟨⟨id, hi⟩, x, hx, hId⟩
        · rintro ⟨⟨id', hj⟩, y, hy, rfl⟩
          obtain ⟨z, hz, rfl⟩ := hFits.id id' j hj
          rw [hy] at hz
          cases hz
          rw [hi] at hj
          exact (Option.some.inj hj).symm
      · rw [session_onSession, closeServed_session, IdTable.get?_erase, List.mem_singleton]
        by_cases hSame : id' = id
        · subst hSame
          simp [hi, eq_comm]
        · simp only [Session.modifyServed, hSame, if_false]
          refine ⟨fun hj => ⟨hj, ?_⟩, fun h => h.1⟩
          rintro rfl
          exact hSame (hFits.id_unique hj hi)
      · rw [session_onSession, closeServed_session, IdTable.keys_erase]
        exact List.filter_sublist
  · next hNone =>
      refine .of_eq rfl rfl fun hFits j i hi hEnds => ?_
      obtain ⟨x, hx, hClosed⟩ := hEnds
      obtain ⟨y, hy, rfl⟩ := hFits.id j i hi
      rw [hx] at hy
      cases hy
      rw [hClosed, hNone] at hi
      cases hi

/-- Ending all streams, as a bye does. -/
theorem closeOpenStreams_served {m m' : Machine M S} {a : Action}
    (table : m'.session.openStreams = .empty)
    (streams : m'.session.servedStreams = m.closeOpenStreams.session.servedStreams)
    (flags : ∀ l, m.closeOpenStreams.lifetimes.isFlagged l = true → m'.lifetimes.isFlagged l = true)
    (cause : ∀ i, m.Ends a i ↔ i < m.session.servedStreams.length) : m.ServedStep m' a := by
  have hMem : ∀ id i, m.session.openStreams.get? id = some i →
      i ∈ m.session.openStreams.entries.map Prod.snd := fun id i hi =>
    List.mem_map.mpr ⟨(id, i), IdTable.mem_of_get? hi, rfl⟩
  refine .ended _ _ (closes_closeOpenStreams m) streams flags (fun hFits i => ?_)
    (fun hFits id i => ?_) ?_
  · constructor
    · intro hi
      refine ⟨?_, (cause i).mpr (hFits.lt_length hi)⟩
      obtain ⟨⟨id, j⟩, he, rfl⟩ := List.mem_map.mp hi
      exact ⟨id, IdTable.get?_of_mem hFits.nodup he⟩
    · rintro ⟨⟨id, hi⟩, _⟩
      exact hMem id i hi
  · rw [table]
    constructor
    · intro h
      cases h
    · rintro ⟨hi, hNot⟩
      exact absurd (hMem id i hi) hNot
  · rw [table]
    exact List.nil_sublist _

theorem handle_served (m : Machine M S) (e : Envelope) :
    m.ServedStep (m.handle e) (.receive e) := by
  cases e with
  | request r =>
      simp only [handle]
      split
      · next hStream => exact handleStream_served m r hStream
      · obtain ⟨_, he⟩ | ⟨method, _, he⟩ := handleCall_cases m r
        · rw [he]
          exact .of_eq rfl rfl fun _ _ _ _ h => h
        · rw [he]
          exact .of_eq rfl rfl fun _ _ _ _ h => h
  | response r =>
      rw [handle]
      obtain ⟨c, _, he⟩ | ⟨c, _, he⟩ | ⟨_, he⟩ := deliver_cases m r
      · rw [he]
        exact .of_eq rfl rfl fun _ _ _ _ h => h
      · rw [he]
        exact .of_eq rfl rfl fun _ _ _ _ h => h
      · rw [he]
        exact .of_eq rfl rfl fun _ _ _ _ h => h
  | streamClose id => exact handleStreamClose_served m id
  | bye =>
      rw [handle]
      refine closeOpenStreams_served ?_ rfl (fun _ h => h) fun _ => Iff.rfl
      rw [closeOpenStreams_session]
  | opening _ => exact .of_eq rfl rfl fun _ _ _ _ h => h
  | openingAck _ => exact .of_eq rfl rfl fun _ _ _ _ h => h

theorem step?_served {m m' : Machine M S} {a : Action} (h : m.step? a = some m') :
    m.ServedStep m' a := by
  cases a with
  | closeServed i =>
      obtain ⟨_, _, _, rfl⟩ := closeByHandler?_eq_some h
      exact .of_modify i (fun x => { x with closeSent := true })
        (fun x => ⟨rfl, rfl, rfl, rfl, rfl, rfl⟩) rfl rfl fun _ _ _ _ h => h
  | receiveServed i =>
      cases h
      obtain ⟨_, _, rest, _, _, he⟩ | ⟨_, he⟩ := receiveServed_cases m i
      · rw [he]
        exact .of_modify i (fun x => { x with inbox := rest })
          (fun x => ⟨rfl, rfl, rfl, rfl, rfl, rfl⟩) rfl rfl fun _ _ _ _ h => h
      · rw [he]
        exact .of_eq rfl rfl fun _ _ _ _ h => h
  | finishServed i result =>
      obtain ⟨x, hx, hRunning, next⟩ := step?_finishServed_eq_some h
      exact .finished i result x rfl hx hRunning next
  | receive e =>
      obtain ⟨_, _, rfl⟩ := receive?_eq_some h
      exact handle_served m e
  | stop exhausted =>
      obtain ⟨_, _, rfl⟩ := stopConsuming?_eq_some h
      refine closeOpenStreams_served ?_ rfl (fun l hl => ?_) fun _ => Iff.rfl
      · rw [session_onSession, session_cancel, closeOpenStreams_session]
      · exact (Lifetimes.isFlagged_cancel _ _ l).mpr (.inl hl)
  | _ =>
      refine .of_eq ?_ ?_ fun _ _ _ _ h => h
      · rw [step?_frame h]
        rfl
      · rw [step?_frame h]
        rfl

end Machine

end PeerLink

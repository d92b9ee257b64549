import PeerLink.Proofs.Session.OpenStreams
import PeerLink.Proofs.Session.PendingTable

/-! Envelopes with different ids keep apart. A response finds the call or stream that has its id in one
table, a message or close of the remote peer finds a stream in the other. Each entry leads to something
that was given its id, and every stream has a lifetime of its own; so what an envelope does stays with
its id. All of this holds of the handling of an envelope in any state that a session can reach, whether
it still takes envelopes or not, and however often ids have come back. -/
namespace PeerLink

variable {M S : Type}

theorem map_modify_eq {α β : Type} (l : List α) (i : Nat) (f : α → α) {g : α → β}
    (h : ∀ x, g (f x) = g x) : (l.modify i f).map g = l.map g := by
  have hRetained : Retained (fun x y => g y = g x) l (l.modify i f) :=
    Retained.modify (R := fun x y => g y = g x) (fun _ => rfl) l i f fun x _ => h x
  exact hRetained.map_eq (List.length_modify f l i) fun _ _ hSame => hSame

/-- The id that an envelope is about, if it is about one. -/
def Envelope.id? : Envelope → Option Int32
  | .request r => some r.id
  | .response r => some r.id
  | .streamClose id => some id
  | _ => none

theorem Session.idOf?_congr {s s' : Session M S} (hCalls : s'.calls.map Call.id = s.calls.map Call.id)
    (hStreams : s'.clientStreams.map ClientStream.id = s.clientStreams.map ClientStream.id)
    (o : Owner) : s'.idOf? o = s.idOf? o := by
  cases o with
  | call c => rw [idOf?, idOf?, ← List.getElem?_map, hCalls, List.getElem?_map]
  | stream c => rw [idOf?, idOf?, ← List.getElem?_map, hStreams, List.getElem?_map]

/-- Each entry of the table leads to a call or stream that was given its id. -/
def PendingFits (s : Session M S) : Prop :=
  ∀ id slot, s.pending.get? id = some slot → s.idOf? slot.owner = some id

/-- Two entries for one call or stream are the same entry. -/
theorem PendingFits.id_unique {s : Session M S} (h : PendingFits s) {id id' : Int32}
    {slot slot' : Slot} (hSlot : s.pending.get? id = some slot)
    (hSlot' : s.pending.get? id' = some slot') (hOwner : slot.owner = slot'.owner) : id = id' := by
  have hId := h id slot hSlot
  rw [hOwner, h id' slot' hSlot'] at hId
  exact (Option.some.inj hId).symm

/-- Owners keep their ids, so a table fits as long as every entry had its owner before or is new. -/
theorem PendingFits.of_entries {s s' : Session M S} (h : PendingFits s)
    (kept : ∀ o id, s.idOf? o = some id → s'.idOf? o = some id)
    (entries : ∀ id slot', s'.pending.get? id = some slot' →
      (∃ slot, s.pending.get? id = some slot ∧ slot'.owner = slot.owner) ∨
        s'.idOf? slot'.owner = some id) : PendingFits s' := by
  intro id slot' hSlot'
  obtain ⟨slot, hSlot, hOwner⟩ | hNew := entries id slot' hSlot'
  · rw [hOwner]
    exact kept _ _ (h id slot hSlot)
  · exact hNew

namespace Machine

variable {m m' : Machine M S} {a : Action}

theorem PendingFits.step (hFits : PendingFits m.session) (h : m.step? a = some m') :
    PendingFits m'.session := by
  have hGrows := step?_grows h
  refine hFits.of_entries (fun o id => hGrows.idOf?) fun id slot' hSlot' => ?_
  cases step?_slotTurn h hSlot' with
  | kept before => exact .inl ⟨slot', before, rfl⟩
  | call x given _ calls => exact .inr (by simp [Slot.owner, Session.idOf?, calls, given])
  | stream x given streams => exact .inr (by simp [Slot.owner, Session.idOf?, streams, given])
  | used c _ before => exact .inl ⟨.call c true, before, rfl⟩

/-- What holds of the tables and the lifetimes in every state, however full the tables are. -/
structure Sound (m : Machine M S) : Prop where
  rooted : m.Rooted
  served : TableFits m.session
  pending : PendingFits m.session

theorem Execution.sound {host : Host} {registry : Registry M S} {callTimeout : Option Duration}
    {capacity : Nat} {past : History M S}
    (exec : Execution (Machine.new host registry callTimeout capacity) past m) : m.Sound := by
  refine ⟨exec.rooted (rooted_new _ _ _ _), exec.life.servingExact.fits, ?_⟩
  induction exec with
  | refl => nofun
  | step _ last ih => exact PendingFits.step ih last

/-! ### Handling an envelope keeps a session sound -/

theorem handle_lifetime (m : Machine M S) (e : Envelope) :
    (m.handle e).session.lifetime = m.session.lifetime := by
  rw [handle_session]
  cases e <;> rfl

/-- Ending streams leaves their lifetimes with them. -/
theorem Closes.servedLifetimes {ended : List ServedStreamId} (h : m.Closes m' ended) :
    m'.session.servedStreams.map ServedStream.lifetime =
      m.session.servedStreams.map ServedStream.lifetime := by
  refine Retained.map_eq (R := fun x y => y.lifetime = x.lifetime)
    (.of_map h.streams fun i x => ?_) (length_eq_of_map h.streams) fun _ _ h => h
  split <;> rfl

theorem handles_of_served (hRuns : m'.session.runs = m.session.runs)
    (hClients : m'.session.clientStreams = m.session.clientStreams)
    (hServed : m'.session.servedStreams.map ServedStream.lifetime =
      m.session.servedStreams.map ServedStream.lifetime) :
    m'.session.handles = m.session.handles := by
  unfold Session.handles
  rw [hRuns, hClients, hServed]

/-- A request that starts a handler gets a new lifetime. No other envelope does. -/
theorem handle_handles (m : Machine M S) (e : Envelope) :
    (m.handle e).session.handles = m.session.handles ∨
      (m.handle e).session.handles.Perm (m.lifetimes.next :: m.session.handles) ∧
        (m.handle e).lifetimes = m.lifetimes.add (some m.session.lifetime) := by
  cases e with
  | request r =>
      simp only [handle]
      split
      · obtain ⟨i, _, he⟩ | ⟨_, _, he⟩ | ⟨method, _, _, he⟩ := handleStream_cases m r
        · rw [he]
          exact .inl (handles_of_served rfl rfl (map_modify_eq _ i _ fun _ => rfl))
        · rw [he]
          exact .inl rfl
        · rw [he]
          refine .inr ⟨?_, rfl⟩
          have hLast := List.perm_append_singleton m.lifetimes.next m.session.handles
          simpa [Session.handles] using hLast
      · obtain ⟨_, he⟩ | ⟨method, _, he⟩ := handleCall_cases m r
        · rw [he]
          exact .inl rfl
        · rw [he]
          exact .inr ⟨by simp [Session.handles], rfl⟩
  | response r =>
      refine .inl ?_
      unfold Session.handles
      have hClients : (m.handle (.response r)).session.clientStreams.map ClientStream.lifetime =
          m.session.clientStreams.map ClientStream.lifetime := by
        obtain ⟨c, _, he⟩ | ⟨c, _, he⟩ | ⟨_, he⟩ := deliver_cases m r
        · rw [handle, he]
          rfl
        · rw [handle, he]
          exact map_modify_eq _ c _ fun _ => rfl
        · rw [handle, he]
          rfl
      rw [hClients, handle_session]
      rfl
  | streamClose id =>
      refine .inl ?_
      simp only [handle, handleStreamClose]
      split
      · next i _ =>
          refine handles_of_served ?_ ?_ (closes_closeServed m i).servedLifetimes
          · rw [session_onSession, closeServed_session]
            rfl
          · rw [session_onSession, closeServed_session]
            rfl
      · rfl
  | bye =>
      refine .inl (handles_of_served ?_ ?_ (closes_closeOpenStreams m).servedLifetimes)
      · rw [handle_session]
        rfl
      · rw [handle_session]
        rfl
  | opening _ => exact .inl rfl
  | openingAck _ => exact .inl rfl

theorem Rooted.handle (h : m.Rooted) (e : Envelope) : (m.handle e).Rooted :=
  h.grow (handle_lifetimes m e).grows (handle_lifetime m e) (handle_handles m e)

theorem TableFits.handle (h : TableFits m.session) (e : Envelope) :
    TableFits (m.handle e).session := by
  cases handle_served m e with
  | kept f alike streams table =>
      refine ⟨by rw [table]; exact h.nodup, fun id i hi => ?_⟩
      obtain ⟨x, hx, hId⟩ := h.id id i (table ▸ hi)
      exact ⟨f i x, by rw [streams, hx]; rfl, (alike i x).id.trans hId⟩
  | opened r method _ _ _ _ next =>
      rw [next]
      refine ⟨IdTable.nodup_keys_insert h.nodup _ _, fun id i hi => ?_⟩
      simp only [session_onSession, session_addLifetime, IdTable.get?_insert] at hi
      split at hi
      · next hSame =>
          cases hi
          exact ⟨_, List.getElem?_concat_length, hSame.symm⟩
      · obtain ⟨x, hx, hId⟩ := h.id id i hi
        exact ⟨x, by simp [List.getElem?_append_left (List.getElem?_eq_some_iff.mp hx).1, hx], hId⟩
  | ended ended m₁ closes streams _ _ table keys =>
      refine ⟨keys.nodup h.nodup, fun id i hi => ?_⟩
      obtain ⟨hOld, hNot⟩ := (table h id i).mp hi
      obtain ⟨x, hx, hId⟩ := h.id id i hOld
      exact ⟨x, by rw [streams, closes.streams, hx]; simp [hNot], hId⟩
  | finished _ _ _ cause => cases cause

theorem PendingFits.handle (h : PendingFits m.session) (e : Envelope) :
    PendingFits (m.handle e).session := by
  cases e with
  | response r =>
      rw [Machine.handle]
      obtain ⟨c, hSlot, he⟩ | ⟨c, _, he⟩ | ⟨_, he⟩ := deliver_cases m r
      · rw [he]
        refine h.of_entries (fun o id hId => ?_) fun id slot' hSlot' => .inl ?_
        · rw [← hId]
          apply Session.idOf?_congr
          · exact map_modify_eq _ c _ fun _ => rfl
          · rfl
        · simp only [session_onSession, Session.modifyCall, IdTable.get?_modify] at hSlot'
          split at hSlot'
          · next hSame =>
              rw [hSame, hSlot] at hSlot'
              cases hSlot'
              exact ⟨.call c true, hSame ▸ hSlot, rfl⟩
          · exact ⟨slot', hSlot', rfl⟩
      · rw [he]
        refine h.of_entries (fun o id hId => ?_) fun id slot' hSlot' => .inl ⟨slot', hSlot', rfl⟩
        rw [← hId]
        apply Session.idOf?_congr
        · rfl
        · exact map_modify_eq _ c _ fun _ => rfl
      · rw [he]
        exact h
  | _ =>
      rw [handle_session]
      exact h

theorem Sound.handle (h : m.Sound) (e : Envelope) : (m.handle e).Sound :=
  ⟨h.rooted.handle e, TableFits.handle h.served e, PendingFits.handle h.pending e⟩

/-! ### What an envelope leaves alone -/

/-- Whoever waits with the id is as before, and so is the stream that is open with it: what is queued for
it, and whether its lifetime is cancelled. -/
structure SameAt (m m' : Machine M S) (id : Int32) : Prop where
  slot : m'.session.pending.get? id = m.session.pending.get? id
  call : ∀ c isOpen, m.session.pending.get? id = some (.call c isOpen) →
    m'.session.calls[c]? = m.session.calls[c]?
  client : ∀ c, m.session.pending.get? id = some (.stream c) →
    m'.session.clientStreams[c]? = m.session.clientStreams[c]?
  entry : m'.session.openStreams.get? id = m.session.openStreams.get? id
  stream : ∀ k x, m.session.openStreams.get? id = some k → m.session.servedStreams[k]? = some x →
    m'.session.servedStreams[k]? = some x ∧ m'.isCancelled x.lifetime = m.isCancelled x.lifetime

/-- The calls and streams opened here, with their table and what has arrived for them, are as before. -/
structure SameWaiting (m m' : Machine M S) : Prop where
  pending : m'.session.pending = m.session.pending
  calls : m'.session.calls = m.session.calls
  clientStreams : m'.session.clientStreams = m.session.clientStreams

/-- The streams that are served, with their table and all lifetimes, are as before. -/
structure SameServing (m m' : Machine M S) : Prop where
  openStreams : m'.session.openStreams = m.session.openStreams
  servedStreams : m'.session.servedStreams = m.session.servedStreams
  lifetimes : m'.lifetimes = m.lifetimes

/-- Only responses reach those who wait for them. -/
theorem handle_sameWaiting (m : Machine M S) {e : Envelope} (h : ∀ r, e ≠ .response r) :
    m.SameWaiting (m.handle e) := by
  have hSame := handle_session m e
  refine ⟨?_, ?_, ?_⟩ <;>
    · rw [hSame]
      cases e with
      | response r => exact absurd rfl (h r)
      | _ => rfl

theorem deliver_sameServing (m : Machine M S) (r : Response) : m.SameServing (m.deliver r) := by
  obtain ⟨c, _, he⟩ | ⟨c, _, he⟩ | ⟨_, he⟩ := deliver_cases m r
  · rw [he]
    exact ⟨rfl, rfl, rfl⟩
  · rw [he]
    exact ⟨rfl, rfl, rfl⟩
  · rw [he]
    exact ⟨rfl, rfl, rfl⟩

/-- A close ends the stream that is open with its id. -/
theorem handleStreamClose_of_open {id : Int32} {k : ServedStreamId} {x : ServedStream S}
    (hk : m.session.openStreams.get? id = some k) (hx : m.session.servedStreams[k]? = some x) :
    m.handleStreamClose id =
      ((m.onSession fun s => s.modifyServed k fun x => { x with inboxClosed := true }).cancel
        x.lifetime).onSession fun s => { s with openStreams := s.openStreams.erase id } := by
  unfold handleStreamClose closeServed
  rw [hk]
  dsimp only
  rw [hx]

theorem handleStreamClose_cases (h : TableFits m.session) (id : Int32) :
    (∃ k x, m.session.openStreams.get? id = some k ∧ m.session.servedStreams[k]? = some x) ∨
    (m.session.openStreams.get? id = none ∧
      m.handleStreamClose id = m.log .unknownStreamClosed) := by
  unfold handleStreamClose
  split
  · next k hk =>
      obtain ⟨x, hx, _⟩ := h.id id k hk
      exact .inl ⟨k, x, hk, hx⟩
  · next hNone => exact .inr ⟨hNone, rfl⟩

/-- Lifetimes that a session hands out are cancelled one by one. -/
theorem Rooted.isCancelled_cancel (h : m.Rooted) {l k : LifetimeId} (hl : l ∈ m.session.handles)
    (hk : k ∈ m.session.handles) (hne : l ≠ k) :
    (m.lifetimes.cancel k).isCancelled l = m.lifetimes.isCancelled l := by
  have hFlag : ∀ l', l' ≠ k → (m.lifetimes.cancel k).isFlagged l' = m.lifetimes.isFlagged l' := by
    intro l' hne'
    rw [Bool.eq_iff_iff, Lifetimes.isFlagged_cancel]
    simp [hne']
  have hRoot := Lifetimes.isCancelled_root h.root
  have hRoot' := Lifetimes.isCancelled_root ((Lifetimes.parent?_cancel _ k _).trans h.root)
  rw [Lifetimes.isCancelled_child ((Lifetimes.parent?_cancel _ k l).trans (h.child l hl))
      (h.above l hl), Lifetimes.isCancelled_child (h.child l hl) (h.above l hl), hRoot, hRoot',
    hFlag l hne, hFlag _ (Nat.ne_of_lt (h.above k hk))]

/-- A response finds nobody but the one who waits with its id. -/
theorem Sound.deliver_sameAt (h : m.Sound) (r : Response) {j : Int32} (hne : j ≠ r.id) :
    m.SameAt (m.deliver r) j := by
  have hServing := deliver_sameServing m r
  refine ⟨?_, fun c isOpen hc => ?_, fun c hc => ?_, by rw [hServing.openStreams],
    fun k x _ hx => ⟨by rw [hServing.servedStreams, hx], ?_⟩⟩
  · obtain ⟨c, _, he⟩ | ⟨c, _, he⟩ | ⟨_, he⟩ := deliver_cases m r
    · rw [he]
      simp [Session.modifyCall, hne]
    · rw [he]
      rfl
    · rw [he]
      rfl
  · obtain ⟨d, hd, he⟩ | ⟨d, hd, he⟩ | ⟨_, he⟩ := deliver_cases m r
    · rw [he]
      refine List.getElem?_modify_ne _ _ fun hSame => hne ?_
      exact h.pending.id_unique hc hd (congrArg Owner.call hSame.symm)
    · rw [he]
      rfl
    · rw [he]
      rfl
  · obtain ⟨d, hd, he⟩ | ⟨d, hd, he⟩ | ⟨_, he⟩ := deliver_cases m r
    · rw [he]
      rfl
    · rw [he]
      refine List.getElem?_modify_ne _ _ fun hSame => hne ?_
      exact h.pending.id_unique hc hd (congrArg Owner.stream hSame.symm)
    · rw [he]
      rfl
  · rw [Host.isCancelled, hServing.lifetimes]
    rfl

theorem Rooted.isCancelled_add (h : m.Rooted) {k : ServedStreamId} {x : ServedStream S}
    (hx : m.session.servedStreams[k]? = some x) (parent : Option LifetimeId) :
    (m.lifetimes.add parent).isCancelled x.lifetime = m.lifetimes.isCancelled x.lifetime :=
  Lifetimes.isCancelled_add _ _ (h.lt_next (served_mem_handles hx))

/-- A call of the remote peer finds nobody at all. -/
theorem Sound.handleCall_sameAt (h : m.Sound) (r : Request) (j : Int32) :
    m.SameAt (m.handleCall r) j := by
  obtain ⟨_, he⟩ | ⟨method, _, he⟩ := handleCall_cases m r
  · rw [he]
    exact ⟨rfl, fun _ _ _ => rfl, fun _ _ => rfl, rfl, fun k x _ hx => ⟨hx, rfl⟩⟩
  · rw [he]
    exact ⟨rfl, fun _ _ _ => rfl, fun _ _ => rfl, rfl, fun k x _ hx =>
      ⟨hx, h.rooted.isCancelled_add hx _⟩⟩

theorem Sound.handleStream_sameAt (h : m.Sound) (r : Request) {j : Int32} (hne : j ≠ r.id) :
    m.SameAt (m.handleStream r) j := by
  obtain ⟨i, hi, he⟩ | ⟨_, _, he⟩ | ⟨method, _, _, he⟩ := handleStream_cases m r
  · rw [he]
    refine ⟨rfl, fun _ _ _ => rfl, fun _ _ => rfl, rfl, fun k x hk hx => ⟨?_, rfl⟩⟩
    refine (List.getElem?_modify_ne _ _ fun hSame => hne ?_).trans hx
    exact h.served.id_unique hk (hSame ▸ hi)
  · rw [he]
    exact ⟨rfl, fun _ _ _ => rfl, fun _ _ => rfl, rfl, fun k x _ hx => ⟨hx, rfl⟩⟩
  · rw [he]
    refine ⟨rfl, fun _ _ _ => rfl, fun _ _ => rfl, ?_, fun k x _ hx =>
      ⟨?_, h.rooted.isCancelled_add hx _⟩⟩
    · exact (IdTable.get?_insert _ _ _ _).trans (if_neg hne)
    · exact (List.getElem?_append_left (List.getElem?_eq_some_iff.mp hx).1).trans hx

theorem Sound.handleStreamClose_sameAt (h : m.Sound) {id j : Int32} (hne : j ≠ id) :
    m.SameAt (m.handleStreamClose id) j := by
  obtain ⟨i, y, hi, hy⟩ | ⟨_, he⟩ := handleStreamClose_cases h.served id
  · rw [handleStreamClose_of_open hi hy]
    refine ⟨rfl, fun _ _ _ => rfl, fun _ _ => rfl, ?_, fun k x hk hx => ?_⟩
    · exact (IdTable.get?_erase _ _ _).trans (if_neg hne)
    · have hOther : i ≠ k := fun hSame => hne (h.served.id_unique hk (hSame ▸ hi))
      refine ⟨(List.getElem?_modify_ne _ _ hOther).trans hx, ?_⟩
      refine h.rooted.isCancelled_cancel (served_mem_handles hx) (served_mem_handles hy) ?_
      exact fun hSame => hOther ((h.rooted.served_unique hy).2.2.2 k x hx hSame).symm
  · rw [he]
    exact ⟨rfl, fun _ _ _ => rfl, fun _ _ => rfl, rfl, fun k x _ hx => ⟨hx, rfl⟩⟩

/-- An envelope leaves alone whatever has another id. -/
theorem Sound.sameAt (h : m.Sound) {e : Envelope} {i j : Int32} (hId : e.id? = some i)
    (hne : j ≠ i) : m.SameAt (m.handle e) j := by
  cases e with
  | response r =>
      cases hId
      exact h.deliver_sameAt r hne
  | request r =>
      cases hId
      rw [Machine.handle]
      split
      · exact h.handleStream_sameAt r hne
      · exact h.handleCall_sameAt r j
  | streamClose k =>
      cases hId
      exact h.handleStreamClose_sameAt hne
  | bye | opening _ | openingAck _ => cases hId

/-! ### A bye -/

/-- A bye empties the table. The input of every stream that was in it is closed, its lifetime is
cancelled, and what is queued for its handler stays. -/
theorem Sound.handle_bye (h : m.Sound) {id : Int32} {k : ServedStreamId} {x : ServedStream S}
    (hk : m.session.openStreams.get? id = some k) (hx : m.session.servedStreams[k]? = some x) :
    (m.handle .bye).session.servedStreams[k]? = some { x with inboxClosed := true } ∧
      (m.handle .bye).isCancelled x.lifetime = true := by
  have hCloses := closes_closeOpenStreams m
  have hMem : k ∈ m.session.openStreams.entries.map Prod.snd :=
    List.mem_map.mpr ⟨(id, k), IdTable.mem_of_get? hk, rfl⟩
  refine ⟨?_, Lifetimes.isCancelled_of_isFlagged (hCloses.flagged h.rooted hx hMem)⟩
  exact (hCloses.streams k).trans (by rw [hx, Option.map_some, if_pos hMem])

theorem openStreams_handle_bye (m : Machine M S) :
    (m.handle .bye).session.openStreams = .empty := by
  rw [handle, closeOpenStreams_session]

/-- Ending all streams changes nothing where none is open. -/
theorem closeOpenStreams_of_empty (h : m.session.openStreams = .empty) :
    m.closeOpenStreams = m := by
  have hNone : m.session.openStreams.entries = [] := by rw [h]; rfl
  unfold closeOpenStreams
  rw [hNone, List.foldl_nil, ← h]
  rfl

end Machine

end PeerLink

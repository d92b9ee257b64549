import Mathlib.Algebra.Group.Nat.Defs
import Mathlib.Data.List.Nodup
import Mathlib.Data.List.Perm.Basic
import PeerLink.Proofs.Session.Handles
import PeerLink.Proofs.Session.Tickets

/-! The table of ids that wait for responses. It is the inverse of what the calls and streams themselves
say: an id leads to an owner exactly if that owner has this id and is not over. The table removes entries
by id and never asks whose they are. That no owner loses its entry to another comes from the ids alone,
which are all different as long as the counter has not gone round. -/
namespace PeerLink

variable {M S : Type}

/-! ### Lists with one changed entry -/

theorem bind_append_singleton {α β : Type} (l : List α) (x : α) (g : α → Option β) (j : Nat) :
    (l ++ [x])[j]?.bind g = if j = l.length then g x else l[j]?.bind g := by
  by_cases hj : j = l.length
  · simp [hj]
  · rw [if_neg hj]
    by_cases hLt : j < l.length
    · rw [List.getElem?_append_left hLt]
    · rw [List.getElem?_eq_none (by simp; omega), List.getElem?_eq_none (by omega)]

theorem bind_modify {α β : Type} (l : List α) (i : Nat) (f : α → α) (g : α → Option β) (j : Nat) :
    (l.modify i f)[j]?.bind g = if j = i then l[j]?.bind (g ∘ f) else l[j]?.bind g := by
  rw [List.getElem?_modify]
  by_cases hj : i = j
  · simp [hj, Option.bind_map]
  · simp [hj, Ne.symm hj]

theorem mem_modify {α : Type} {l : List α} {i : Nat} {f : α → α} {y : α} (h : y ∈ l.modify i f) :
    y ∈ l ∨ ∃ x, l[i]? = some x ∧ y = f x := by
  obtain ⟨j, hj⟩ := List.mem_iff_getElem?.mp h
  rw [List.getElem?_modify] at hj
  by_cases hij : i = j
  · subst hij
    obtain ⟨x, hx, rfl⟩ := Option.map_eq_some_iff.mp (by simpa using hj)
    exact .inr ⟨x, hx, rfl⟩
  · exact .inl (List.mem_iff_getElem?.mpr ⟨j, by simpa [hij] using hj⟩)

theorem filterMap_concat {α β : Type} (f : α → Option β) (l : List α) (x : α) :
    (l ++ [x]).filterMap f = l.filterMap f ++ (f x).toList := by
  rw [List.filterMap_append]
  cases h : f x <;> simp [h]

theorem filterMap_sublist_map {α β : Type} {g : α → Option β} {f : α → β}
    (h : ∀ x b, g x = some b → b = f x) (l : List α) : (l.filterMap g).Sublist (l.map f) := by
  induction l with
  | nil => exact List.Sublist.refl _
  | cons x rest ih =>
      cases hx : g x with
      | none =>
          rw [List.filterMap_cons_none hx]
          exact ih.cons _
      | some b =>
          rw [List.filterMap_cons_some hx, List.map_cons, h x b hx]
          exact ih.cons_cons _

theorem mem_filterMap_iff_getElem? {α β : Type} {g : α → Option β} {l : List α} {b : β} :
    b ∈ l.filterMap g ↔ ∃ i : Nat, l[i]?.bind g = some b := by
  rw [List.mem_filterMap]
  simp only [List.mem_iff_getElem?, Option.bind_eq_some_iff]
  constructor
  · rintro ⟨x, ⟨i, hi⟩, hx⟩
    exact ⟨i, x, hi, hx⟩
  · rintro ⟨i, x, hi, hx⟩
    exact ⟨x, ⟨i, hi⟩, hx⟩

/-! ### Who waits for what -/

/-- Who can have an entry in the table. -/
inductive Owner where
  | call (c : CallId)
  | stream (c : ClientStreamId)
  deriving DecidableEq, Repr

def Slot.owner : Slot → Owner
  | .call c _ => .call c
  | .stream c => .stream c

/-- The id of a call that has neither returned nor been dropped. -/
def Call.awaited? (x : Call) : Option Int32 :=
  if x.state.isOver then none else some x.id

/-- The id of a stream whose responses are still sorted. -/
def ClientStream.awaited? (x : ClientStream) : Option Int32 :=
  if x.ended then none else some x.id

namespace Session

/-- The id whose responses belong to the owner, as long as it is not over. -/
def awaited? (s : Session M S) : Owner → Option Int32
  | .call c => s.calls[c]?.bind Call.awaited?
  | .stream c => s.clientStreams[c]?.bind ClientStream.awaited?

/-- The id that the owner was given, be it over or not. -/
def idOf? (s : Session M S) : Owner → Option Int32
  | .call c => s.calls[c]?.map Call.id
  | .stream c => s.clientStreams[c]?.map ClientStream.id

/-- All ids that the session has ever given out. -/
def ids (s : Session M S) : List Int32 :=
  s.calls.map Call.id ++ s.clientStreams.map ClientStream.id

/-- How many ids the session has given out. -/
def allocated (s : Session M S) : Nat :=
  s.calls.length + s.clientStreams.length

theorem Grows.ids_eq {s s' : Session M S} (h : s.Grows s') (hCalls : s'.calls.length = s.calls.length)
    (hStreams : s'.clientStreams.length = s.clientStreams.length) :
    s'.ids = s.ids ∧ s'.allocated = s.allocated := by
  unfold ids allocated
  rw [h.calls.map_eq hCalls fun _ _ h => h.id, h.clientStreams.map_eq hStreams fun _ _ h => h.id,
    hCalls, hStreams]
  exact ⟨rfl, rfl⟩

theorem Grows.allocated_le {s s' : Session M S} (h : s.Grows s') : s.allocated ≤ s'.allocated :=
  Nat.add_le_add h.calls.length_le h.clientStreams.length_le

theorem idOf?_of_awaited? {s : Session M S} {o : Owner} {id : Int32}
    (h : s.awaited? o = some id) : s.idOf? o = some id := by
  cases o with
  | call c =>
      obtain ⟨x, hx, hId⟩ := Option.bind_eq_some_iff.mp h
      unfold Call.awaited? at hId
      split at hId
      · cases hId
      · rw [idOf?, hx, ← hId, Option.map_some]
  | stream c =>
      obtain ⟨x, hx, hId⟩ := Option.bind_eq_some_iff.mp h
      unfold ClientStream.awaited? at hId
      split at hId
      · cases hId
      · rw [idOf?, hx, ← hId, Option.map_some]

theorem mem_ids_of_idOf? {s : Session M S} {o : Owner} {id : Int32} (h : s.idOf? o = some id) :
    id ∈ s.ids := by
  cases o with
  | call c =>
      obtain ⟨x, hx, rfl⟩ := Option.map_eq_some_iff.mp h
      exact List.mem_append_left _ (List.mem_map_of_mem (List.mem_of_getElem? hx))
  | stream c =>
      obtain ⟨x, hx, rfl⟩ := Option.map_eq_some_iff.mp h
      exact List.mem_append_right _ (List.mem_map_of_mem (List.mem_of_getElem? hx))

/-- Where all ids are different, an id tells its owner. -/
theorem owner_unique {s : Session M S} (hNodup : s.ids.Nodup) {o o' : Owner} {id : Int32}
    (h : s.idOf? o = some id) (h' : s.idOf? o' = some id) : o = o' := by
  obtain ⟨hCalls, hStreams, hApart⟩ := List.nodup_append.mp hNodup
  cases o with
  | call c =>
      obtain ⟨x, hx, hId⟩ := Option.map_eq_some_iff.mp h
      cases o' with
      | call c' =>
          simp only [idOf?, ← List.getElem?_map] at h h'
          have hLt := (List.getElem?_eq_some_iff.mp h).1
          rw [(List.getElem?_inj hLt hCalls).mp (h.trans h'.symm)]
      | stream c' =>
          obtain ⟨y, hy, hId'⟩ := Option.map_eq_some_iff.mp h'
          exact absurd (hId.trans hId'.symm) (hApart _ (List.mem_map_of_mem (List.mem_of_getElem? hx))
            _ (List.mem_map_of_mem (List.mem_of_getElem? hy)))
  | stream c =>
      obtain ⟨x, hx, hId⟩ := Option.map_eq_some_iff.mp h
      cases o' with
      | call c' =>
          obtain ⟨y, hy, hId'⟩ := Option.map_eq_some_iff.mp h'
          exact absurd (hId'.trans hId.symm) (hApart _ (List.mem_map_of_mem (List.mem_of_getElem? hy))
            _ (List.mem_map_of_mem (List.mem_of_getElem? hx)))
      | stream c' =>
          simp only [idOf?, ← List.getElem?_map] at h h'
          have hLt := (List.getElem?_eq_some_iff.mp h).1
          rw [(List.getElem?_inj hLt hStreams).mp (h.trans h'.symm)]

/-- An owner keeps its id. -/
theorem Grows.idOf? {s s' : Session M S} (h : s.Grows s') {o : Owner} {id : Int32}
    (hId : s.idOf? o = some id) : s'.idOf? o = some id := by
  cases o with
  | call c =>
      obtain ⟨x, hx, rfl⟩ := Option.map_eq_some_iff.mp hId
      obtain ⟨y, hy, hKeeps⟩ := h.calls c x hx
      exact Option.map_eq_some_iff.mpr ⟨y, hy, hKeeps.id⟩
  | stream c =>
      obtain ⟨x, hx, rfl⟩ := Option.map_eq_some_iff.mp hId
      obtain ⟨y, hy, hKeeps⟩ := h.clientStreams c x hx
      exact Option.map_eq_some_iff.mpr ⟨y, hy, hKeeps.id⟩

/-- No other call or stream has ever had the id. -/
def OwnedBy (s : Session M S) (id : Int32) (o : Owner) : Prop :=
  ∀ o', s.idOf? o' = some id → o' = o

theorem ownedBy_of_nodup {s : Session M S} (hNodup : s.ids.Nodup) {c : ClientStreamId}
    {x : ClientStream} (found : s.clientStreams[c]? = some x) : s.OwnedBy x.id (.stream c) :=
  fun _ h => owner_unique hNodup h (by rw [idOf?, found, Option.map_some])

theorem Grows.ownedBy {s s' : Session M S} (h : s.Grows s') {id : Int32} {o : Owner}
    (hOwned : s'.OwnedBy id o) : s.OwnedBy id o :=
  fun o' ho' => hOwned o' (h.idOf? ho')

theorem OwnedBy.clientStream_eq {s : Session M S} {c c' : ClientStreamId} {x : ClientStream}
    {id : Int32} (hOwned : s.OwnedBy id (.stream c)) (found : s.clientStreams[c']? = some x)
    (hId : x.id = id) : c' = c :=
  Owner.stream.inj (hOwned (.stream c') (by rw [idOf?, found, Option.map_some, hId]))

/-- The table and the owners agree. -/
structure TableExact (s : Session M S) : Prop where
  entry : ∀ id o, (s.pending.get? id).map Slot.owner = some o ↔ s.awaited? o = some id
  keys : s.pending.keys.Nodup

/-- The table, the counter and the owners agree. -/
structure PendingExact (s : Session M S) : Prop where
  nextId : s.nextId = Int32.ofNat s.allocated
  ids : s.ids.Perm ((List.range s.allocated).map Int32.ofNat)
  entry : ∀ id o, (s.pending.get? id).map Slot.owner = some o ↔ s.awaited? o = some id
  keys : s.pending.keys.Nodup

theorem PendingExact.tableExact {s : Session M S} (h : s.PendingExact) : s.TableExact :=
  ⟨h.entry, h.keys⟩

theorem PendingExact.ids_nodup {s : Session M S} (h : s.PendingExact)
    (hSmall : s.allocated ≤ 2 ^ 32) : s.ids.Nodup := by
  rw [h.ids.nodup_iff]
  refine List.Nodup.map_on (fun a ha b hb he => ?_) List.nodup_range
  have hLeft := List.mem_range.mp ha
  have hRight := List.mem_range.mp hb
  exact IdTable.ofNat_inj_of_lt (by omega) (by omega) he

/-- The counter stands at an id that has never been given out, so the search for a free one ends where
it starts. -/
theorem PendingExact.free_nextId {s : Session M S} (h : s.PendingExact)
    (hSmall : s.allocated < 2 ^ 32) :
    s.nextId ∉ s.pending.keys ∧ s.pending.free s.nextId = s.nextId := by
  have hFresh : s.nextId ∉ s.pending.keys := by
    intro hMem
    obtain ⟨slot, hSlot⟩ := (IdTable.mem_keys_iff _ _).mp hMem
    have hOwner := (h.entry s.nextId slot.owner).mp (by rw [hSlot]; rfl)
    have hId := h.ids.mem_iff.mp (mem_ids_of_idOf? (idOf?_of_awaited? hOwner))
    rw [h.nextId] at hId
    obtain ⟨k, hk, he⟩ := List.mem_map.mp hId
    have hBefore := List.mem_range.mp hk
    exact Nat.ne_of_lt hBefore (IdTable.ofNat_inj_of_lt (by omega) hSmall he)
  exact ⟨hFresh, IdTable.free_of_not_mem hFresh⟩

theorem PendingExact.contains_iff {s : Session M S} (h : s.PendingExact) (id : Int32) :
    s.pending.contains id = true ↔ ∃ o, s.awaited? o = some id := by
  rw [IdTable.contains_iff, IdTable.mem_keys_iff]
  constructor
  · rintro ⟨slot, hSlot⟩
    exact ⟨slot.owner, (h.entry id slot.owner).mp (by rw [hSlot]; rfl)⟩
  · rintro ⟨o, ho⟩
    obtain ⟨slot, hSlot, _⟩ := Option.map_eq_some_iff.mp ((h.entry id o).mpr ho)
    exact ⟨slot, hSlot⟩

/-! ### Entries come, stay and go with their owners -/

variable {s s' : Session M S}

theorem awaited?_congr (calls : s'.calls = s.calls) (streams : s'.clientStreams = s.clientStreams)
    (o : Owner) : s'.awaited? o = s.awaited? o := by
  cases o <;> simp only [awaited?, calls, streams]

theorem awaited?_append_call {x : Call} (calls : s'.calls = s.calls ++ [x])
    (streams : s'.clientStreams = s.clientStreams) (o : Owner) :
    s'.awaited? o = if o = .call s.calls.length then x.awaited? else s.awaited? o := by
  cases o with
  | call j => simp only [awaited?, calls, bind_append_singleton, Owner.call.injEq]
  | stream j => simp only [awaited?, streams, reduceCtorEq, if_false]

theorem awaited?_append_stream {x : ClientStream} (calls : s'.calls = s.calls)
    (streams : s'.clientStreams = s.clientStreams ++ [x]) (o : Owner) :
    s'.awaited? o = if o = .stream s.clientStreams.length then x.awaited? else s.awaited? o := by
  cases o with
  | call j => simp only [awaited?, calls, reduceCtorEq, if_false]
  | stream j => simp only [awaited?, streams, bind_append_singleton, Owner.stream.injEq]

theorem awaited?_modify_call {c : CallId} {f : Call → Call} (calls : s'.calls = s.calls.modify c f)
    (streams : s'.clientStreams = s.clientStreams) (o : Owner) :
    s'.awaited? o = if o = .call c then s.calls[c]?.bind (Call.awaited? ∘ f) else s.awaited? o := by
  cases o with
  | call j =>
      simp only [awaited?, calls, bind_modify, Owner.call.injEq]
      split
      · next hj => rw [hj]
      · rfl
  | stream j => simp only [awaited?, streams, reduceCtorEq, if_false]

theorem awaited?_modify_stream {c : ClientStreamId} {f : ClientStream → ClientStream}
    (calls : s'.calls = s.calls) (streams : s'.clientStreams = s.clientStreams.modify c f)
    (o : Owner) : s'.awaited? o =
      if o = .stream c then s.clientStreams[c]?.bind (ClientStream.awaited? ∘ f)
      else s.awaited? o := by
  cases o with
  | call j => simp only [awaited?, calls, reduceCtorEq, if_false]
  | stream j =>
      simp only [awaited?, streams, bind_modify, Owner.stream.injEq]
      split
      · next hj => rw [hj]
      · rfl

theorem TableExact.same (h : s.TableExact)
    (entry : ∀ id, (s'.pending.get? id).map Slot.owner = (s.pending.get? id).map Slot.owner)
    (keys : s'.pending.keys = s.pending.keys) (awaited : ∀ o, s'.awaited? o = s.awaited? o) :
    s'.TableExact where
  entry id o := by rw [entry, awaited, h.entry]
  keys := by rw [keys]; exact h.keys

/-- An owner goes, and with it the entry for its id. -/
theorem TableExact.remove (h : s.TableExact) {o : Owner} {id : Int32}
    (owner : s.awaited? o = some id) (table : s'.pending = s.pending.erase id)
    (awaited : ∀ p, s'.awaited? p = if p = o then none else s.awaited? p) : s'.TableExact where
  entry j p := by
    have hEntry := (h.entry id o).mpr owner
    rw [table, awaited, IdTable.get?_erase]
    by_cases hj : j = id
    · -- The entry belonged to `o`, so nobody else has the id.
      subst hj
      simp only [if_true, Option.map_none]
      constructor
      · nofun
      · intro hp
        split at hp
        · cases hp
        · next hne =>
            have hOther := (h.entry j p).mpr hp
            rw [hEntry] at hOther
            exact absurd (Option.some.inj hOther).symm hne
    · rw [if_neg hj, h.entry]
      by_cases hp : p = o
      · subst hp
        simp only [if_true]
        constructor
        · intro hOther
          rw [owner] at hOther
          exact absurd (Option.some.inj hOther).symm hj
        · nofun
      · rw [if_neg hp]
  keys := by rw [table]; exact IdTable.nodup_keys_erase h.keys id

/-- A new owner gets an id that is free. -/
theorem TableExact.insert (h : s.TableExact) {slot : Slot} {id : Int32} (free : id ∉ s.pending.keys)
    (table : s'.pending = s.pending.insert id slot)
    (awaited : ∀ p, s'.awaited? p = if p = slot.owner then some id else s.awaited? p)
    (fresh : s.awaited? slot.owner = none) : s'.TableExact := by
  have hNobody : ∀ p, s.awaited? p ≠ some id := by
    intro p hp
    obtain ⟨x, hx, _⟩ := Option.map_eq_some_iff.mp ((h.entry id p).mpr hp)
    exact free ((IdTable.mem_keys_iff _ _).mpr ⟨x, hx⟩)
  refine ⟨fun j p => ?_, ?_⟩
  · rw [table, awaited, IdTable.get?_insert]
    by_cases hj : j = id
    · subst hj
      simp only [if_true, Option.map_some, Option.some.injEq]
      constructor
      · rintro rfl
        rw [if_pos rfl]
      · intro hp
        split at hp
        · next he => exact he.symm
        · exact absurd hp (hNobody p)
    · rw [if_neg hj, h.entry]
      by_cases hp : p = slot.owner
      · rw [if_pos hp, hp, fresh]
        constructor
        · nofun
        · intro he
          exact absurd (Option.some.inj he).symm hj
      · rw [if_neg hp]
  · rw [table]
    exact IdTable.nodup_keys_insert h.keys id slot

end Session

namespace Machine

variable {m m' : Machine M S} {a : Action}

theorem Overs.unfinished {c : CallId} {call : Call} {state : CallState} (h : m.Overs c call a state)
    (hTracked : Tracked m.session) (found : m.session.calls[c]? = some call) :
    call.state.isOver = false ∧ state.isOver = true := by
  cases h with
  | dropped unfinished => exact ⟨unfinished, rfl⟩
  | returned waiting _ => exact ⟨by rw [waiting]; rfl, rfl⟩
  | refused advance send sender =>
      obtain ⟨call', hCall, hState⟩ := hTracked.advancing advance send sender
      rw [found] at hCall
      cases hCall
      exact ⟨by rw [hState]; rfl, rfl⟩

/-- The action takes an id. -/
def Action.takesId : Action → Bool
  | .call .. => true
  | .openStream _ => true
  | _ => false

/-- Whenever an id was taken, not all of them were in use. -/
def History.HasRoom (past : History M S) : Prop :=
  ∀ x ∈ past, x.2.takesId = true → x.1.session.pending.size < 2 ^ 32

instance (past : History M S) : Decidable past.HasRoom :=
  inferInstanceAs (Decidable (∀ x ∈ past, _ → _))

/-- The counter moves on when an id is taken, and not otherwise. -/
theorem step?_counter (h : m.step? a = some m') :
    (m'.session.nextId = m.session.nextId ∧ m'.session.ids = m.session.ids ∧
      m'.session.allocated = m.session.allocated) ∨
    (a.takesId = true ∧ m'.session.nextId = m.session.pending.free m.session.nextId + 1 ∧
      m'.session.ids.Perm (m.session.ids ++ [m.session.pending.free m.session.nextId]) ∧
      m'.session.allocated = m.session.allocated + 1) := by
  have hGrows := step?_grows h
  cases step?_owners h with
  | started id method payload timeout lifetime cause free calls streams _ nextId =>
      refine .inr ⟨by rw [cause]; rfl, free ▸ nextId, ?_, ?_⟩
      · simp only [Session.ids, calls, streams, free, List.map_append, List.map_singleton,
          List.append_assoc]
        exact List.Perm.append_left _ List.perm_append_comm
      · simp only [Session.allocated, calls, streams, List.length_append, List.length_singleton]
        omega
  | opened id method cause free calls streams _ nextId =>
      refine .inr ⟨by rw [cause]; rfl, free ▸ nextId, ?_, ?_⟩
      · simp [Session.ids, calls, streams, free]
      · simp only [Session.allocated, calls, streams, List.length_append, List.length_singleton]
        omega
  | kept calls streams _ nextId =>
      exact .inl ⟨nextId, hGrows.ids_eq (by rw [calls]) (by rw [streams])⟩
  | callOver _ _ _ _ _ calls streams _ nextId =>
      exact .inl ⟨nextId, hGrows.ids_eq (by rw [calls, List.length_modify]) (by rw [streams])⟩
  | waits _ _ _ _ _ _ _ _ calls streams _ nextId =>
      exact .inl ⟨nextId, hGrows.ids_eq (by rw [calls, List.length_modify]) (by rw [streams])⟩
  | answered _ _ _ _ calls streams _ nextId =>
      exact .inl ⟨nextId, hGrows.ids_eq (by rw [calls, List.length_modify]) (by rw [streams])⟩
  | passed _ _ _ calls streams _ nextId =>
      exact .inl ⟨nextId, hGrows.ids_eq (by rw [calls]) (by rw [streams, List.length_modify])⟩
  | streamOver _ _ _ _ _ _ _ calls streams _ nextId =>
      exact .inl ⟨nextId, hGrows.ids_eq (by rw [calls]) (by rw [streams, List.length_modify])⟩

theorem step?_allocated_le (h : m.step? a = some m') :
    m'.session.allocated ≤ m.session.allocated + 1 := by
  obtain ⟨_, _, hCount⟩ | ⟨_, _, _, hCount⟩ := step?_counter h <;> omega

/-- The table stays exact, if the id that is taken was free. -/
theorem tableExact_step (hExact : m.session.TableExact) (hTracked : Tracked m.session)
    (h : m.step? a = some m')
    (hFree : m.session.allocated < m'.session.allocated →
      m.session.pending.free m.session.nextId ∉ m.session.pending.keys) :
    m'.session.TableExact := by
  cases step?_owners h with
  | kept calls streams table nextId =>
      exact hExact.same (fun id => by rw [table]) (by rw [table]) (Session.awaited?_congr calls streams)
  | started id method payload timeout lifetime _ free calls streams table nextId =>
      have hGrown : m.session.allocated < m'.session.allocated := by
        simp only [Session.allocated, calls, streams, List.length_append, List.length_singleton]
        omega
      refine hExact.insert (free ▸ hFree hGrown) table
        (Session.awaited?_append_call calls streams) ?_
      simp [Session.awaited?, Slot.owner]
  | opened id method _ free calls streams table nextId _ =>
      have hGrown : m.session.allocated < m'.session.allocated := by
        simp only [Session.allocated, calls, streams, List.length_append, List.length_singleton]
        omega
      refine hExact.insert (free ▸ hFree hGrown) table
        (Session.awaited?_append_stream calls streams) ?_
      simp [Session.awaited?, Slot.owner]
  | callOver c call state found cause calls streams table nextId =>
      obtain ⟨hUnfinished, hOver⟩ := cause.unfinished hTracked found
      refine hExact.remove (o := .call c) ?_ table fun o => ?_
      · simp [Session.awaited?, found, Call.awaited?, hUnfinished]
      · rw [Session.awaited?_modify_call calls streams, found]
        simp [Call.awaited?, hOver]
  | waits c outbound t x _ advance send sender calls streams table nextId =>
      refine hExact.same (fun id => by rw [table]) (by rw [table]) fun o => ?_
      obtain ⟨call, hCall, hState⟩ := hTracked.advancing advance send sender
      rw [Session.awaited?_modify_call calls streams]
      split
      · next ho => simp [ho, Session.awaited?, hCall, Call.awaited?, hState, CallState.isOver]
      · rfl
  | answered c r _ found calls streams table nextId =>
      refine hExact.same (fun id => ?_) (by rw [table, IdTable.keys_modify]) fun o => ?_
      · rw [table, IdTable.get?_modify]
        split
        · next hId =>
            rw [hId, found]
            rfl
        · rfl
      · rw [Session.awaited?_modify_call calls streams]
        split
        · next ho =>
            rw [ho]
            rfl
        · rfl
  | passed c f alike calls streams table nextId =>
      refine hExact.same (fun id => by rw [table]) (by rw [table]) fun o => ?_
      have hSame : ClientStream.awaited? ∘ f = ClientStream.awaited? := by
        funext x
        simp [ClientStream.awaited?, (alike x).ended, (alike x).id]
      rw [Session.awaited?_modify_stream calls streams, hSame]
      split
      · next ho =>
          rw [ho]
          rfl
      · rfl
  | streamOver c x f found unended _ alike calls streams table nextId _ =>
      refine hExact.remove (o := .stream c) ?_ table fun o => ?_
      · simp [Session.awaited?, found, ClientStream.awaited?, unended]
      · rw [Session.awaited?_modify_stream calls streams, found]
        simp [ClientStream.awaited?]

theorem pendingExact_step (hExact : m.session.PendingExact) (hTracked : Tracked m.session)
    (h : m.step? a = some m') (hSmall : m'.session.allocated ≤ 2 ^ 32) :
    m'.session.PendingExact := by
  have hTable := tableExact_step hExact.tableExact hTracked h fun hGrown => by
    obtain ⟨hFresh, hFree⟩ := hExact.free_nextId (Nat.lt_of_lt_of_le hGrown hSmall)
    rwa [hFree]
  obtain ⟨hNext, hIds, hCount⟩ | ⟨_, hNext, hIds, hCount⟩ := step?_counter h
  · refine ⟨?_, ?_, hTable.entry, hTable.keys⟩
    · rw [hNext, hCount, hExact.nextId]
    · rw [hIds, hCount]
      exact hExact.ids
  · have hId : m.session.pending.free m.session.nextId = Int32.ofNat m.session.allocated :=
      (hExact.free_nextId (by omega)).2.trans hExact.nextId
    rw [hId] at hNext hIds
    refine ⟨?_, ?_, hTable.entry, hTable.keys⟩
    · rw [hNext, hCount, Int32.ofNat_add]
      rfl
    · rw [hCount, List.range_succ, List.map_append, List.map_singleton]
      exact hIds.trans (hExact.ids.append_right _)

theorem pendingExact_new (registry : Registry M S) (callTimeout : Option Duration) (capacity : Nat)
    (lifetime : LifetimeId) : (Session.new registry callTimeout capacity lifetime).PendingExact := by
  refine ⟨rfl, List.Perm.refl _, fun id o => ?_, List.nodup_nil⟩
  cases o <;> simp [Session.new, Session.awaited?]

theorem Life.pendingExact {registry : Registry M S} {callTimeout : Option Duration} {capacity : Nat}
    {lifetime : LifetimeId} {s : Session M S} {past : History M S}
    (life : Life (Session.new registry callTimeout capacity lifetime) past s)
    (hSmall : s.allocated ≤ 2 ^ 32) : s.PendingExact := by
  induction life with
  | refl => exact pendingExact_new _ _ _ _
  | step prior last ih =>
      have hBefore := (step?_grows last).allocated_le
      exact pendingExact_step (ih (Nat.le_trans hBefore hSmall)) (prior.tracked (tracked_new _ _ _ _))
        last hSmall

/-- The table is exact even where the counter has gone round. -/
theorem Life.tableExact {registry : Registry M S} {callTimeout : Option Duration} {capacity : Nat}
    {lifetime : LifetimeId} {s : Session M S} {past : History M S}
    (life : Life (Session.new registry callTimeout capacity lifetime) past s)
    (hRoom : past.HasRoom) : s.TableExact := by
  induction life with
  | refl => exact (pendingExact_new _ _ _ _).tableExact
  | step prior last ih =>
      obtain ⟨hBefore, hNow⟩ := List.forall_mem_append.mp hRoom
      refine tableExact_step (ih hBefore) (prior.tracked (tracked_new _ _ _ _)) last fun hGrown => ?_
      obtain ⟨_, _, hCount⟩ | ⟨hTakes, _⟩ := step?_counter last
      · exact absurd hGrown (by omega)
      · exact IdTable.free_not_mem (hNow _ (List.mem_singleton.mpr rfl) hTakes) _

theorem Life.ids_nodup {registry : Registry M S} {callTimeout : Option Duration} {capacity : Nat}
    {lifetime : LifetimeId} {s : Session M S} {past : History M S}
    (life : Life (Session.new registry callTimeout capacity lifetime) past s)
    (hSmall : s.allocated ≤ 2 ^ 32) : s.ids.Nodup :=
  (life.pendingExact hSmall).ids_nodup hSmall

/-! ### Counting the entries -/

/-- A stream whose responses are no longer sorted has its lifetime cancelled. -/
def EndedFlagged (m : Machine M S) : Prop :=
  ∀ x ∈ m.session.clientStreams, x.ended = true → m.lifetimes.isFlagged x.lifetime = true

theorem EndedFlagged.step (hEnded : m.EndedFlagged) (hRooted : m.Rooted)
    (h : m.step? a = some m') : m'.EndedFlagged := by
  have hFlags := (step?_lifetimes_grow h).isFlagged
  have hSame : m'.session.clientStreams = m.session.clientStreams → m'.EndedFlagged := by
    intro he y hy hy'
    rw [he] at hy
    exact hFlags _ (hEnded y hy hy')
  cases step?_owners h with
  | kept _ streams => exact hSame streams
  | started _ _ _ _ _ _ _ _ streams => exact hSame streams
  | callOver _ _ _ _ _ _ streams => exact hSame streams
  | waits _ _ _ _ _ _ _ _ _ streams => exact hSame streams
  | answered _ _ _ _ _ streams => exact hSame streams
  | opened id method _ _ _ streams =>
      intro y hy hy'
      rw [streams] at hy
      rcases List.mem_append.mp hy with hy | hy
      · exact hFlags _ (hEnded y hy hy')
      · rw [List.mem_singleton.mp hy] at hy'
        cases hy'
  | passed c f alike _ streams =>
      intro y hy hy'
      rw [streams] at hy
      obtain hy | ⟨x, hx, rfl⟩ := mem_modify hy
      · exact hFlags _ (hEnded y hy hy')
      · rw [(alike x).ended] at hy'
        rw [(alike x).lifetime]
        exact hFlags _ (hEnded x (List.mem_of_getElem? hx) hy')
  | streamOver c x f found _ _ alike _ streams _ _ lifetimes =>
      intro y hy hy'
      rw [streams] at hy
      obtain hy | ⟨z, hz, rfl⟩ := mem_modify hy
      · exact hFlags _ (hEnded y hy hy')
      · rw [found] at hz
        cases hz
        have hHandle : x.lifetime ∈ m.session.handles :=
          List.mem_append_left _ (List.mem_append_right _
            (List.mem_map_of_mem (List.mem_of_getElem? found)))
        rw [lifetimes, (alike x).lifetime, Lifetimes.isFlagged_cancel]
        exact .inr ⟨rfl, hRooted.lt_next hHandle⟩

theorem Execution.endedFlagged {start : Machine M S} {past : History M S} (hRooted : start.Rooted)
    (hStart : start.EndedFlagged) (exec : Execution start past m) : m.EndedFlagged := by
  induction exec with
  | refl => exact hStart
  | step prior last ih => exact ih.step (prior.rooted hRooted) last

/-- The ids in the table are those of the owners that are not over, each once. -/
theorem pending_size_eq (h : m.session.PendingExact) (hSmall : m.session.allocated ≤ 2 ^ 32) :
    m.session.pending.size = m.session.calls.countP (fun x => !x.state.isOver) +
      m.session.clientStreams.countP fun x => !x.ended := by
  let live := m.session.calls.filterMap Call.awaited? ++
    m.session.clientStreams.filterMap ClientStream.awaited?
  have hNodup : live.Nodup := by
    refine (h.ids_nodup hSmall).sublist ((filterMap_sublist_map ?_ _).append
      (filterMap_sublist_map ?_ _))
    · intro x id hx
      unfold Call.awaited? at hx
      split at hx <;> cases hx
      rfl
    · intro x id hx
      unfold ClientStream.awaited? at hx
      split at hx <;> cases hx
      rfl
  have hMem : ∀ id, id ∈ m.session.pending.keys ↔ id ∈ live := by
    intro id
    rw [← IdTable.contains_iff, h.contains_iff, List.mem_append, mem_filterMap_iff_getElem?,
      mem_filterMap_iff_getElem?]
    constructor
    · rintro ⟨o, ho⟩
      cases o with
      | call c => exact .inl ⟨c, ho⟩
      | stream c => exact .inr ⟨c, ho⟩
    · rintro (⟨c, hc⟩ | ⟨c, hc⟩)
      · exact ⟨.call c, hc⟩
      · exact ⟨.stream c, hc⟩
  have hPerm := (List.perm_ext_iff_of_nodup h.keys hNodup).mpr hMem
  rw [← IdTable.length_keys, hPerm.length_eq, List.length_append,
    List.length_filterMap_eq_countP, List.length_filterMap_eq_countP]
  congr 2
  · funext x
    cases hx : x.state.isOver <;> simp [Call.awaited?, hx]
  · funext x
    cases hx : x.ended <;> simp [ClientStream.awaited?, hx]

/-! ### The table in every reachable state -/

/-- In every reachable state the table of ids is exact. Its entries are the ids of the calls that have
neither returned nor been dropped and of the streams whose responses are still sorted; each leads to its
one owner; and no two owners, past or present, have the same id. An action takes an entry away only
together with its own owner. In a settled state the size of the table is what can be counted from
outside. The ids must not have gone round; nothing else is assumed. -/
theorem pending_table_exact {host : Host} {registry : Registry M S}
    {callTimeout : Option Duration} {capacity : Nat} {past : History M S}
    (exec : Execution (Machine.new host registry callTimeout capacity) past m)
    (hSmall : m.session.allocated < 2 ^ 31) :
    (∀ id, m.session.pending.contains id = true ↔ ∃ o, m.session.awaited? o = some id) ∧
    (∀ id slot, m.session.pending.get? id = some slot →
      ∀ o, m.session.awaited? o = some id ↔ o = slot.owner) ∧
    (∀ o o' id, m.session.idOf? o = some id → m.session.idOf? o' = some id → o = o') ∧
    (∀ a m', m.step? a = some m' → ∀ o id, m.session.awaited? o = some id →
      m'.session.awaited? o = some id ∧ (m'.session.pending.get? id).map Slot.owner = some o ∨
        m'.session.awaited? o = none ∧ m'.session.pending.contains id = false) ∧
    (m.Settled → m.session.pending.size = m.session.calls.countP (fun x => !x.state.isOver) +
      m.session.clientStreams.countP fun x => !m.isCancelled x.lifetime) := by
  have hExact := exec.life.pendingExact (by omega)
  refine ⟨hExact.contains_iff, fun id slot hSlot o => ?_, fun o o' id => ?_,
    fun a m' hStep o id hOwner => ?_, fun hSettled => ?_⟩
  · rw [← hExact.entry, hSlot, Option.map_some, Option.some.injEq, eq_comm]
  · exact Session.owner_unique (hExact.ids_nodup (by omega))
  · have hCount := step?_allocated_le hStep
    have hExact' := (exec.step hStep).life.pendingExact (by omega)
    have hId := (step?_grows hStep).idOf? (Session.idOf?_of_awaited? hOwner)
    cases hOwner' : m'.session.awaited? o with
    | some id' =>
        have hSame := Session.idOf?_of_awaited? hOwner'
        rw [hId] at hSame
        cases hSame
        exact .inl ⟨rfl, (hExact'.entry id o).mpr hOwner'⟩
    | none =>
        refine .inr ⟨rfl, Bool.eq_false_iff.mpr fun hContains => ?_⟩
        obtain ⟨p, hp⟩ := (hExact'.contains_iff id).mp hContains
        have hSame := Session.owner_unique (hExact'.ids_nodup (by omega)) hId
          (Session.idOf?_of_awaited? hp)
        rw [hSame, hp] at hOwner'
        cases hOwner'
  · have hRooted := exec.rooted (rooted_new _ _ _ _)
    have hEnded := exec.endedFlagged (rooted_new _ _ _ _) fun x hx => by cases hx
    rw [pending_size_eq hExact (by omega)]
    congr 1
    apply List.countP_congr
    intro x hx
    obtain ⟨c, hc⟩ := List.mem_iff_getElem?.mp hx
    cases hEnds : x.ended with
    | true =>
        have hCancelled : m.isCancelled x.lifetime = true :=
          Lifetimes.isCancelled_of_isFlagged (hEnded x hx hEnds)
        simp [hCancelled]
    | false =>
        have hLive : m.isCancelled x.lifetime = false := by
          apply Bool.eq_false_iff.mpr
          intro hCancelled
          have hPoll := hSettled.clientStreams c
          simp [pollClient?, hc, hEnds, hCancelled] at hPoll
        simp [hLive]

/-- A call and a stream are under way, a second call was dropped, and nothing moves by itself: two
entries are left, and they can be counted. -/
theorem pending_table_of_two : ∃ (past : History Unit Unit) (m : Machine Unit Unit),
    Execution (Machine.new (Host.new false) Registry.empty none 4) past m ∧ m.Settled ∧
      m.session.pending.size = 2 ∧
      (∀ id, m.session.pending.contains id = true ↔ ∃ o, m.session.awaited? o = some id) ∧
      m.session.pending.size = m.session.calls.countP (fun x => !x.state.isOver) +
        m.session.clientStreams.countP fun x => !m.isCancelled x.lifetime := by
  have hPlay : ((Machine.new (Host.new false) (Registry.empty : Registry Unit Unit) none 4).play
      [.call "A.b" (.ofValue []) none none, .openStream "A.c",
        .call "A.b" (.ofValue []) none none, .dropCall 1, .advance 0]).map
      (fun r => (r.2.session.pending.size, r.2.session.allocated, r.2.isSettled)) =
        some (2, 3, true) := by decide +kernel
  obtain ⟨⟨past, m⟩, hRun, hFacts⟩ := Option.map_eq_some_iff.mp hPlay
  simp only [Prod.mk.injEq] at hFacts
  obtain ⟨hSize, hAllocated, hSettled⟩ := hFacts
  have exec := Execution.refl.play hRun
  obtain ⟨hContains, _, _, _, hCount⟩ := pending_table_exact exec (by omega)
  exact ⟨_, m, exec, isSettled_iff.mp hSettled, hSize, hContains, hCount (isSettled_iff.mp hSettled)⟩

end Machine

end PeerLink

import Mathlib.Algebra.BigOperators.Group.Finset.Basic
import Mathlib.Algebra.BigOperators.Group.Finset.Piecewise
import PeerLink.Proofs.Session.Unnumbered

/-! Envelopes with different ids can be handled in either order. What an envelope does to a session is
what it does to the session without numbers (`Sound.unnumbered_handle`), one elementary change at a time;
and there it makes no difference which of two comes first. -/
namespace PeerLink

variable {M S : Type}

namespace Machine

variable {m m' : Machine M S}

/-! ### Leaving the numbers away -/

def servedView (m : Machine M S) (x : ServedStream S) : ServedView S :=
  ⟨x.id, x.method, x.handler, x.inbox, x.inboxClosed, x.closeSent, x.result,
    m.isCancelled x.lifetime⟩

def runView (m : Machine M S) (x : Run M) : RunView M :=
  ⟨x.id, x.method, x.handler, x.payload, x.result, m.isCancelled x.lifetime⟩

def served? (m : Machine M S) (k : ServedStreamId) : Option (ServedView S) :=
  m.session.servedStreams[k]?.map m.servedView

def openNumbers (m : Machine M S) : List ServedStreamId :=
  m.session.openStreams.entries.map Prod.snd

/-- The stream with the number, if it is no longer open. -/
def leftAt (m : Machine M S) (k : ServedStreamId) : Multiset (ServedView S) :=
  if k ∈ m.openNumbers then 0 else ↑(m.served? k).toList

def unnumbered (m : Machine M S) : Unnumbered M S where
  registry := m.session.registry
  ended := m.isEnded
  pending := m.session.pending
  calls := m.session.calls
  clientStreams := m.session.clientStreams
  streams id := (m.session.openStreams.get? id).bind m.served?
  left := ∑ k ∈ Finset.range m.session.servedStreams.length, m.leftAt k
  runs := ↑(m.session.runs.map m.runView)
  refusals := ↑m.session.refusals
  journal := ↑m.journal

theorem mem_openNumbers (h : TableFits m.session) (k : ServedStreamId) :
    k ∈ m.openNumbers ↔ ∃ id, m.session.openStreams.get? id = some k := by
  constructor
  · intro hMem
    obtain ⟨⟨id, j⟩, he, rfl⟩ := List.mem_map.mp hMem
    exact ⟨id, IdTable.get?_of_mem h.nodup he⟩
  · rintro ⟨id, hk⟩
    exact List.mem_map.mpr ⟨(id, k), IdTable.mem_of_get? hk, rfl⟩

/-- The lifetimes that were handed out before are cancelled or not, as before. -/
structure SameCancelled (m m' : Machine M S) : Prop where
  ended : m'.isEnded = m.isEnded
  handle : ∀ l ∈ m.session.handles, m'.isCancelled l = m.isCancelled l

theorem SameCancelled.served? (h : m.SameCancelled m') {k : ServedStreamId}
    (hk : m'.session.servedStreams[k]? = m.session.servedStreams[k]?) :
    m'.served? k = m.served? k := by
  unfold Machine.served?
  rw [hk]
  cases hx : m.session.servedStreams[k]? with
  | none => rfl
  | some x =>
      simp only [Option.map_some, servedView, h.handle _ (served_mem_handles hx)]

theorem SameCancelled.runs (h : m.SameCancelled m') :
    m.session.runs.map m'.runView = m.session.runs.map m.runView := by
  refine List.map_congr_left fun x hx => ?_
  have hMem : x.lifetime ∈ m.session.handles :=
    List.mem_append_left _ (List.mem_append_left _ (List.mem_map_of_mem hx))
  simp only [runView, h.handle _ hMem]

/-- A lifetime that belongs to nothing yet does not show. -/
theorem Rooted.addLifetime_unnumbered (h : m.Rooted) (parent : Option LifetimeId) :
    (m.addLifetime parent).unnumbered = m.unnumbered := by
  have hSame : m.SameCancelled (m.addLifetime parent) :=
    ⟨Lifetimes.isCancelled_add _ _ (Lifetimes.lt_next_of_parent? h.root),
      fun _ hl => Lifetimes.isCancelled_add _ _ (h.lt_next hl)⟩
  have hServed : (m.addLifetime parent).served? = m.served? :=
    funext fun k => hSame.served? rfl
  have hLeft : ∀ k, (m.addLifetime parent).leftAt k = m.leftAt k := by
    intro k
    rw [leftAt, hServed]
    rfl
  ext1
  case ended => exact hSame.ended
  case streams => simp only [unnumbered, hServed, session_addLifetime]
  case left => simp only [unnumbered, session_addLifetime, hLeft]
  case runs => simp only [unnumbered, session_addLifetime, hSame.runs]
  all_goals rfl

/-- A new lifetime is cancelled exactly if the session has ended. -/
theorem Rooted.isCancelled_new (h : m.Rooted) :
    (m.addLifetime (some m.session.lifetime)).isCancelled m.lifetimes.next = m.isEnded := by
  have hLt := Lifetimes.lt_next_of_parent? h.root
  have hFlag : (m.lifetimes.add (some m.session.lifetime)).isFlagged m.lifetimes.next = false := by
    rw [Lifetimes.isFlagged_add]
    exact Bool.eq_false_iff.mpr fun hl => Nat.lt_irrefl _ (Lifetimes.lt_next_of_isFlagged hl)
  have hChild := Lifetimes.isCancelled_child
    (Lifetimes.parent?_add_next m.lifetimes (some m.session.lifetime)) hLt
  rw [hFlag, Bool.false_or, Lifetimes.isCancelled_add _ _ hLt] at hChild
  exact hChild

/-! ### What an envelope does without numbers -/

theorem coe_concat {α : Type} (l : List α) (x : α) : (↑(l ++ [x]) : Multiset α) = ↑l + {x} :=
  (Multiset.coe_add l [x]).symm

theorem log_unnumbered (m : Machine M S) (event : LogEvent) :
    (m.log event).unnumbered =
      { m.unnumbered with journal := m.unnumbered.journal + {event} } := by
  ext1
  case journal => exact coe_concat _ _
  all_goals rfl

theorem deliver_unnumbered (m : Machine M S) (r : Response) :
    (m.deliver r).unnumbered = m.unnumbered.deliver r := by
  unfold deliver Unnumbered.deliver Unnumbered.taker?
  have hPending : m.unnumbered.pending = m.session.pending := rfl
  rw [hPending]
  cases m.session.pending.get? r.id with
  | none => exact log_unnumbered m _
  | some slot =>
      cases slot with
      | call c isOpen =>
          cases isOpen with
          | false => exact log_unnumbered m _
          | true => rfl
      | stream c => rfl

theorem refuse_unnumbered (m : Machine M S) (event : LogEvent) (id : Int32) (error : RemoteError) :
    ((m.log event).refuse id error).unnumbered =
      m.unnumbered.apply id (Reaction.refuse (m.unnumbered.streams id) event id error) := by
  ext1
  case streams => exact (Function.update_eq_self id m.unnumbered.streams).symm
  case left => exact (add_zero _).symm
  case runs => exact (add_zero _).symm
  case refusals => exact coe_concat _ _
  case journal => exact coe_concat _ _
  all_goals rfl

theorem startRun_unnumbered (m : Machine M S) (x : Run M) :
    (m.onSession fun s => { s with runs := s.runs ++ [x] }).unnumbered =
      { m.unnumbered with runs := m.unnumbered.runs + {m.runView x} } := by
  ext1
  case runs =>
    refine Eq.trans ?_ (coe_concat (m.session.runs.map m.runView) (m.runView x))
    exact congrArg _ List.map_append
  all_goals rfl

theorem Sound.handleCall_unnumbered (h : m.Sound) (r : Request) :
    (m.handleCall r).unnumbered = m.unnumbered.act r.id (.call r) := by
  have hRegistry : m.unnumbered.registry = m.session.registry := rfl
  unfold Unnumbered.act Reaction.call
  rw [hRegistry]
  obtain ⟨hNone, he⟩ | ⟨method, hMethod, he⟩ := handleCall_cases m r
  · rw [he, hNone]
    exact refuse_unnumbered m _ _ _
  · rw [he, hMethod, startRun_unnumbered, h.rooted.addLifetime_unnumbered, runView,
      h.rooted.isCancelled_new]
    simp only [Unnumbered.apply, Function.update_eq_self, add_zero]
    rfl

/-- The stream with one id changes, and those with other ids do not. -/
theorem streams_update {id : Int32} {v : Option (ServedView S)}
    (hTable : ∀ j, j ≠ id → m'.session.openStreams.get? j = m.session.openStreams.get? j)
    (hServed : ∀ j k, j ≠ id → m.session.openStreams.get? j = some k → m'.served? k = m.served? k)
    (hHere : (m'.session.openStreams.get? id).bind m'.served? = v) :
    m'.unnumbered.streams = Function.update m.unnumbered.streams id v := by
  funext j
  by_cases hj : j = id
  · subst hj
    rw [Function.update_self]
    exact hHere
  · rw [Function.update_of_ne hj]
    simp only [unnumbered, hTable j hj]
    exact Option.bind_congr fun k hk => hServed j k hj hk

theorem leftAt_congr {k : ServedStreamId} (hOpen : k ∈ m'.openNumbers ↔ k ∈ m.openNumbers)
    (hServed : m'.served? k = m.served? k) : m'.leftAt k = m.leftAt k := by
  simp only [leftAt, hOpen, hServed]

/-- An open stream changes, and the others do not. If it is open no more, it is one that is left. -/
theorem left_update {i : ServedStreamId} {v : Multiset (ServedView S)}
    (hLength : m'.session.servedStreams.length = m.session.servedStreams.length)
    (hi : i < m.session.servedStreams.length) (hOpen : i ∈ m.openNumbers)
    (hOther : ∀ k, k ≠ i → m'.leftAt k = m.leftAt k) (hHere : m'.leftAt i = v) :
    m'.unnumbered.left = m.unnumbered.left + v := by
  have hBefore : m.leftAt i = 0 := if_pos hOpen
  have hEach : ∀ k, m'.leftAt k = m.leftAt k + if k = i then v else 0 := by
    intro k
    by_cases hk : k = i
    · rw [hk, hHere, hBefore, if_pos rfl, zero_add]
    · rw [hOther k hk, if_neg hk, add_zero]
  simp only [unnumbered, hLength, hEach, Finset.sum_add_distrib, Finset.sum_ite_eq',
    Finset.mem_range, hi, if_true]

/-- A message reaches the stream that is open with its id. -/
theorem push_unnumbered (h : TableFits m.session) {id : Int32} {i : ServedStreamId}
    {x : ServedStream S} (hi : m.session.openStreams.get? id = some i)
    (hx : m.session.servedStreams[i]? = some x) (p : Payload) :
    (m.onSession fun s => s.modifyServed i fun x => { x with inbox := x.inbox ++ [p] }).unnumbered =
      { m.unnumbered with
        streams := Function.update m.unnumbered.streams id
          (some { m.servedView x with inbox := x.inbox ++ [p] }) } := by
  have hOther : ∀ k, k ≠ i → (m.onSession fun s => s.modifyServed i fun x =>
      { x with inbox := x.inbox ++ [p] }).served? k = m.served? k := fun k hk =>
    congrArg (Option.map m.servedView) (List.getElem?_modify_ne _ _ (Ne.symm hk))
  have hHere : (m.onSession fun s => s.modifyServed i fun x =>
      { x with inbox := x.inbox ++ [p] }).served? i =
        some { m.servedView x with inbox := x.inbox ++ [p] } := by
    simp only [served?, session_onSession, Session.modifyServed, List.getElem?_modify_eq, hx]
    rfl
  have hOpen : i ∈ m.openNumbers := (mem_openNumbers h i).mpr ⟨id, hi⟩
  ext1
  case streams =>
    apply streams_update
    · exact fun _ _ => rfl
    · exact fun j k hj hk => hOther k fun hSame => hj (h.id_unique (hSame ▸ hk) hi)
    · exact (congrArg (Option.bind · _) hi).trans hHere
  case left =>
    refine (left_update (v := 0) ?_ ?_ hOpen ?_ ?_).trans (add_zero _)
    · exact List.length_modify _ _ _
    · exact (List.getElem?_eq_some_iff.mp hx).1
    · exact fun k hk => leftAt_congr Iff.rfl (hOther k hk)
    · exact if_pos hOpen
  all_goals rfl

/-- A stream is opened with an id that none is open with. -/
theorem open_unnumbered (h : TableFits m.session) {id : Int32}
    (hFree : m.session.openStreams.get? id = none) (x : ServedStream S) :
    (m.onSession fun s =>
      { s with
        openStreams := s.openStreams.insert id s.servedStreams.length
        servedStreams := s.servedStreams ++ [x] }).unnumbered =
      { m.unnumbered with
        streams := Function.update m.unnumbered.streams id (some (m.servedView x)) } := by
  generalize hNext : (m.onSession fun s =>
      { s with
        openStreams := s.openStreams.insert id s.servedStreams.length
        servedStreams := s.servedStreams ++ [x] }) = m'
  have hTable : m'.session.openStreams =
      m.session.openStreams.insert id m.session.servedStreams.length := by
    subst hNext
    rfl
  have hStreams : m'.session.servedStreams = m.session.servedStreams ++ [x] := by
    subst hNext
    rfl
  have hServed : ∀ k < m.session.servedStreams.length, m'.served? k = m.served? k := by
    subst hNext
    exact fun k hk => congrArg (Option.map m.servedView) (List.getElem?_append_left hk)
  have hHere : m'.served? m.session.servedStreams.length = some (m.servedView x) := by
    subst hNext
    exact congrArg (Option.map m.servedView) List.getElem?_concat_length
  have hOpen : m'.openNumbers = m.openNumbers ++ [m.session.servedStreams.length] := by
    rw [openNumbers, hTable, IdTable.insert, IdTable.erase_of_get?_eq_none hFree, List.map_append]
    rfl
  ext1
  case streams =>
    apply streams_update
    · exact fun j hj => by rw [hTable, IdTable.get?_insert, if_neg hj]
    · intro j k _ hk
      obtain ⟨y, hy, _⟩ := h.id j k hk
      exact hServed k (List.getElem?_eq_some_iff.mp hy).1
    · rw [hTable, IdTable.get?_insert, if_pos rfl]
      exact hHere
  case left =>
    have hLength : m'.session.servedStreams.length = m.session.servedStreams.length + 1 := by
      rw [hStreams, List.length_append, List.length_singleton]
    have hNew : m'.leftAt m.session.servedStreams.length = 0 := if_pos (by rw [hOpen]; simp)
    have hOld : ∀ k ∈ Finset.range m.session.servedStreams.length, m'.leftAt k = m.leftAt k := by
      intro k hk
      have hLt := Finset.mem_range.mp hk
      exact leftAt_congr (by rw [hOpen]; simp [Nat.ne_of_lt hLt]) (hServed k hLt)
    simp only [unnumbered, hLength, Finset.sum_range_succ, hNew, add_zero]
    exact Finset.sum_congr rfl hOld
  all_goals
    subst hNext
    rfl

theorem Sound.handleStream_unnumbered (h : m.Sound) (r : Request) :
    (m.handleStream r).unnumbered = m.unnumbered.act r.id (.stream r) := by
  have hRegistry : m.unnumbered.registry = m.session.registry := rfl
  unfold Unnumbered.act Reaction.stream
  rw [hRegistry]
  obtain ⟨i, hi, he⟩ | ⟨hFree, hNone, he⟩ | ⟨method, hFree, hMethod, he⟩ := handleStream_cases m r
  · obtain ⟨x, hx, _⟩ := h.served.id r.id i hi
    have hEntry : m.unnumbered.streams r.id = some (m.servedView x) := by
      simp [unnumbered, hi, served?, hx]
    rw [he, hEntry, push_unnumbered h.served hi hx]
    simp only [Unnumbered.apply, add_zero]
    rfl
  · have hEntry : m.unnumbered.streams r.id = none := by simp [unnumbered, hFree]
    rw [he, hEntry, hNone, refuse_unnumbered, hEntry]
  · have hEntry : m.unnumbered.streams r.id = none := by simp [unnumbered, hFree]
    have hFits : TableFits (m.addLifetime (some m.session.lifetime)).session := h.served
    rw [he, hEntry, hMethod, open_unnumbered hFits hFree, h.rooted.addLifetime_unnumbered,
      servedView, h.rooted.isCancelled_new]
    simp only [Unnumbered.apply, add_zero]
    rfl

/-- The session does not end with one of its streams. -/
theorem Rooted.isEnded_cancel_handle (h : m.Rooted) {l : LifetimeId} (hl : l ∈ m.session.handles) :
    (m.cancel l).isEnded = m.isEnded := by
  have hRoot := Lifetimes.isCancelled_root ((Lifetimes.parent?_cancel m.lifetimes l _).trans h.root)
  have hFlag : (m.lifetimes.cancel l).isFlagged m.session.lifetime =
      m.lifetimes.isFlagged m.session.lifetime := by
    rw [Bool.eq_iff_iff, Lifetimes.isFlagged_cancel]
    simp [Nat.ne_of_lt (h.above l hl)]
  exact hRoot.trans (hFlag.trans (Lifetimes.isCancelled_root h.root).symm)

/-- A stream is closed. -/
theorem Sound.close_unnumbered (h : m.Sound) {id : Int32} {i : ServedStreamId}
    {x : ServedStream S} (hi : m.session.openStreams.get? id = some i)
    (hx : m.session.servedStreams[i]? = some x) :
    (m.handleStreamClose id).unnumbered =
      { m.unnumbered with
        streams := Function.update m.unnumbered.streams id none
        left := m.unnumbered.left +
          {{ m.servedView x with inboxClosed := true, cancelled := true }} } := by
  have hFits := TableFits.handle h.served (.streamClose id)
  rw [Machine.handle] at hFits
  generalize hNext : m.handleStreamClose id = m' at hFits ⊢
  have hMem := served_mem_handles hx
  rw [handleStreamClose_of_open hi hx] at hNext
  have hTable : m'.session.openStreams = m.session.openStreams.erase id := by
    subst hNext
    rfl
  have hStreams : m'.session.servedStreams =
      m.session.servedStreams.modify i fun x => { x with inboxClosed := true } := by
    subst hNext
    rfl
  have hCancelled : ∀ l, m'.isCancelled l = (m.lifetimes.cancel x.lifetime).isCancelled l := by
    subst hNext
    exact fun _ => rfl
  have hServed : ∀ k, k ≠ i → m'.served? k = m.served? k := by
    intro k hk
    rw [served?, served?, hStreams, List.getElem?_modify_ne _ _ (Ne.symm hk)]
    refine Option.map_congr fun y hy => ?_
    have hOther : y.lifetime ≠ x.lifetime := fun hSame =>
      hk ((h.rooted.served_unique hx).2.2.2 k y hy hSame)
    rw [servedView, hCancelled, h.rooted.isCancelled_cancel (served_mem_handles hy) hMem hOther]
    rfl
  have hHere : m'.served? i =
      some { m.servedView x with inboxClosed := true, cancelled := true } := by
    have hFlag : (m.lifetimes.cancel x.lifetime).isFlagged x.lifetime = true :=
      (Lifetimes.isFlagged_cancel _ _ _).mpr (.inr ⟨rfl, h.rooted.lt_next hMem⟩)
    rw [served?, hStreams, List.getElem?_modify_eq, hx]
    simp only [Option.map_eq_map, Option.map_some, servedView, hCancelled,
      Lifetimes.isCancelled_of_isFlagged hFlag]
  have hOpen : ∀ k, k ∈ m'.openNumbers ↔ k ∈ m.openNumbers ∧ k ≠ i := by
    intro k
    rw [mem_openNumbers hFits, mem_openNumbers h.served]
    simp only [hTable, IdTable.get?_erase]
    constructor
    · rintro ⟨j, hj⟩
      split at hj
      · cases hj
      · next hne => exact ⟨⟨j, hj⟩, fun hSame => hne (h.served.id_unique (hSame ▸ hj) hi)⟩
    · rintro ⟨⟨j, hj⟩, hk⟩
      refine ⟨j, ?_⟩
      rw [if_neg fun hSame => hk (Option.some.inj ((hSame ▸ hj).symm.trans hi)), hj]
  ext1
  case ended =>
    subst hNext
    exact h.rooted.isEnded_cancel_handle hMem
  case streams =>
    apply streams_update
    · exact fun j hj => by rw [hTable, IdTable.get?_erase, if_neg hj]
    · exact fun j k hj hk => hServed k fun hSame => hj (h.served.id_unique (hSame ▸ hk) hi)
    · rw [hTable, IdTable.get?_erase, if_pos rfl]
      rfl
  case left =>
    apply left_update
    · rw [hStreams, List.length_modify]
    · exact (List.getElem?_eq_some_iff.mp hx).1
    · exact (mem_openNumbers h.served i).mpr ⟨id, hi⟩
    · exact fun k hk => leftAt_congr (by simp [hOpen, hk]) (hServed k hk)
    · rw [leftAt, if_neg (by simp [hOpen]), hHere]
      rfl
  case runs =>
    have hRuns : m'.session.runs = m.session.runs := by
      subst hNext
      rfl
    have hSame : m.session.runs.map m'.runView = m.session.runs.map m.runView := by
      refine List.map_congr_left fun y hy => ?_
      have hMemRun : y.lifetime ∈ m.session.runs.map Run.lifetime := List.mem_map_of_mem hy
      have hOther : y.lifetime ≠ x.lifetime := fun hSame =>
        (h.rooted.served_unique hx).2.1 (hSame ▸ hMemRun)
      rw [runView, hCancelled, h.rooted.isCancelled_cancel
        (List.mem_append_left _ (List.mem_append_left _ hMemRun)) hMem hOther]
      rfl
    simp only [unnumbered, hRuns, hSame]
  all_goals
    subst hNext
    rfl

theorem Sound.handleStreamClose_unnumbered (h : m.Sound) (id : Int32) :
    (m.handleStreamClose id).unnumbered = m.unnumbered.act id .close := by
  unfold Unnumbered.act Reaction.close
  obtain ⟨i, x, hi, hx⟩ | ⟨hNone, he⟩ := handleStreamClose_cases h.served id
  · have hEntry : m.unnumbered.streams id = some (m.servedView x) := by
      simp [unnumbered, hi, served?, hx]
    rw [h.close_unnumbered hi hx, hEntry]
    simp only [Unnumbered.apply, add_zero]
  · have hEntry : m.unnumbered.streams id = none := by simp [unnumbered, hNone]
    rw [he, hEntry, log_unnumbered]
    simp only [Unnumbered.apply, add_zero, ← hEntry, Function.update_eq_self]

/-- Apart from a bye, the effect of an envelope is its effect without numbers. -/
theorem Sound.unnumbered_handle (h : m.Sound) {e : Envelope} (hBye : e ≠ .bye) :
    (m.handle e).unnumbered = m.unnumbered.handle e := by
  cases e with
  | response r => exact deliver_unnumbered m r
  | request r =>
      rw [Machine.handle, Unnumbered.handle]
      split
      · exact h.handleStream_unnumbered r
      · exact h.handleCall_unnumbered r
  | streamClose id => exact h.handleStreamClose_unnumbered id
  | bye => exact absurd rfl hBye
  | opening _ | openingAck _ => rfl

/-- An id is in the table exactly if a stream is open with it. -/
theorem Sound.contains_eq (h : m.Sound) (id : Int32) :
    m.session.openStreams.contains id = (m.unnumbered.streams id).isSome := by
  simp only [IdTable.contains, unnumbered]
  cases hk : m.session.openStreams.get? id with
  | none => rfl
  | some k =>
      obtain ⟨x, hx, _⟩ := h.served.id id k hk
      simp [served?, hx]

/-- Nobody takes responses with two ids. -/
theorem Sound.takers (h : m.Sound) {i j : Int32} {o : Owner} (hne : i ≠ j)
    (hi : m.unnumbered.taker? i = some o) : m.unnumbered.taker? j ≠ some o := by
  have hSlot : ∀ {id}, m.unnumbered.taker? id = some o →
      ∃ slot, m.session.pending.get? id = some slot ∧ slot.owner = o := by
    intro id hTaker
    unfold Unnumbered.taker? at hTaker
    split at hTaker
    · next hGet => exact ⟨_, hGet, Option.some.inj hTaker⟩
    · next hGet => exact ⟨_, hGet, Option.some.inj hTaker⟩
    · cases hTaker
  intro hj
  obtain ⟨slot, hGet, hOwner⟩ := hSlot hi
  obtain ⟨slot', hGet', hOwner'⟩ := hSlot hj
  exact hne (h.pending.id_unique hGet hGet' (hOwner.trans hOwner'.symm))

/-- Two envelopes with different ids, none of them a bye, can be handled in either order. -/
theorem Sound.handle_comm (h : m.Sound) {e e' : Envelope} (hBye : e ≠ .bye) (hBye' : e' ≠ .bye)
    (hIds : ∀ id, e.id? = some id → e'.id? ≠ some id) :
    ((m.handle e).handle e').unnumbered = ((m.handle e').handle e).unnumbered :=
  calc ((m.handle e).handle e').unnumbered
    _ = (m.handle e).unnumbered.handle e' := (h.handle e).unnumbered_handle hBye'
    _ = (m.unnumbered.handle e).handle e' := by rw [h.unnumbered_handle hBye]
    _ = (m.unnumbered.handle e').handle e :=
      m.unnumbered.handle_comm hIds fun _ _ _ hne => h.takers hne
    _ = (m.handle e').unnumbered.handle e := by rw [h.unnumbered_handle hBye']
    _ = ((m.handle e').handle e).unnumbered := ((h.handle e').unnumbered_handle hBye).symm

/-! ### Every reachable state -/

/-- What an envelope does is a matter of its id. -/
structure Independent (m : Machine M S) : Prop where
  /-- Whoever waits with another id, and the stream that is open with another id, are left alone. -/
  apart : ∀ e i, e.id? = some i → ∀ j, j ≠ i → m.SameAt (m.handle e) j
  /-- Only responses change who waits, and what has arrived for them. -/
  waiting : ∀ e, (∀ r, e ≠ .response r) → m.SameWaiting (m.handle e)
  /-- Responses do not change what is served. -/
  serving : ∀ r, m.SameServing (m.handle (.response r))
  reserved : ∀ b, m.handle (.opening b) = m ∧ m.handle (.openingAck b) = m
  byeEmpties : (m.handle .bye).session.openStreams = .empty
  byeEnds : ∀ id k x, m.session.openStreams.get? id = some k →
    m.session.servedStreams[k]? = some x →
      (m.handle .bye).session.servedStreams[k]? = some { x with inboxClosed := true } ∧
        (m.handle .bye).isCancelled x.lifetime = true
  byeTwice : (m.handle .bye).handle .bye = m.handle .bye
  /-- Both orders lead to the same ids, and to the same session but for the numbers of what is new. -/
  reorder : ∀ e e', e ≠ .bye → e' ≠ .bye → (∀ id, e.id? = some id → e'.id? ≠ some id) →
    (∀ id, ((m.handle e).handle e').session.openStreams.contains id =
      ((m.handle e').handle e).session.openStreams.contains id) ∧
    ((m.handle e).handle e').unnumbered = ((m.handle e').handle e).unnumbered

/-- In every state that a session can reach, envelopes with different ids do not interfere. -/
theorem envelopes_independent {host : Host} {registry : Registry M S}
    {callTimeout : Option Duration} {capacity : Nat} {past : History M S}
    (exec : Execution (Machine.new host registry callTimeout capacity) past m) : m.Independent where
  apart _ _ hId _ hne := exec.sound.sameAt hId hne
  waiting _ := handle_sameWaiting m
  serving := deliver_sameServing m
  reserved _ := ⟨rfl, rfl⟩
  byeEmpties := openStreams_handle_bye m
  byeEnds _ _ _ := exec.sound.handle_bye
  byeTwice := closeOpenStreams_of_empty (openStreams_handle_bye m)
  reorder e e' hBye hBye' hIds := by
    have hSame := exec.sound.handle_comm hBye hBye' hIds
    refine ⟨fun id => ?_, hSame⟩
    rw [((exec.sound.handle e).handle e').contains_eq, hSame,
      ((exec.sound.handle e').handle e).contains_eq]

/-- A call waits with the id 0 while a stream is open with the id 7. The response of the call and the
close of the stream can come in either order. -/
theorem envelopes_independent_of_call_and_stream :
    ∃ (past : History Unit Unit) (m : Machine Unit Unit),
      Execution (Machine.new (Host.new false) ⟨[], [⟨"A.c", (), true, true⟩]⟩ none 4) past m ∧
        m.session.pending.get? 0 = some (.call 0 true) ∧ m.session.openStreams.get? 7 = some 0 ∧
        m.SameAt (m.handle (.response ⟨0, .payload (.ofValue [])⟩)) 7 ∧
        m.SameAt (m.handle (.streamClose 7)) 0 ∧
        ((m.handle (.response ⟨0, .payload (.ofValue [])⟩)).handle (.streamClose 7)).unnumbered =
          ((m.handle (.streamClose 7)).handle (.response ⟨0, .payload (.ofValue [])⟩)).unnumbered := by
  have hPlay : ((Machine.new (Host.new false) (⟨[], [⟨"A.c", (), true, true⟩]⟩ : Registry Unit Unit)
      none 4).play [.call "A.b" (.ofValue []) none none, .receive (.request
        { id := 7, method := "A.c", payload := .ofValue [], isStream := true })]).map
      (fun r => (r.2.session.pending.get? 0, r.2.session.openStreams.get? 7)) =
        some (some (.call 0 true), some 0) := by decide +kernel
  obtain ⟨⟨past, m⟩, hRun, hFacts⟩ := Option.map_eq_some_iff.mp hPlay
  obtain ⟨hCall, hStream⟩ := Prod.mk.inj hFacts
  have exec := Execution.refl.play hRun
  have hIndependent := envelopes_independent exec
  have hOrder := hIndependent.reorder (.response ⟨0, .payload (.ofValue [])⟩) (.streamClose 7) nofun
    nofun fun id h => by cases h; decide
  exact ⟨_, m, exec, hCall, hStream, hIndependent.apart _ 0 rfl 7 (by decide),
    hIndependent.apart _ 7 rfl 0 (by decide), hOrder.2⟩

end Machine

end PeerLink

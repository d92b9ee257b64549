import PeerLink.Proofs.Session.Growth

/-! The lifetimes that a session hands out, one to each run and to each stream. They lie directly below
the lifetime of the session and no two of them are the same, so cancelling one is noticed by its owner
alone. What other lifetimes the program makes, and where, does not matter. -/
namespace PeerLink

variable {M S : Type}

/-- The lifetimes of all runs and streams. -/
def Session.handles (s : Session M S) : List LifetimeId :=
  s.runs.map Run.lifetime ++ s.clientStreams.map ClientStream.lifetime ++
    s.servedStreams.map ServedStream.lifetime

theorem Session.Grows.handles_eq {s s' : Session M S} (h : s.Grows s')
    (hRuns : s'.runs.length = s.runs.length)
    (hClients : s'.clientStreams.length = s.clientStreams.length)
    (hServed : s'.servedStreams.length = s.servedStreams.length) : s'.handles = s.handles := by
  unfold handles
  rw [h.runs.map_eq hRuns fun _ _ h => h.lifetime,
    h.clientStreams.map_eq hClients fun _ _ h => h.lifetime,
    h.servedStreams.map_eq hServed fun _ _ h => h.lifetime]

namespace Machine

variable {m m' : Machine M S} {a : Action}

/-! ### A new lifetime -/

theorem step?_runs_length (h : m.step? a = some m') (hRequest : ∀ r, a ≠ .receive (.request r)) :
    m'.session.runs.length = m.session.runs.length := by
  cases a with
  | finishRun r result =>
      obtain ⟨_, _, _, rfl⟩ := step?_finishRun_eq_some h
      rw [finishRun_runs, List.length_modify]
  | receive e =>
      rw [step?_frame h]
      cases e with
      | request r => exact absurd rfl (hRequest r)
      | _ => rfl
  | _ => rw [step?_frame h]; rfl

theorem step?_clientStreams_length (h : m.step? a = some m')
    (hOpen : ∀ method, a ≠ .openStream method) :
    m'.session.clientStreams.length = m.session.clientStreams.length := by
  cases step?_owners h with
  | opened _ method cause => exact absurd cause (hOpen method)
  | passed c f _ _ streams => rw [streams, List.length_modify]
  | streamOver c _ f _ _ _ _ _ streams => rw [streams, List.length_modify]
  | kept _ streams => rw [streams]
  | started _ _ _ _ _ _ _ _ streams => rw [streams]
  | callOver _ _ _ _ _ _ streams => rw [streams]
  | waits _ _ _ _ _ _ _ _ _ streams => rw [streams]
  | answered _ _ _ _ _ streams => rw [streams]

theorem step?_servedStreams_length (h : m.step? a = some m')
    (hRequest : ∀ r, a ≠ .receive (.request r)) :
    m'.session.servedStreams.length = m.session.servedStreams.length := by
  cases step?_served h with
  | kept f _ streams => exact length_eq_of_map streams
  | opened r _ cause => exact absurd cause (hRequest r)
  | ended ended m₁ closes streams => rw [streams, length_eq_of_map closes.streams]
  | finished i result x _ found _ next =>
      obtain ⟨_, _, _, hStreams⟩ := finishServed_effect found result
      rw [next, length_eq_of_map hStreams, length_eq_of_map (closes_removeServed m i x.id).streams]

/-- A stream that was not there before was opened by a message with its id. -/
theorem step?_new_served (h : m.step? a = some m') {i : ServedStreamId} {y : ServedStream S}
    (hOld : m.session.servedStreams[i]? = none) (hNew : m'.session.servedStreams[i]? = some y) :
    ∃ r, a = .receive (.request r) ∧ r.isStream = true ∧
      m.session.openStreams.get? r.id = none ∧ (m.session.registry.stream? r.method).isSome ∧
      i = m.session.servedStreams.length ∧ y.id = r.id ∧ y.lifetime = m.lifetimes.next ∧
      m'.lifetimes = m.lifetimes.add (some m.session.lifetime) := by
  have hLength := (List.getElem?_eq_some_iff.mp hNew).1
  rw [List.getElem?_eq_none_iff] at hOld
  by_cases hRequest : ∃ r, a = .receive (.request r)
  · cases step?_served h with
    | opened r method cause isStream free registered next =>
        subst next
        obtain hOldY | ⟨hi, rfl⟩ := getElem?_concat_eq_some hNew
        · exact absurd (List.getElem?_eq_some_iff.mp hOldY).1 (Nat.not_lt.mpr hOld)
        · exact ⟨r, cause, isStream, free, by rw [registered]; rfl, hi, rfl, rfl, rfl⟩
    | kept f _ streams => rw [length_eq_of_map streams] at hLength; omega
    | ended ended m₁ closes streams =>
        rw [streams, length_eq_of_map closes.streams] at hLength
        omega
    | finished _ _ _ cause =>
        obtain ⟨r, hr⟩ := hRequest
        rw [hr] at cause
        cases cause
  · rw [step?_servedStreams_length h fun r hr => hRequest ⟨r, hr⟩] at hLength
    omega

/-- At most one lifetime is handed out at a time, and it is a new one below the session's. -/
theorem step?_handles (h : m.step? a = some m') :
    m'.session.handles = m.session.handles ∨
      m'.session.handles.Perm (m.lifetimes.next :: m.session.handles) ∧
        m'.lifetimes = m.lifetimes.add (some m.session.lifetime) := by
  let runs := m.session.runs.map Run.lifetime
  let clients := m.session.clientStreams.map ClientStream.lifetime
  let served := m.session.servedStreams.map ServedStream.lifetime
  by_cases hOpen : ∃ method, a = .openStream method
  · obtain ⟨method, rfl⟩ := hOpen
    cases h
    have hPerm : (runs ++ clients ++ m.lifetimes.next :: served).Perm _ := List.perm_middle
    exact .inr ⟨by simpa [openStream, Session.handles, Session.allocate] using hPerm, rfl⟩
  by_cases hRequest : ∃ r, a = .receive (.request r)
  · obtain ⟨r, rfl⟩ := hRequest
    have hGrows := step?_grows h
    obtain ⟨_, _, rfl⟩ := receive?_eq_some h
    cases hStream : r.isStream with
    | true =>
        simp only [handle, hStream, if_true] at hGrows ⊢
        obtain ⟨i, _, he⟩ | ⟨_, _, he⟩ | ⟨method, _, _, he⟩ := handleStream_cases m r
        · rw [he] at hGrows ⊢
          exact .inl (hGrows.handles_eq rfl rfl (List.length_modify _ _ _))
        · rw [he]
          exact .inl rfl
        · rw [he]
          have hPerm : (runs ++ clients ++ served ++ [m.lifetimes.next]).Perm _ :=
            List.perm_append_singleton _ _
          exact .inr ⟨by simpa [Session.handles] using hPerm, rfl⟩
    | false =>
        simp only [handle, hStream, Bool.false_eq_true, if_false]
        obtain ⟨_, he⟩ | ⟨method, _, he⟩ := handleCall_cases m r
        · rw [he]
          exact .inl rfl
        · rw [he]
          exact .inr ⟨by simp [Session.handles], rfl⟩
  · left
    exact (step?_grows h).handles_eq
      (step?_runs_length h fun r hr => hRequest ⟨r, hr⟩)
      (step?_clientStreams_length h fun method hm => hOpen ⟨method, hm⟩)
      (step?_servedStreams_length h fun r hr => hRequest ⟨r, hr⟩)

/-! ### What becomes of the lifetimes -/

/-- The action cancels the lifetime, or nothing shows that it does not: a lifetime of the session is
cancelled by somebody who cancels it by name, by its owner, or by the session when it ends. -/
def Touches (m : Machine M S) (a : Action) (l : LifetimeId) : Prop :=
  a = .cancel l ∨ ((a = .close ∨ ∃ exhausted, a = .stop exhausted) ∧ l = m.session.lifetime) ∨ l ∈ m.session.runs.map Run.lifetime ∨
    (∃ c x, (a = .pollClient c ∨ a = .dropClient c) ∧ m.session.clientStreams[c]? = some x ∧
      x.lifetime = l) ∨
    ∃ i x, m.Ends a i ∧ m.session.servedStreams[i]? = some x ∧ x.lifetime = l

/-- What one action does to the lifetimes. -/
inductive LifetimeStep (m m' : Machine M S) (a : Action) : Prop where
  | kept (lifetimes : m'.lifetimes = m.lifetimes)
  | added (parent : Option LifetimeId) (lifetimes : m'.lifetimes = m.lifetimes.add parent)
  | cancelled (l : LifetimeId) (cause : m.Touches a l)
      (lifetimes : m'.lifetimes = m.lifetimes.cancel l)
  /-- Streams that are served end, and perhaps with them whatever they belong to. -/
  | closed (ended : List ServedStreamId) (m₁ : Machine M S) (closes : m.Closes m₁ ended)
      (cause : TableFits m.session → ∀ i ∈ ended, m.Ends a i)
      (lifetimes : m'.lifetimes = m₁.lifetimes ∨
        ∃ l, m.Touches a l ∧ m'.lifetimes = m₁.lifetimes.cancel l)

theorem touches_client {m : Machine M S} {a : Action} {c : ClientStreamId} {x : ClientStream}
    (cause : a = .pollClient c ∨ a = .dropClient c) (h : m.session.clientStreams[c]? = some x) :
    m.Touches a x.lifetime :=
  .inr (.inr (.inr (.inl ⟨c, x, cause, h, rfl⟩)))

theorem handle_lifetimes (m : Machine M S) (e : Envelope) :
    m.LifetimeStep (m.handle e) (.receive e) := by
  cases e with
  | request r =>
      simp only [handle]
      split
      · obtain ⟨i, _, he⟩ | ⟨_, _, he⟩ | ⟨method, _, _, he⟩ := handleStream_cases m r
        · exact .kept (by rw [he]; rfl)
        · exact .kept (by rw [he]; rfl)
        · exact .added _ (by rw [he]; rfl)
      · obtain ⟨_, he⟩ | ⟨method, _, he⟩ := handleCall_cases m r
        · exact .kept (by rw [he]; rfl)
        · exact .added _ (by rw [he]; rfl)
  | response r =>
      obtain ⟨c, _, he⟩ | ⟨c, _, he⟩ | ⟨_, he⟩ := deliver_cases m r
      · exact .kept (by rw [handle, he]; rfl)
      · exact .kept (by rw [handle, he]; rfl)
      · exact .kept (by rw [handle, he]; rfl)
  | streamClose id =>
      simp only [handle, handleStreamClose]
      split
      · next i hi =>
          refine .closed [i] _ (closes_closeServed m i) (fun hFits j hj => ?_) (.inl rfl)
          rw [List.mem_singleton.mp hj]
          exact hFits.id id i hi
      · exact .kept rfl
  | bye =>
      refine .closed _ _ (closes_closeOpenStreams m) (fun hFits i hi => ?_) (.inl rfl)
      exact hFits.lt_length hi
  | opening _ => exact .kept rfl
  | openingAck _ => exact .kept rfl

theorem step?_lifetimes (h : m.step? a = some m') : m.LifetimeStep m' a := by
  cases a with
  | openStream method =>
      cases h
      exact .added _ rfl
  | dropClient c =>
      cases h
      obtain ⟨x, hx, he⟩ | ⟨_, he⟩ := dropClient_cases m c
      · exact .cancelled x.lifetime (touches_client (.inr rfl) hx) (by rw [he]; rfl)
      · exact .kept (by rw [he])
  | close =>
      cases h
      exact .cancelled _ (.inr (.inl ⟨.inl rfl, rfl⟩)) rfl
  | cancel l =>
      cases h
      exact .cancelled l (.inl rfl) rfl
  | addLifetime parent =>
      cases h
      exact .added parent rfl
  | tick _ | others _ _ =>
      cases h
      exact .kept rfl
  | pollClient c =>
      obtain ⟨x, hx, _, ⟨_, rfl⟩ | ⟨content, rest, _, rfl⟩⟩ := pollClient?_cases h
      · exact .cancelled x.lifetime (touches_client (.inl rfl) hx) rfl
      · obtain ⟨messages, he | he⟩ := sortResponse_cases m c x content rest
        · exact .kept (by rw [he]; rfl)
        · exact .cancelled x.lifetime (touches_client (.inl rfl) hx) (by rw [he]; rfl)
  | finishRun r result =>
      obtain ⟨run, hRun, _, rfl⟩ := step?_finishRun_eq_some h
      have hMem := List.mem_map_of_mem (f := Run.lifetime) (List.mem_of_getElem? hRun)
      exact .cancelled run.lifetime (.inr (.inr (.inl hMem))) (finishRun_lifetimes hRun result)
  | finishServed i result =>
      obtain ⟨x, hx, _, rfl⟩ := step?_finishServed_eq_some h
      obtain ⟨_, hLifetimes, _⟩ := finishServed_effect hx result
      refine .closed _ _ (closes_removeServed m i x.id) (fun _ j hj => ?_)
        (.inr ⟨x.lifetime, .inr (.inr (.inr (.inr ⟨i, x, rfl, hx, rfl⟩))), hLifetimes⟩)
      unfold removed at hj
      split at hj
      · exact (List.mem_singleton.mp hj).symm
      · cases hj
  | receive e =>
      obtain ⟨_, _, rfl⟩ := receive?_eq_some h
      exact handle_lifetimes m e
  | stop exhausted =>
      obtain ⟨_, _, rfl⟩ := stopConsuming?_eq_some h
      exact .closed _ _ (closes_closeOpenStreams m) (fun hFits i hi => hFits.lt_length hi)
        (.inr ⟨m.session.lifetime, .inr (.inl ⟨.inr ⟨exhausted, rfl⟩, rfl⟩), rfl⟩)
  | _ => exact .kept (congrArg Host.lifetimes (step?_toHost h rfl))

theorem Closes.grows {ended : List ServedStreamId} (h : m.Closes m' ended) :
    m.lifetimes.Grows m'.lifetimes where
  next := Nat.le_of_eq h.next.symm
  parent? l p hl := by rw [h.parent?, hl]
  isFlagged l hl := (h.isFlagged l).mpr (.inl hl)

theorem LifetimeStep.grows (h : m.LifetimeStep m' a) : m.lifetimes.Grows m'.lifetimes := by
  cases h with
  | kept lifetimes =>
      rw [lifetimes]
      exact .refl _
  | added parent lifetimes =>
      rw [lifetimes]
      exact .add _ _
  | cancelled l _ lifetimes =>
      rw [lifetimes]
      exact .cancel _ _
  | closed ended m₁ closes _ lifetimes =>
      obtain he | ⟨l, _, he⟩ := lifetimes
      · rw [he]
        exact closes.grows
      · rw [he]
        exact closes.grows.trans (.cancel _ _)

theorem step?_lifetimes_grow (h : m.step? a = some m') : m.lifetimes.Grows m'.lifetimes :=
  (step?_lifetimes h).grows

/-- No lifetime is flagged by an action that has nothing to do with it. -/
theorem step?_isFlagged (h : m.step? a = some m') (hFits : TableFits m.session) {l : LifetimeId}
    (hl : m'.lifetimes.isFlagged l = true) : m.lifetimes.isFlagged l = true ∨ m.Touches a l := by
  cases step?_lifetimes h with
  | kept lifetimes => exact .inl (lifetimes ▸ hl)
  | added parent lifetimes =>
      rw [lifetimes, Lifetimes.isFlagged_add] at hl
      exact .inl hl
  | cancelled k cause lifetimes =>
      rw [lifetimes, Lifetimes.isFlagged_cancel] at hl
      obtain hl | ⟨rfl, _⟩ := hl
      · exact .inl hl
      · exact .inr cause
  | closed ended m₁ closes cause lifetimes =>
      have hClosed : m₁.lifetimes.isFlagged l = true →
          m.lifetimes.isFlagged l = true ∨ m.Touches a l := by
        intro hl
        obtain hl | ⟨_, i, hi, x, hx, hLifetime⟩ := (closes.isFlagged l).mp hl
        · exact .inl hl
        · exact .inr (.inr (.inr (.inr (.inr ⟨i, x, cause hFits i hi, hx, hLifetime⟩))))
      obtain he | ⟨k, hCause, he⟩ := lifetimes
      · exact hClosed (he ▸ hl)
      · rw [he, Lifetimes.isFlagged_cancel] at hl
        obtain hl | ⟨rfl, _⟩ := hl
        · exact hClosed hl
        · exact .inr hCause

/-! ### Where the lifetimes lie -/

/-- The lifetime of the session has no parent, and the lifetimes that it has handed out are different
children of it. -/
structure Rooted (m : Machine M S) : Prop where
  root : m.lifetimes.parent? m.session.lifetime = some none
  child : ∀ l ∈ m.session.handles, m.lifetimes.parent? l = some (some m.session.lifetime)
  above : ∀ l ∈ m.session.handles, m.session.lifetime < l
  nodup : m.session.handles.Nodup

theorem rooted_new (host : Host) (registry : Registry M S) (callTimeout : Option Duration)
    (capacity : Nat) : (Machine.new host registry callTimeout capacity).Rooted where
  root := Lifetimes.parent?_add_next host.lifetimes none
  child _ hl := by cases hl
  above _ hl := by cases hl
  nodup := List.nodup_nil

theorem Rooted.lt_next (h : m.Rooted) {l : LifetimeId} (hl : l ∈ m.session.handles) :
    l < m.lifetimes.next :=
  Lifetimes.lt_next_of_parent? (h.child l hl)

/-- The lifetimes lie where they should as long as each one that is handed out is new and lies below the
session's. -/
theorem Rooted.grow (hRooted : m.Rooted) (hGrows : m.lifetimes.Grows m'.lifetimes)
    (hLifetime : m'.session.lifetime = m.session.lifetime)
    (hHandles : m'.session.handles = m.session.handles ∨
      m'.session.handles.Perm (m.lifetimes.next :: m.session.handles) ∧
        m'.lifetimes = m.lifetimes.add (some m.session.lifetime)) : m'.Rooted := by
  have hRoot : m'.lifetimes.parent? m'.session.lifetime = some none := by
    rw [hLifetime]
    exact hGrows.parent? _ _ hRooted.root
  obtain hSame | ⟨hNew, hLifetimes⟩ := hHandles
  · refine ⟨hRoot, fun l hl => ?_, fun l hl => ?_, ?_⟩
    · rw [hSame] at hl
      rw [hLifetime]
      exact hGrows.parent? _ _ (hRooted.child l hl)
    · rw [hSame] at hl
      rw [hLifetime]
      exact hRooted.above l hl
    · rw [hSame]
      exact hRooted.nodup
  · refine ⟨hRoot, fun l hl => ?_, fun l hl => ?_, ?_⟩
    · rw [hLifetime]
      obtain rfl | hl := List.mem_cons.mp (hNew.mem_iff.mp hl)
      · rw [hLifetimes]
        exact Lifetimes.parent?_add_next _ _
      · exact hGrows.parent? _ _ (hRooted.child l hl)
    · rw [hLifetime]
      obtain rfl | hl := List.mem_cons.mp (hNew.mem_iff.mp hl)
      · exact Lifetimes.lt_next_of_parent? hRooted.root
      · exact hRooted.above l hl
    · rw [hNew.nodup_iff, List.nodup_cons]
      exact ⟨fun hl => Nat.lt_irrefl _ (hRooted.lt_next hl), hRooted.nodup⟩

theorem Rooted.step (hRooted : m.Rooted) (h : m.step? a = some m') : m'.Rooted :=
  hRooted.grow (step?_lifetimes_grow h) (step?_grows h).lifetime (step?_handles h)

theorem Execution.rooted {start m : Machine M S} {past : History M S} (hStart : start.Rooted)
    (exec : Execution start past m) : m.Rooted := by
  induction exec with
  | refl => exact hStart
  | step _ last ih => exact ih.step last

/-- A stream or run is cancelled when its own lifetime or the session is. -/
theorem Rooted.isCancelled_iff (h : m.Rooted) {l : LifetimeId} (hl : l ∈ m.session.handles) :
    m.isCancelled l = true ↔ m.lifetimes.isFlagged l = true ∨ m.isEnded = true := by
  have hChild := Lifetimes.isCancelled_child (h.child l hl) (h.above l hl)
  simp only [isEnded, Host.isCancelled, hChild, Bool.or_eq_true]

end Machine

end PeerLink

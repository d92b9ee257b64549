import PeerLink.Proofs.Session.Growth

/-! What gets into the queue of a session, and what is taken out of it. An envelope that is in the queue
stays there until the transport takes it, whatever becomes of its sender. So the envelopes that got in are
those that were taken, followed by those that are still queued, unless the transport has gone away. Each
got in once, and every send that has succeeded is among them. -/
namespace PeerLink

variable {M S : Type}

namespace Outbound

theorem entering?_of_flushing {o : Outbound} {t u : Ticket} (h : o.flushing = some t) :
    o.entering? u = none := by
  simp [entering?, h]

theorem entering?_of_abandoned {o : Outbound} {t : Ticket} (h : o.abandoned = true) :
    o.entering? t = none := by
  simp [entering?, h]

/-- Only what waits gets in. -/
theorem mem_waiting_of_entering? {o : Outbound} {t : Ticket} {x : Ticket × Envelope}
    (h : o.entering? t = some x) : x ∈ o.waiting ∧ x.1 = t := by
  unfold entering? at h
  split at h
  · cases h
  · exact ⟨List.mem_of_find?_eq_some h, by simpa using List.find?_some h⟩

end Outbound

namespace Machine

/-- The envelopes that got into the queue, with the numbers of their sends. -/
def History.entered (past : History M S) : List (Ticket × Envelope) :=
  past.filterMap fun x => match x.2 with
    | .advance t => x.1.session.outbound.entering? t
    | _ => none

/-- The envelopes that the transport took. -/
def History.taken (past : History M S) : List Envelope :=
  past.filterMap fun x => match x.2 with
    | .take => x.1.session.outbound.queued.head?
    | _ => none

variable {m m' : Machine M S} {a : Action} {past : History M S}

theorem History.entered_append_later (past later : History M S) :
    History.entered (past ++ later) = History.entered past ++ History.entered later :=
  List.filterMap_append

theorem History.entered_append : History.entered (past ++ [(m, a)]) =
    History.entered past ++ History.entered [(m, a)] :=
  past.entered_append_later [(m, a)]

theorem History.entered_cons (x : Machine M S × Action) (later : History M S) :
    History.entered (x :: later) = History.entered [x] ++ History.entered later :=
  History.entered_append_later [x] later

theorem History.taken_append : History.taken (past ++ [(m, a)]) =
    History.taken past ++ History.taken [(m, a)] :=
  List.filterMap_append

theorem History.entered_advance {t : Ticket} : History.entered [(m, .advance t)] =
    (m.session.outbound.entering? t).toList := by
  cases h : m.session.outbound.entering? t <;> simp [History.entered, h]

theorem History.entered_other (h : ∀ t, a ≠ .advance t) : History.entered [(m, a)] = [] := by
  cases a with
  | advance t => exact absurd rfl (h t)
  | _ => rfl

theorem History.taken_other (h : a ≠ .take) : History.taken [(m, a)] = [] := by
  cases a with
  | take => exact absurd rfl h
  | _ => rfl

theorem History.taken_take {e : Envelope} (h : m.takeOutbound? = some (e, m')) :
    History.taken [(m, .take)] = [e] := by
  obtain ⟨rest, hQueued, _⟩ := takeOutbound?_eq_some h
  simp [History.taken, hQueued]

/-- What the queue and the sends of a session have to do with what got into the queue. -/
structure Queueing (past : History M S) (s : Session M S) : Prop where
  distinct : ((History.entered past).map Prod.fst ++ s.outbound.waiting.map Prod.fst).Nodup
  known : ∀ x ∈ History.entered past ++ s.outbound.waiting,
    s.sends[x.1]?.map Send.envelope = some x.2
  flushing : ∀ t, s.outbound.flushing = some t → t ∈ (History.entered past).map Prod.fst
  accepted : ∀ (t : Ticket) (x : Send), s.sends[t]? = some x → x.state = .done .accepted →
    t ∈ (History.entered past).map Prod.fst
  /-- Nothing gets out of the queue but to the transport. -/
  flow : History.taken past ++ s.outbound.queued <+: (History.entered past).map Prod.snd
  complete : s.outbound.abandoned = false →
    (History.entered past).map Prod.snd = History.taken past ++ s.outbound.queued

theorem queueing_new (registry : Registry M S) (callTimeout : Option Duration) (capacity : Nat)
    (lifetime : LifetimeId) :
    Queueing [] (Session.new registry callTimeout capacity lifetime) where
  distinct := List.nodup_nil
  known x hx := by simp [History.entered, Session.new, Outbound.new] at hx
  flushing t ht := by simp [Session.new, Outbound.new] at ht
  accepted t x hx := by simp [Session.new] at hx
  flow := List.prefix_refl _
  complete _ := rfl

theorem Queueing.lt_length (h : Queueing past m.session) {t : Ticket}
    (ht : t ∈ (History.entered past).map Prod.fst ++ m.session.outbound.waiting.map Prod.fst) :
    t < m.session.sends.length := by
  rw [← List.map_append] at ht
  obtain ⟨x, hx, rfl⟩ := List.mem_map.mp ht
  obtain ⟨y, hy, _⟩ := Option.map_eq_some_iff.mp (h.known x hx)
  exact (List.getElem?_eq_some_iff.mp hy).1

theorem Retained.envelope {l l' : List Send} (h : Retained Send.Keeps l l') {t : Ticket} {e : Envelope}
    (he : l[t]?.map Send.envelope = some e) : l'[t]?.map Send.envelope = some e := by
  obtain ⟨x, hx, rfl⟩ := Option.map_eq_some_iff.mp he
  obtain ⟨y, hy, hKeeps⟩ := h t x hx
  rw [hy, Option.map_some, hKeeps.envelope]

/-- A send that has ended had done so before the step, or ends by it. -/
theorem step?_done (h : m.step? a = some m') {t : Ticket} {x : Send} {result : SendResult}
    (hx : m'.session.sends[t]? = some x) (hState : x.state = .done result) :
    (∃ y, m.session.sends[t]? = some y ∧ y.state = .done result) ∨
      a = .advance t ∧ ∃ outbound, m.session.outbound.advance? t = some (outbound, some result) := by
  cases step?_sends h with
  | kept sends _ => exact .inl ⟨x, sends ▸ hx, hState⟩
  | began y e _ sends _ =>
      rw [sends] at hx
      obtain hx | ⟨_, rfl⟩ := getElem?_concat_eq_some hx
      · exact .inl ⟨x, hx, hState⟩
      · cases hState
  | gaveUp u _ sends _ =>
      rw [sends, Session.giveUp] at hx
      split at hx
      · exact .inl ⟨x, hx, hState⟩
      · obtain ⟨_, hx⟩ | ⟨_, y, _, rfl⟩ := getElem?_modify_eq_some hx
        · exact .inl ⟨x, hx, hState⟩
        · cases hState
  | queued outbound _ _ _ next =>
      rw [next] at hx
      exact .inl ⟨x, hx, hState⟩
  | completed outbound u result' cause advance next =>
      rw [next, finishSend_sends] at hx
      obtain ⟨_, hx⟩ | ⟨rfl, y, _, rfl⟩ := getElem?_modify_eq_some hx
      · exact .inl ⟨x, hx, hState⟩
      · cases hState
        exact .inr ⟨cause, outbound, advance⟩
  | taken e outbound _ _ next =>
      rw [next] at hx
      exact .inl ⟨x, hx, hState⟩
  | abandoned _ next =>
      rw [next] at hx
      exact .inl ⟨x, hx, hState⟩

/-- Nothing gets into the queue or out of it but by a turn of a sender and by the transport. -/
theorem step?_quiet (h : m.step? a = some m') (hAdvance : ∀ t, a ≠ .advance t) (hTake : a ≠ .take) :
    (m'.session.outbound.queued = m.session.outbound.queued ∧
      m'.session.outbound.abandoned = m.session.outbound.abandoned ∨
      m'.session.outbound.queued = [] ∧ m'.session.outbound.abandoned = true) ∧
    (∀ t, m'.session.outbound.flushing = some t → m.session.outbound.flushing = some t) ∧
    (m'.session.outbound.waiting.Sublist m.session.outbound.waiting ∨ ∃ e,
      m'.session.outbound.waiting = m.session.outbound.waiting ++ [(m.session.sends.length, e)] ∧
      m'.session.sends[m.session.sends.length]?.map Send.envelope = some e) := by
  cases step?_sends h with
  | kept _ outbound =>
      rw [outbound]
      exact ⟨.inl ⟨rfl, rfl⟩, fun _ h => h, .inl (List.Sublist.refl _)⟩
  | began x e _ sends outbound =>
      rw [outbound, sends]
      exact ⟨.inl ⟨rfl, rfl⟩, fun _ h => h, .inr ⟨e, rfl, by simp⟩⟩
  | gaveUp t _ _ outbound =>
      rw [outbound, Session.giveUp]
      split
      · exact ⟨.inl ⟨rfl, rfl⟩, fun _ h => h, .inl (List.Sublist.refl _)⟩
      · refine ⟨.inl ⟨rfl, rfl⟩, fun u hu => ?_, .inl List.filter_sublist⟩
        simp only [Session.setSendState, Outbound.giveUp] at hu
        split at hu
        · cases hu
        · exact hu
  | abandoned _ next =>
      rw [next]
      exact ⟨.inr ⟨rfl, rfl⟩, fun _ h => h, .inl (List.Sublist.refl _)⟩
  | queued _ t cause _ _ => exact absurd cause (hAdvance t)
  | completed _ t _ cause _ _ => exact absurd cause (hAdvance t)
  | taken _ _ cause _ _ => exact absurd cause hTake

/-- Only the transport can go away. -/
theorem step?_abandoned (h : m.step? a = some m') (hStays : a ≠ .abandon) :
    m'.session.outbound.abandoned = m.session.outbound.abandoned := by
  have hAdvance : ∀ {outbound t result?}, m.session.outbound.advance? t = some (outbound, result?) →
      outbound.abandoned = m.session.outbound.abandoned := fun hTurn => by
    cases Outbound.advance?_cases hTurn with
    | _ => rfl
  cases step?_sends h with
  | kept _ outbound => rw [outbound]
  | began _ _ _ _ outbound =>
      rw [outbound]
      rfl
  | gaveUp t _ _ outbound =>
      rw [outbound, Session.giveUp]
      split
      · rfl
      · rfl
  | queued outbound _ _ advance next =>
      rw [next]
      exact hAdvance advance
  | completed outbound t result _ advance next =>
      rw [next, finishSend_outbound]
      exact hAdvance advance
  | taken e outbound _ take next =>
      obtain ⟨rest, _, rfl⟩ := Outbound.take?_eq_some take
      rw [next]
      rfl
  | abandoned cause _ => exact absurd cause hStays

/-- And it does not come back. -/
theorem step?_abandoned_of_abandoned (hGone : m.session.outbound.abandoned = true)
    (h : m.step? a = some m') : m'.session.outbound.abandoned = true := by
  by_cases hAbandon : a = .abandon
  · subst hAbandon
    cases h
    rfl
  · rw [step?_abandoned h hAbandon, hGone]

theorem Queueing.quiet (hQueue : Queueing past m.session) (h : m.step? a = some m')
    (hAdvance : ∀ t, a ≠ .advance t) (hTake : a ≠ .take) : Queueing (past ++ [(m, a)]) m'.session := by
  have hEntered : History.entered (past ++ [(m, a)]) = History.entered past := by
    rw [History.entered_append, History.entered_other hAdvance, List.append_nil]
  have hTaken : History.taken (past ++ [(m, a)]) = History.taken past := by
    rw [History.taken_append, History.taken_other hTake, List.append_nil]
  have hSends := step?_sends_retained h
  obtain ⟨hQueued, hFlushing, hWaiting⟩ := step?_quiet h hAdvance hTake
  constructor
  · rw [hEntered]
    rcases hWaiting with hSub | ⟨e, hNew, _⟩
    · exact hQueue.distinct.sublist ((List.Sublist.refl _).append (hSub.map Prod.fst))
    · rw [hNew, List.map_append, ← List.append_assoc, List.nodup_append]
      refine ⟨hQueue.distinct, List.nodup_singleton _, fun t ht u hu => ?_⟩
      rw [List.mem_singleton.mp hu]
      exact Nat.ne_of_lt (hQueue.lt_length ht)
  · intro x hx
    rw [hEntered] at hx
    rcases List.mem_append.mp hx with hx | hx
    · exact Retained.envelope hSends (hQueue.known x (List.mem_append_left _ hx))
    · rcases hWaiting with hSub | ⟨e, hNew, hSend⟩
      · exact Retained.envelope hSends (hQueue.known x (List.mem_append_right _ (hSub.subset hx)))
      · rw [hNew] at hx
        rcases List.mem_append.mp hx with hx | hx
        · exact Retained.envelope hSends (hQueue.known x (List.mem_append_right _ hx))
        · rw [List.mem_singleton.mp hx]
          exact hSend
  · intro t ht
    rw [hEntered]
    exact hQueue.flushing t (hFlushing t ht)
  · intro t x hx hState
    rw [hEntered]
    obtain ⟨y, hy, hDone⟩ | ⟨hAdvancing, _⟩ := step?_done h hx hState
    · exact hQueue.accepted t y hy hDone
    · exact absurd hAdvancing (hAdvance t)
  · rw [hEntered, hTaken]
    rcases hQueued with ⟨hSame, _⟩ | ⟨hGone, _⟩
    · rw [hSame]
      exact hQueue.flow
    · rw [hGone, List.append_nil]
      exact (List.prefix_append _ _).trans hQueue.flow
  · intro hLive
    rw [hEntered, hTaken]
    rcases hQueued with ⟨hSame, hAbandoned⟩ | ⟨_, hAbandoned⟩
    · rw [hSame]
      exact hQueue.complete (hAbandoned ▸ hLive)
    · rw [hAbandoned] at hLive
      cases hLive

theorem Queueing.take (hQueue : Queueing past m.session) (h : m.step? .take = some m') :
    Queueing (past ++ [(m, .take)]) m'.session := by
  obtain ⟨⟨e, m'⟩, hTake, rfl⟩ := Option.map_eq_some_iff.mp h
  have hEntered : History.entered (past ++ [(m, .take)]) = History.entered past := by
    rw [History.entered_append, History.entered_other (by simp), List.append_nil]
  have hTaken : History.taken (past ++ [(m, .take)]) = History.taken past ++ [e] := by
    rw [History.taken_append, History.taken_take hTake]
  obtain ⟨rest, hQueued, rfl⟩ := takeOutbound?_eq_some hTake
  have hFlow : History.taken (past ++ [(m, .take)]) ++ rest =
      History.taken past ++ m.session.outbound.queued := by
    rw [hTaken, hQueued, List.append_assoc, List.singleton_append]
  constructor
  · rw [hEntered]
    exact hQueue.distinct
  · rw [hEntered]
    exact hQueue.known
  · rw [hEntered]
    exact hQueue.flushing
  · rw [hEntered]
    exact hQueue.accepted
  · rw [hEntered]
    exact hFlow ▸ hQueue.flow
  · rw [hEntered]
    exact fun hLive => (hQueue.complete hLive).trans hFlow.symm

theorem step?_advance {t : Ticket} (h : m.step? (.advance t) = some m') : ∃ result?,
    m.session.outbound.advance? t = some (m'.session.outbound, result?) ∧
      m.session.outbound.Advance t m'.session.outbound result? := by
  obtain ⟨outbound, ⟨hAdvance, rfl⟩ | ⟨result, hAdvance, rfl⟩⟩ := advanceOutbound?_cases h
  · exact ⟨none, hAdvance, Outbound.advance?_cases hAdvance⟩
  · rw [finishSend_outbound]
    exact ⟨some result, hAdvance, Outbound.advance?_cases hAdvance⟩

/-- A turn by which no envelope gets in. -/
theorem Queueing.turn (hQueue : Queueing past m.session) {t : Ticket}
    (h : m.step? (.advance t) = some m') (hNone : m.session.outbound.entering? t = none)
    (queued : m'.session.outbound.queued = m.session.outbound.queued)
    (abandoned : m'.session.outbound.abandoned = m.session.outbound.abandoned)
    (flushing : m'.session.outbound.flushing = none)
    (waiting : m'.session.outbound.waiting.Sublist m.session.outbound.waiting)
    (accepted : ∀ outbound, m.session.outbound.advance? t = some (outbound, some .accepted) →
      t ∈ (History.entered past).map Prod.fst) :
    Queueing (past ++ [(m, .advance t)]) m'.session := by
  have hEntered : History.entered (past ++ [(m, .advance t)]) = History.entered past := by
    rw [History.entered_append, History.entered_advance, hNone, Option.toList_none, List.append_nil]
  have hTaken : History.taken (past ++ [(m, .advance t)]) = History.taken past := by
    rw [History.taken_append]
    exact List.append_nil _
  constructor
  · rw [hEntered]
    exact hQueue.distinct.sublist ((List.Sublist.refl _).append (waiting.map Prod.fst))
  · intro x hx
    rw [hEntered] at hx
    refine Retained.envelope (step?_sends_retained h) (hQueue.known x ?_)
    rcases List.mem_append.mp hx with hx | hx
    · exact List.mem_append_left _ hx
    · exact List.mem_append_right _ (waiting.subset hx)
  · intro u hu
    rw [flushing] at hu
    cases hu
  · intro u x hx hState
    rw [hEntered]
    obtain ⟨y, hy, hDone⟩ | ⟨hTurn, outbound, hAdvance⟩ := step?_done h hx hState
    · exact hQueue.accepted u y hy hDone
    · cases hTurn
      exact accepted outbound hAdvance
  · rw [hEntered, hTaken, queued]
    exact hQueue.flow
  · intro hLive
    rw [hEntered, hTaken, queued]
    exact hQueue.complete (abandoned ▸ hLive)

/-- A turn by which an envelope gets in, at the end of the queue. -/
theorem Queueing.enter (hQueue : Queueing past m.session) {t : Ticket}
    (h : m.step? (.advance t) = some m') {e : Envelope} {front back : List (Ticket × Envelope)}
    (hEnters : m.session.outbound.entering? t = some (t, e))
    (hWaiting : m.session.outbound.waiting = front ++ (t, e) :: back)
    (hLive : m.session.outbound.abandoned = false)
    (queued : m'.session.outbound.queued = m.session.outbound.queued ++ [e])
    (waiting : m'.session.outbound.waiting = front ++ back)
    (flushing : ∀ u, m'.session.outbound.flushing = some u → u = t) :
    Queueing (past ++ [(m, .advance t)]) m'.session := by
  have hEntered : History.entered (past ++ [(m, .advance t)]) = History.entered past ++ [(t, e)] := by
    rw [History.entered_append, History.entered_advance, hEnters, Option.toList_some]
  have hTaken : History.taken (past ++ [(m, .advance t)]) = History.taken past := by
    rw [History.taken_append]
    exact List.append_nil _
  have hAll : ((History.entered past ++ [(t, e)]) ++ m'.session.outbound.waiting).Perm
      (History.entered past ++ m.session.outbound.waiting) := by
    rw [hWaiting, waiting, List.append_assoc, List.singleton_append]
    exact List.perm_middle.symm.append_left _
  have hMem : t ∈ (History.entered past ++ [(t, e)]).map Prod.fst :=
    List.mem_map_of_mem (List.mem_append_right _ (List.mem_singleton.mpr rfl))
  have hFlow : (History.entered past ++ [(t, e)]).map Prod.snd =
      History.taken past ++ m'.session.outbound.queued := by
    rw [List.map_append, hQueue.complete hLive, queued, List.append_assoc]
    rfl
  constructor
  · rw [hEntered, ← List.map_append, (hAll.map Prod.fst).nodup_iff, List.map_append]
    exact hQueue.distinct
  · intro x hx
    rw [hEntered] at hx
    exact Retained.envelope (step?_sends_retained h) (hQueue.known x (hAll.subset hx))
  · intro u hu
    rw [hEntered, flushing u hu]
    exact hMem
  · intro u x hx hState
    rw [hEntered]
    obtain ⟨y, hy, hDone⟩ | ⟨hTurn, _⟩ := step?_done h hx hState
    · rw [List.map_append]
      exact List.mem_append_left _ (hQueue.accepted u y hy hDone)
    · cases hTurn
      exact hMem
  · rw [hEntered, hTaken]
    exact hFlow ▸ List.prefix_refl _
  · intro _
    rw [hEntered, hTaken, hFlow]

theorem Queueing.advance (hQueue : Queueing past m.session) {t : Ticket}
    (h : m.step? (.advance t) = some m') : Queueing (past ++ [(m, .advance t)]) m'.session := by
  obtain ⟨result?, hAdvance, hCase⟩ := step?_advance h
  have hAccepted : ∀ outbound, m.session.outbound.advance? t = some (outbound, some .accepted) →
      result? = some .accepted := fun outbound hSame => by
    rw [hAdvance] at hSame
    exact (Prod.mk.inj (Option.some.inj hSame)).2
  generalize hOutbound : m'.session.outbound = outbound at hCase
  cases hCase with
  | flushed hFlushing =>
      refine hQueue.turn h (Outbound.entering?_of_flushing hFlushing) ?_ ?_ ?_ ?_
        fun _ _ => hQueue.flushing t hFlushing
      · rw [hOutbound]
      · rw [hOutbound]
      · rw [hOutbound]
      · rw [hOutbound]
  | refused e front back hFlushing hWaiting hAbandoned =>
      refine hQueue.turn h (Outbound.entering?_of_abandoned hAbandoned) ?_ ?_ ?_ ?_ ?_
      · rw [hOutbound]
      · rw [hOutbound]
      · rw [hOutbound, hFlushing]
      · rw [hOutbound, hWaiting]
        exact (List.sublist_cons_self _ _).append_left front
      · intro outbound hSame
        cases hAccepted outbound hSame
  | filled e front back _ hWaiting hEnters hLive =>
      refine hQueue.enter h hEnters hWaiting hLive ?_ ?_ ?_
      · rw [hOutbound]
      · rw [hOutbound]
      · rw [hOutbound]
        exact fun u hu => (Option.some.inj hu).symm
  | entered e front back hFlushing hWaiting hEnters hLive =>
      refine hQueue.enter h hEnters hWaiting hLive ?_ ?_ ?_
      · rw [hOutbound]
      · rw [hOutbound]
      · rw [hOutbound, hFlushing]
        exact nofun

theorem Queueing.step (hQueue : Queueing past m.session) (h : m.step? a = some m') :
    Queueing (past ++ [(m, a)]) m'.session := by
  by_cases hAdvance : ∃ t, a = .advance t
  · obtain ⟨t, rfl⟩ := hAdvance
    exact hQueue.advance h
  · by_cases hTake : a = .take
    · subst hTake
      exact hQueue.take h
    · exact hQueue.quiet h (not_exists.mp hAdvance) hTake

theorem Life.queueing {registry : Registry M S} {callTimeout : Option Duration} {capacity : Nat}
    {lifetime : LifetimeId} {s : Session M S}
    (life : Life (Session.new registry callTimeout capacity lifetime) past s) : Queueing past s := by
  induction life with
  | refl => exact queueing_new registry callTimeout capacity lifetime
  | step _ last ih => exact Queueing.step ih last

end Machine

end PeerLink

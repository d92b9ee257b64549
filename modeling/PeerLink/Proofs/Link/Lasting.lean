import PeerLink.Proofs.Link.Transparency
import PeerLink.Proofs.Session.Delivering
import PeerLink.Proofs.Session.Discipline
import PeerLink.Proofs.Session.Lasting
import PeerLink.Proofs.Session.Work

/-! A session that serves over a transport. As long as nothing goes wrong at the far end and nobody but
handlers and the remote peer does anything to it, the session goes on. Its writer goes on as well, so
what gets into its queue is written, in order, and when no task moves on all that it sent was written. -/
namespace PeerLink.Linked

variable {M S : Type} {start l l' : Linked M S} {past : History M S} {x : Action}

/-- The session has done nothing but serve, and the far end takes what is written. -/
structure Serving (start : Linked M S) (past : History M S) (l : Linked M S) : Prop where
  exec : Execution start past l
  accepted : past.Accepted
  opened : past.Open
  flow : ∀ o, l.transport.outlet? = some o → o.flow = .free
  spares : l.SparesLive
  consuming : l.session.consuming = true

/-- A step after which this is still so. -/
theorem Serving.extend (h : Serving start past l) (last : l.step? x = some l')
    (accepted : ∀ error, x ≠ .outside (.refuse error)) (opened : x ≠ .outside .ended)
    (flow : ∀ o, l'.transport.outlet? = some o → o.flow = .free) (spares : l'.SparesLive)
    (consuming : l'.session.consuming = true) : Serving start (past ++ [(l, x)]) l' where
  exec := h.exec.step last
  accepted y hy := by
    obtain hy | hy := List.mem_append.mp hy
    · exact h.accepted y hy
    · rw [List.mem_singleton.mp hy]
      exact accepted
  opened y hy := by
    obtain hy | hy := List.mem_append.mp hy
    · exact h.opened y hy
    · rw [List.mem_singleton.mp hy]
      exact opened
  flow := flow
  spares := spares
  consuming := consuming

/-- What is counted and noted cancels nothing. -/
theorem noted_sparesLive {m m' : Machine M S} (h : m.SparesLive) (noted : m.Noted m') : m'.SparesLive := by
  obtain ⟨meter, journal, rfl⟩ := noted
  exact h

theorem Serving.read (h : Serving start past l) (last : l.step? .read = some l') :
    Serving start (past ++ [(l, .read)]) l' ∧ l'.session = l.session := by
  obtain ⟨⟨m, t⟩, hRead, rfl⟩ := Option.map_eq_some_iff.mp last
  obtain ⟨hNoted, hOutlet⟩ := Transport.read?_frame hRead
  refine ⟨h.extend last nofun nofun (fun o ho => h.flow o (hOutlet ▸ ho)) (noted_sparesLive h.spares hNoted)
    ?_, hNoted.session⟩
  rw [hNoted.session]
  exact h.consuming

/-- Something arrives, or somebody looks at what was written. -/
theorem Serving.outside (h : Serving start past l) {event : Event}
    (calm : (∃ e, event = .source e) ∨ event = .looked) (last : l.step? (.outside event) = some l') :
    Serving start (past ++ [(l, .outside event)]) l' := by
  obtain ⟨t, hChange, rfl⟩ := Option.map_eq_some_iff.mp last
  have hOutlet := Event.change?_outlet hChange
  refine h.extend last ?_ ?_ (fun o ho => ?_) h.spares h.consuming
  · obtain ⟨e, rfl⟩ | rfl := calm <;> exact nofun
  · obtain ⟨e, rfl⟩ | rfl := calm <;> exact nofun
  · obtain ⟨o', ho', rfl⟩ := Option.map_eq_some_iff.mp (hOutlet.symm.trans ho)
    obtain ⟨e, rfl⟩ | rfl := calm <;> exact h.flow o' ho'

section

variable {host : Host} {registry : Registry M S} {callTimeout : Option Duration} {capacity : Nat}
  {transport : Transport}

theorem serving_new (hNone : ∀ k, host.lifetimes.isFlagged k = false) (fresh : transport.Fresh) :
    Serving (new host registry callTimeout capacity transport) []
      (new host registry callTimeout capacity transport) where
  exec := .refl
  accepted _ hx := absurd hx List.not_mem_nil
  opened _ hx := absurd hx List.not_mem_nil
  flow o ho := by
    have hNew : some Outlet.new = some o := fresh.outlet?.symm.trans ho
    rw [← Option.some_inj.mp hNew]
    rfl
  spares k hk := by
    have hOld : host.lifetimes.isFlagged k = true := (Lifetimes.isFlagged_add _ _ k).symm.trans hk
    rw [hNone k] at hOld
    cases hOld
  consuming := rfl

/-- Nothing happens in a new session over bytes by itself. -/
theorem new_at_rest (hNone : ∀ k, host.lifetimes.isFlagged k = false) (room : Nat) :
    (new host registry callTimeout capacity (.framed (.new room))).step? .read = none ∧
      (new host registry callTimeout capacity (.framed (.new room))).step? .consume = none ∧
      (new host registry callTimeout capacity (.framed (.new room))).step? .write = none := by
  have hServing : Serving (new host registry callTimeout capacity (.framed (.new room))) []
      (new host registry callTimeout capacity (.framed (.new room))) := serving_new hNone (.framed room)
  have hLive := hServing.spares.not_ended
    (hServing.exec.reaches.rooted (Machine.rooted_new host registry callTimeout capacity))
  refine ⟨?_, ?_, ?_⟩
  · change Option.map _ (Option.map _ (Link.Framed.read? _ _)) = none
    rw [Option.map_eq_none_iff, Option.map_eq_none_iff, Link.Framed.read?, hLive]
    rfl
  · change Option.map _ (Option.map _ (Link.Framed.consume? _ _)) = none
    rw [Option.map_eq_none_iff, Option.map_eq_none_iff, Link.Framed.consume?, Machine.stopConsuming?,
      hLive]
    rfl
  · change Option.map _ (Option.map _ (Link.Framed.write? _ _)) = none
    rw [Option.map_eq_none_iff, Option.map_eq_none_iff, Link.Framed.write?, hLive]
    rfl

section

variable (h : Serving (new host registry callTimeout capacity transport) past l)

include h

theorem Serving.rooted : l.Rooted :=
  h.exec.reaches.rooted (Machine.rooted_new host registry callTimeout capacity)

theorem Serving.not_ended : l.isEnded = false :=
  h.spares.not_ended h.rooted

theorem Serving.exact : Machine.ServingExact past.session l.session :=
  h.exec.life.servingExact

theorem Serving.act {a : Machine.Action} {m : Machine M S} (last : l.toMachine.step? a = some m)
    (serves : a.serves = true) (isLocal : a.isLocal = true) :
    Serving (new host registry callTimeout capacity transport) (past ++ [(l, .act a)]) ⟨m, l.transport⟩ := by
  refine h.extend ?_ nofun nofun h.flow (h.spares.step h.exact serves last) ?_
  · rw [step?, if_pos isLocal, last]
    rfl
  · refine (Machine.step?_consuming last fun exhausted he => ?_).trans h.consuming
    rw [he] at isLocal
    cases isLocal

/-- The far end notices nothing of what the tasks of the session do. -/
theorem Serving.works {m : Machine M S} (works : l.toMachine.Works m) :
    ∃ past', Serving (new host registry callTimeout capacity transport) past' ⟨m, l.transport⟩ ∧
      (∀ x ∈ past'.session, x ∈ past.session ∨ x.1.SaysAlone x.2) ∧
      past'.session.heard = past.session.heard ∧ past'.arrived = past.arrived ∧
      past'.looked = past.looked := by
  obtain ⟨done, exec, hAll⟩ := works
  induction exec with
  | refl => exact ⟨past, h, fun _ => .inl, rfl, rfl, rfl⟩
  | @step done q m a _ last ih =>
      obtain ⟨past', hServing, hAlone, hHeard, hArrived, hLooked⟩ :=
        ih fun y hy => hAll y (List.mem_append_left _ hy)
      obtain ⟨hServes, hLocal, hNow⟩ := hAll (q, a) (List.mem_append_right _ (List.mem_singleton.mpr rfl))
      refine ⟨_, hServing.act last hServes hLocal, fun x hx => ?_, ?_, ?_, ?_⟩
      · rw [History.session_append] at hx
        obtain hx | hx := List.mem_append.mp hx
        · exact hAlone x hx
        · obtain rfl := List.mem_singleton.mp hx
          exact .inr hNow
      · refine (History.heard_other fun e he => ?_).trans hHeard
        rw [Option.some_inj.mp he] at hLocal
        cases hLocal
      · exact (History.arrived_other (x := .act a) nofun).trans hArrived
      · rw [History.looked_append, History.looked_other (x := .act a) nofun, List.append_nil, hLooked]

/-- As long as more may come, the session goes on taking envelopes. -/
theorem Serving.consume (going : l.transport.isExhausted = false) (last : l.step? .consume = some l') :
    ∃ e, l.view .consume = some (.receive e) ∧ l.toMachine.receive? e = some l'.toMachine ∧
      Serving (new host registry callTimeout capacity transport) (past ++ [(l, .consume)]) l' := by
  obtain ⟨⟨m, t⟩, hConsume, rfl⟩ := Option.map_eq_some_iff.mp last
  obtain ⟨a, hView, hStep, hOutlet⟩ := Transport.consume?_frame hConsume
  have hReceive : ∃ e, a = .receive e := by
    simp only [Transport.consumes] at hView
    split at hView
    · next _ hStop =>
        obtain ⟨_, hOver, _⟩ := Machine.stopConsuming?_eq_some hStop
        rw [h.not_ended, going] at hOver
        cases hOver
    · cases hView
      exact ⟨_, rfl⟩
    · cases hView
  obtain ⟨e, rfl⟩ := hReceive
  refine ⟨e, hView, hStep, h.extend last (by simp) (by simp) (fun o ho => h.flow o (hOutlet ▸ ho))
    (h.spares.step h.exact rfl hStep) ?_⟩
  exact (Machine.step?_consuming hStep (by simp)).trans h.consuming

variable (fresh : transport.Fresh)

include fresh

/-- The writer goes on. -/
theorem Serving.writing : ∃ o, Writing past l o ∧ o.isOpen = true := by
  obtain ⟨o, hWriting⟩ := h.exec.writing fresh h.accepted
  refine ⟨o, hWriting, ?_⟩
  by_contra hShut
  obtain ⟨before, q, after, rfl, _, hEnded, _⟩ := hWriting.noticed (Bool.eq_false_iff.mpr hShut)
  have hOver := h.exec.isEnded_of_mem (List.mem_append_right _ List.mem_cons_self) hEnded
  rw [h.not_ended] at hOver
  cases hOver

theorem Serving.not_abandoned : l.session.outbound.abandoned = false := by
  obtain ⟨o, hWriting, hOpen⟩ := h.writing fresh
  exact hWriting.live hOpen

theorem Serving.not_refused (t : Ticket) : l.session.sendResult? t ≠ some .refused := by
  intro hRefused
  obtain ⟨x, hx, hState⟩ := Machine.sendResult?_eq_some hRefused
  have hLate := h.exec.life.refusedLate
  have hAbandoned := hLate x (List.mem_of_getElem? hx) hState
  rw [h.not_abandoned fresh] at hAbandoned
  cases hAbandoned

/-- The writer takes an envelope or writes a packet. -/
theorem Serving.write (last : l.step? .write = some l') :
    Serving (new host registry callTimeout capacity transport) (past ++ [(l, .write)]) l' ∧
      l'.session = { l.session with outbound := l'.session.outbound } := by
  obtain ⟨o, hWriting, hOpen⟩ := h.writing fresh
  obtain ⟨o', hOutlet', hStep⟩ := step?_write last hWriting.outlet
  have hFlow := h.flow o hWriting.outlet
  have hExtend : o'.flow = .free → l'.SparesLive → l'.session.consuming = true →
      Serving (new host registry callTimeout capacity transport) (past ++ [(l, .write)]) l' :=
    fun hFree hSpares hConsuming => h.extend last nofun nofun
      (fun p hp => Option.some_inj.mp (hOutlet'.symm.trans hp) ▸ hFree) hSpares hConsuming
  generalize l.view .write = a?, hTo : l'.toMachine = m' at hStep
  cases hStep with
  | took e hand? m₁ _ _ _ _ take _ noted =>
      have hTake := Machine.takeOutbound?_step take
      have hSession : l'.session = m₁.session := by
        rw [hTo]
        exact noted.session
      refine ⟨hExtend hFlow ?_ ?_, ?_⟩
      · rw [hTo]
        exact noted_sparesLive (h.spares.step h.exact rfl hTake) noted
      · rw [hSession]
        exact (Machine.step?_consuming hTake nofun).trans h.consuming
      · rw [noted.session]
        exact Machine.step?_frame hTake
  | put packet packets _ _ _ _ _ =>
      refine ⟨hExtend ?_ (hTo ▸ h.spares) (hTo ▸ h.consuming), ?_⟩
      · rw [hFlow]
        rfl
      · rfl
  | refused _ _ _ refuses _ =>
      rw [hWriting.sound.accepts] at refuses
      cases refuses
  | noticed _ _ ended =>
      rw [h.not_ended] at ended
      cases ended
  | closing _ _ _ shut =>
      rw [hOpen] at shut
      cases shut

/-- What was written is in the order in which it was taken, and the writer has at most one packet in hand. -/
theorem Serving.written_first : written past l <+: past.collected := by
  obtain ⟨o, hWriting, _⟩ := h.writing fresh
  rw [← hWriting.written_hand]
  exact List.prefix_append _ _

/-! ### At rest -/

section

variable (hAdvance : ∀ t, l.advanceOutbound? t = none) (hWrite : l.step? .write = none)

include hWrite

theorem Serving.written_at_rest : written past l = past.collected ∧ l.session.outbound.queued = [] := by
  obtain ⟨o, hWriting, hOpen⟩ := h.writing fresh
  have hIdle : l.transport.write? l.toMachine = none := Option.map_eq_none_iff.mp hWrite
  have hFlow : o.flow.isOpen = true := by
    rw [h.flow o hWriting.outlet]
    rfl
  obtain ⟨hHand, hQueued⟩ := Transport.write?_eq_none hIdle hWriting.outlet hOpen hFlow
  refine ⟨?_, hQueued⟩
  rw [← hWriting.written_hand, hHand]
  exact (List.append_nil _).symm

include hAdvance

/-- No send is under way. -/
theorem Serving.tickets_at_rest : l.session.outbound.tickets = [] := by
  obtain ⟨_, hQueued⟩ := h.written_at_rest fresh hWrite
  have hRoom : l.session.outbound.isFull = false := by
    rw [Outbound.isFull, hQueued]
    exact decide_eq_false (Nat.not_lt_zero _)
  have hStuck : ∀ t, l.session.outbound.advance? t = none := fun t =>
    Machine.advanceOutbound?_eq_none_iff.mp (hAdvance t)
  refine List.eq_nil_iff_forall_not_mem.mpr fun t ht => ?_
  rw [(Outbound.isFull_of_stuck hStuck ht).1] at hRoom
  cases hRoom

/-- Every send has ended, if nobody gave up. -/
theorem Serving.sent_at_rest {t : Ticket} {x : Send} (hx : l.session.sends[t]? = some x)
    (patient : x.state ≠ .givenUp) : l.session.sendResult? t ≠ none := by
  have hQueued := h.exec.life.pendingQueued
  obtain ⟨sender, e, state⟩ := x
  rw [Session.sendResult?, hx]
  cases state with
  | pending =>
      have hTicket := hQueued t _ hx rfl
      rw [h.tickets_at_rest fresh hAdvance hWrite] at hTicket
      cases hTicket
  | done result => exact Option.some_ne_none _
  | givenUp => exact absurd rfl patient

/-- If nobody gave up, the transport has taken all that was sent. -/
theorem Serving.taken_at_rest (patient : ∀ x ∈ l.session.sends, x.state ≠ .givenUp) :
    past.session.taken.Perm l.session.sent := by
  have life := h.exec.life
  have hQueue := life.queueing
  have hComplete := hQueue.complete (h.not_abandoned fresh)
  rw [(h.written_at_rest fresh hWrite).2, List.append_nil] at hComplete
  rw [← hComplete]
  refine hQueue.entered_sent.perm_of_length_le ?_
  have hAll : List.range l.session.sends.length ⊆ (Machine.History.entered past.session).map Prod.fst := by
    intro t ht
    have hSend := List.getElem?_eq_getElem (List.mem_range.mp ht)
    have hIdle := h.tickets_at_rest fresh hAdvance hWrite ▸ List.not_mem_nil (a := t)
    exact life.entered_of_idle hIdle (h.not_abandoned fresh) hSend
      (patient _ (List.mem_of_getElem? hSend))
  have hLength := (List.subperm_of_subset List.nodup_range hAll).length_le
  simpa [Session.sent, Session.said] using hLength

end

end

end

end PeerLink.Linked

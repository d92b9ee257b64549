import PeerLink.Proofs.Link.Settling
import PeerLink.Proofs.Link.Transparency

/-! How a session ends that nobody disturbs. It ends when its reader has stopped and it has taken all that
was in the queue between them, and until then nothing keeps its reader from reading on. -/
namespace PeerLink

variable {M S : Type}

namespace Transport

variable {t t' : Transport} {m m' : Machine M S} {inlet : Link.Inlet}

theorem isExhausted_eq (h : t.inlet? = some inlet) : t.isExhausted = inlet.isExhausted := by
  cases t with
  | framed f =>
      cases h
      rfl
  | webSocket w =>
      cases h
      rfl
  | queues _ => cases h
  | paired => cases h

/-- A writer that has a packet in hand is open. -/
theorem isOpen_of_hand {o : Outlet} {packet : Link.Written} (h : t.outlet? = some o)
    (hHand : o.hand? = some packet) : o.isOpen = true := by
  rw [outlet?_eq] at h
  obtain ⟨⟨writer, sink, farewell⟩, _, rfl⟩ := Option.map_eq_some_iff.mp h
  cases writer with
  | writing packet => rfl
  | _ => cases hHand

theorem read?_of_stopped (h : t.inlet? = some inlet) (hStopped : inlet.reader = .stopped) :
    t.read? m = none := by
  have hAdvance : inlet.advance? m.session.consuming = none := by
    rw [Link.Inlet.advance?, hStopped]
  cases t with
  | framed f =>
      cases h
      rw [read?, Link.Framed.read?, if_pos (by simp [hStopped]), hAdvance]
      rfl
  | webSocket w =>
      cases h
      rw [read?, Link.WebSocket.read?, if_pos (by simp [hStopped]), hAdvance]
      rfl
  | queues _ => cases h
  | paired => cases h

theorem consume?_inlet (h : t.consume? m = some (m', t')) (hInlet : t.inlet? = some inlet) :
    t'.inlet? = some inlet ∨
      ∃ e queued, inlet.queued = e :: queued ∧ t'.inlet? = some { inlet with queued } := by
  cases t with
  | framed f =>
      cases hInlet
      obtain ⟨_, hSame⟩ | ⟨e, queued, _, hQueue, hNext⟩ := consume?_intake h rfl
      · exact .inl (inlet?_of_intake hSame)
      · exact .inr ⟨e, queued, hQueue, inlet?_of_intake hNext⟩
  | webSocket w =>
      cases hInlet
      obtain ⟨_, hSame⟩ | ⟨e, queued, _, hQueue, hNext⟩ := consume?_mailbox h rfl
      · exact .inl (inlet?_of_mailbox hSame)
      · exact .inr ⟨e, queued, hQueue, inlet?_of_mailbox hNext⟩
  | queues _ => cases hInlet
  | paired => cases hInlet

theorem write?_inlet (h : t.write? m = some (m', t')) (hInlet : t.inlet? = some inlet) :
    t'.inlet? = some inlet := by
  cases t with
  | framed f =>
      cases hInlet
      exact inlet?_of_intake (write?_intake h rfl)
  | webSocket w =>
      cases hInlet
      exact inlet?_of_mailbox (write?_mailbox h rfl)
  | queues _ => cases hInlet
  | paired => cases hInlet

end Transport

namespace Link.Inlet

variable {i : Link.Inlet}

theorem isExhausted_iff : i.isExhausted = true ↔ i.queued = [] ∧ i.reader = .stopped := by
  rw [isExhausted, Bool.and_eq_true, List.isEmpty_iff, beq_iff_eq]

theorem waiting_of_exhausted (h : i.isExhausted = true) : i.waiting = [] := by
  obtain ⟨hQueued, hStopped⟩ := isExhausted_iff.mp h
  rw [waiting, hStopped]
  exact hQueued

end Link.Inlet

namespace Machine

variable {m m' : Machine M S}

theorem Noted.isEnded (h : m.Noted m') : m'.isEnded = m.isEnded := by
  obtain ⟨_, _, rfl⟩ := h
  rfl

theorem isEnded_new (host : Host) (registry : Registry M S) (callTimeout : Option Duration)
    (capacity : Nat) : (new host registry callTimeout capacity).isEnded = false := by
  apply Bool.eq_false_iff.mpr
  intro hEnded
  have hRoot := (rooted_new host registry callTimeout capacity).root
  have hFlagged := (Lifetimes.isCancelled_root hRoot).symm.trans hEnded
  have hOld : host.lifetimes.isFlagged host.lifetimes.next = true :=
    (Lifetimes.isFlagged_add _ _ _).symm.trans hFlagged
  exact Nat.lt_irrefl _ (Lifetimes.lt_next_of_isFlagged hOld)

end Machine

namespace WriteStep

variable {m m' : Machine M S} {o o' : Outlet} {a? : Option Machine.Action}

/-- A writer that ends its session had a packet refused. -/
theorem refused_of_isEnded (h : WriteStep m o a? m' o') (hLive : m.isEnded = false)
    (hEnded : m'.isEnded = true) : ∃ packet, o.hand? = some packet ∧ o.refuses = true := by
  have hSame : m'.isEnded ≠ m.isEnded := by rw [hLive, hEnded]; decide
  cases h with
  | took e hand? m₁ _ _ _ _ take _ noted =>
      obtain ⟨_, _, rfl⟩ := Machine.takeOutbound?_eq_some take
      exact absurd noted.isEnded hSame
  | put => exact absurd rfl hSame
  | refused packet m₁ hand refuses => exact ⟨packet, hand, refuses⟩
  | noticed => exact absurd rfl hSame
  | closing _ _ _ _ _ _ _ _ session =>
      obtain ⟨-, rfl⟩ | ⟨-, rfl⟩ := session
      · exact absurd rfl hSame
      · exact absurd rfl hSame

end WriteStep

namespace Linked

variable {l l' : Linked M S} {x : Action} {past : History M S}

/-- Nobody closes the session or cancels its lifetime by name, and no packet of it is refused. -/
structure History.Undisturbed (past : History M S) : Prop where
  unclosed : ∀ y ∈ past, y.2 ≠ .act .close
  uncancelled : ∀ y ∈ past, y.2 ≠ .act (.cancel y.1.session.lifetime)
  unrefused : ¬ past.Refused

theorem History.Undisturbed.before (h : History.Undisturbed (past ++ [(l, x)])) :
    past.Undisturbed where
  unclosed y hy := h.unclosed y (List.mem_append_left _ hy)
  uncancelled y hy := h.uncancelled y (List.mem_append_left _ hy)
  unrefused hRefused := h.unrefused (by
    obtain ⟨q, o, packet, hMem, hRest⟩ := hRefused
    exact ⟨q, o, packet, List.mem_append_left _ hMem, hRest⟩)

/-- A session with a transport ends as one without it, or since a packet is refused. -/
theorem cause_of_isEnded (hRooted : l.Rooted) (hFits : Machine.TableFits l.session)
    (h : l.step? x = some l') (hLive : l.isEnded = false) (hEnded : l'.isEnded = true) :
    x = .act .close ∨ x = .act (.cancel l.session.lifetime) ∨ History.Refused [(l, x)] ∨
      x = .consume ∧ l.transport.isExhausted = true := by
  have hSame : l'.isEnded ≠ l.isEnded := by rw [hLive, hEnded]; decide
  cases x with
  | act a =>
      rw [step?] at h
      split at h
      · next hLocal =>
          obtain ⟨m, hStep, rfl⟩ := Option.map_eq_some_iff.mp h
          obtain rfl | ⟨exhausted, rfl⟩ | rfl := hRooted.cause_of_isEnded hStep hFits hLive hEnded
          · exact .inl rfl
          · cases hLocal
          · exact .inr (.inl rfl)
      · cases h
  | read =>
      obtain ⟨⟨m, t⟩, hRead, rfl⟩ := Option.map_eq_some_iff.mp h
      exact absurd (Transport.read?_frame hRead).1.isEnded hSame
  | consume =>
      obtain ⟨⟨m, t⟩, hConsume, rfl⟩ := Option.map_eq_some_iff.mp h
      obtain ⟨a, hView, hStep, _⟩ := Transport.consume?_frame hConsume
      refine .inr (.inr (.inr ⟨rfl, ?_⟩))
      obtain ⟨rfl, _⟩ | ⟨e, rfl, _⟩ := Transport.consumes_cases hView
      · -- The session has not ended, so it stops because nothing more will come.
        obtain ⟨_, hCause, _⟩ := Machine.stopConsuming?_eq_some hStep
        rwa [hLive, Bool.false_or] at hCause
      · obtain he | ⟨exhausted, he⟩ | he := hRooted.cause_of_isEnded hStep hFits hLive hEnded
        · cases he
        · cases he
        · cases he
  | write =>
      refine .inr (.inr (.inl ?_))
      obtain ⟨⟨m, t⟩, hWrite, rfl⟩ := Option.map_eq_some_iff.mp h
      obtain ⟨_, _, _, hTake⟩ | ⟨o, o', hOutlet, _, hStep⟩ := Transport.write?_step hWrite
      · obtain he | ⟨exhausted, he⟩ | he := hRooted.cause_of_isEnded hTake hFits hLive hEnded
        · cases he
        · cases he
        · cases he
      · obtain ⟨packet, hHand, hRefuses⟩ := hStep.refused_of_isEnded hLive hEnded
        exact ⟨l, o, packet, List.mem_singleton.mpr rfl, hOutlet,
          Transport.isOpen_of_hand hOutlet hHand, hHand, hRefuses⟩
  | outside event =>
      obtain ⟨t, _, rfl⟩ := Option.map_eq_some_iff.mp h
      exact absurd rfl hSame

theorem Event.change?_inlet {event : Event} {t t' : Transport} {inlet : Link.Inlet}
    (h : event.change? t = some t') (hInlet : t.inlet? = some inlet) : t'.inlet? = some inlet := by
  cases t with
  | framed f =>
      obtain ⟨hIntake, _⟩ := Event.change?_intake h rfl
      rw [Transport.inlet?_of_intake hIntake, ← hInlet]
      cases event <;> rfl
  | webSocket w =>
      obtain ⟨hMailbox, _⟩ := Event.change?_mailbox h rfl
      rw [Transport.inlet?_of_mailbox hMailbox, ← hInlet]
      cases event <;> rfl
  | queues _ => cases hInlet
  | paired => cases hInlet

/-- A queue into which nothing more is put stays empty. -/
theorem isExhausted_step {inlet : Link.Inlet} (h : l.step? x = some l')
    (hInlet : l.transport.inlet? = some inlet) (hExhausted : inlet.isExhausted = true) :
    x ≠ .read ∧ l'.transport.inlet? = some inlet := by
  obtain ⟨hQueued, hStopped⟩ := Link.Inlet.isExhausted_iff.mp hExhausted
  cases x with
  | act a =>
      rw [step?] at h
      split at h
      · obtain ⟨m, _, rfl⟩ := Option.map_eq_some_iff.mp h
        exact ⟨(by simp), hInlet⟩
      · cases h
  | read =>
      rw [step?, Transport.read?_of_stopped hInlet hStopped] at h
      cases h
  | consume =>
      obtain ⟨⟨m, t⟩, hConsume, rfl⟩ := Option.map_eq_some_iff.mp h
      obtain hSame | ⟨e, queued, hSome, _⟩ := Transport.consume?_inlet hConsume hInlet
      · exact ⟨(by simp), hSame⟩
      · rw [hQueued] at hSome
        cases hSome
  | write =>
      obtain ⟨⟨m, t⟩, hWrite, rfl⟩ := Option.map_eq_some_iff.mp h
      exact ⟨(by simp), Transport.write?_inlet hWrite hInlet⟩
  | outside event =>
      obtain ⟨t, hChange, rfl⟩ := Option.map_eq_some_iff.mp h
      exact ⟨(by simp), Event.change?_inlet hChange hInlet⟩

section

variable {host : Host} {registry : Registry M S} {callTimeout : Option Duration} {capacity : Nat}
  {transport : Transport} (fresh : transport.Fresh)
  (run : Execution (new host registry callTimeout capacity transport) past l)
  (undisturbed : past.Undisturbed)

include fresh run undisturbed

/-- A session that nobody disturbs ends when its reader has stopped and it has handled all that was
queued. -/
theorem Execution.exhausted_of_isEnded (hEnded : l.isEnded = true) :
    ∃ inlet, l.transport.inlet? = some inlet ∧ inlet.isExhausted = true := by
  induction run with
  | refl =>
      have hLive := Machine.isEnded_new host registry callTimeout capacity
      have hEnded : (Machine.new host registry callTimeout capacity).isEnded = true := hEnded
      rw [hLive] at hEnded
      cases hEnded
  | @step past l l' x prior last ih =>
      have hKept : ∀ {inlet}, l.transport.inlet? = some inlet → inlet.isExhausted = true →
          ∃ inlet, l'.transport.inlet? = some inlet ∧ inlet.isExhausted = true :=
        fun hInlet hExhausted => ⟨_, (isExhausted_step last hInlet hExhausted).2, hExhausted⟩
      cases hBefore : l.isEnded with
      | true =>
          obtain ⟨inlet, hInlet, hExhausted⟩ := ih undisturbed.before hBefore
          exact hKept hInlet hExhausted
      | false =>
          have hRooted := prior.reaches.rooted (Machine.rooted_new host registry callTimeout capacity)
          have hMem : (l, x) ∈ past ++ [(l, x)] :=
            List.mem_append_right _ (List.mem_singleton.mpr rfl)
          obtain hClose | hCancel | hRefused | ⟨_, hExhausted⟩ :=
            cause_of_isEnded hRooted prior.life.servingExact.fits last hBefore hEnded
          · exact absurd hClose (undisturbed.unclosed _ hMem)
          · exact absurd hCancel (undisturbed.uncancelled _ hMem)
          · obtain ⟨q, o, packet, hAt, hRest⟩ := hRefused
            exact absurd ⟨q, o, packet, List.mem_append_right _ hAt, hRest⟩ undisturbed.unrefused
          · obtain ⟨inlet, hInlet⟩ := prior.inlet?_isSome fresh
            exact hKept hInlet (Transport.isExhausted_eq hInlet ▸ hExhausted)

/-- So nothing keeps its reader from reading on. -/
theorem Execution.not_interrupted : ¬ past.Interrupted := by
  induction run with
  | refl =>
      rintro ⟨_, hMem, _⟩
      cases hMem
  | @step past l l' x prior last ih =>
      rintro ⟨q, hMem, hEnded⟩
      obtain hMem | hMem := List.mem_append.mp hMem
      · exact ih undisturbed.before ⟨q, hMem, hEnded⟩
      · cases List.mem_singleton.mp hMem
        obtain ⟨inlet, hInlet, hExhausted⟩ :=
          prior.exhausted_of_isEnded fresh undisturbed.before hEnded
        exact (isExhausted_step last hInlet hExhausted).1 rfl

end

end Linked

end PeerLink

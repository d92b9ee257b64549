import PeerLink.Proofs.Link.Execution
import PeerLink.Proofs.Session.Overtaking

/-! What the writer of a transport does with the envelopes of its session. It writes the packets of all
that it takes, in order and each once, before it closes the sink. But it stops taking them when it notices
that the session has ended, and what is in the queue by then is never written. -/
namespace PeerLink

variable {M S : Type}

/-- A writer that has done nothing yet. -/
def Outlet.new : Outlet :=
  { isOpen := true, hand? := none, packets := [], flow := .free, refuses := false, closed := false }

namespace Outlet

/-- What holds of an outlet whose sink has refused nothing. -/
structure Sound (o : Outlet) : Prop where
  accepts : o.refuses = false
  closed : o.closed = true → o.isOpen = false
  hand : o.isOpen = false → o.hand? = none

theorem sound_new : new.Sound :=
  ⟨rfl, nofun, nofun⟩

end Outlet

namespace WriteStep

variable {m m' : Machine M S} {o o' : Outlet} {a? : Option Machine.Action}

theorem sound (h : WriteStep m o a? m' o') (hSound : o.Sound) : o'.Sound := by
  cases h with
  | took e hand? m₁ _ isOpen =>
      exact ⟨hSound.accepts, hSound.closed, fun hShut => absurd hShut (by simp [isOpen])⟩
  | put packet packets isOpen => exact ⟨hSound.accepts, hSound.closed, fun _ => rfl⟩
  | refused packet _ hand refuses => exact ⟨rfl, fun _ => rfl, fun _ => rfl⟩
  | noticed isOpen hand => exact ⟨hSound.accepts, fun _ => rfl, fun _ => rfl⟩
  | closing _ _ _ _ isOpen hand _ refuses =>
      have hAccepts := Bool.eq_false_iff.mpr fun hRefuses =>
        absurd (refuses hRefuses) (by simp [hSound.accepts])
      exact ⟨hAccepts, fun _ => isOpen, fun _ => hand⟩

/-- The writer loses no packet that it has, and gets one only from an envelope that it takes. -/
theorem packets (h : WriteStep m o a? m' o') (hSound : o.Sound) :
    (a? ≠ some .take ∧ o'.packets ++ o'.hand?.toList = o.packets ++ o.hand?.toList) ∨
      ∃ e m₁, a? = some .take ∧ m.takeOutbound? = some (e, m₁) ∧
        o'.packets ++ o'.hand?.toList = o.packets ++ o.hand?.toList ++ e.packet?.toList := by
  cases h with
  | took e hand? m₁ _ _ hand _ take packet =>
      exact .inr ⟨e, m₁, rfl, take, by rw [hand, packet, Option.toList_none, List.append_nil]⟩
  | put packet packets _ hand _ _ written =>
      exact .inl ⟨by simp, by rw [hand, written, Option.toList_none, List.append_nil,
        Option.toList_some]⟩
  | refused packet _ _ refuses =>
      rw [hSound.accepts] at refuses
      cases refuses
  | noticed _ hand => exact .inl ⟨by simp, by rw [hand]⟩
  | closing _ _ _ shut _ hand packets _ session =>
      refine .inl ⟨?_, by rw [packets, hand, hSound.hand shut]⟩
      obtain ⟨rfl, _⟩ | ⟨rfl, _⟩ := session
      · simp
      · simp

/-- A writer that goes on has not gone away. -/
theorem live (h : WriteStep m o a? m' o') (hOpen : o'.isOpen = true) :
    o.isOpen = true ∧ m'.session.outbound.abandoned = m.session.outbound.abandoned := by
  cases h with
  | took e hand? m₁ _ isOpen _ _ take _ noted =>
      rw [noted.session]
      exact ⟨isOpen, Machine.step?_abandoned (Machine.takeOutbound?_step take) (by simp)⟩
  | put packet packets isOpen => exact ⟨isOpen, rfl⟩
  | refused packet => cases hOpen
  | noticed => cases hOpen
  | closing _ _ _ _ isOpen =>
      rw [isOpen] at hOpen
      cases hOpen

/-- A writer stops when the session has ended, with nothing in hand. -/
theorem shut (h : WriteStep m o a? m' o') (hSound : o.Sound) (hShut : o'.isOpen = false) :
    (o.isOpen = false ∧ o'.packets = o.packets) ∨
      (o.isOpen = true ∧ o.hand? = none ∧ m.isEnded = true ∧ o'.packets = o.packets) := by
  cases h with
  | took e hand? m₁ _ isOpen =>
      simp only [isOpen] at hShut
      cases hShut
  | put packet packets isOpen =>
      simp only [isOpen] at hShut
      cases hShut
  | refused packet _ _ refuses =>
      rw [hSound.accepts] at refuses
      cases refuses
  | noticed isOpen hand ended => exact .inr ⟨isOpen, hand, ended, rfl⟩
  | closing _ _ _ shut _ _ packets => exact .inl ⟨shut, packets⟩

end WriteStep

/-- A transport for packets at the start. -/
inductive Transport.Fresh : Transport → Prop where
  | framed (capacity : Nat) : Fresh (.framed (.new capacity))
  | webSocket (capacity : Nat) (pingMessage : String) : Fresh (.webSocket (.new capacity pingMessage))

theorem Transport.Fresh.outlet? {t : Transport} (h : t.Fresh) : t.outlet? = some .new := by
  cases h with
  | framed capacity => rfl
  | webSocket capacity pingMessage => rfl

namespace Linked

variable {l l' : Linked M S} {x : Action} {past : History M S}

/-- The writer has not begun to close the sink. -/
def isWriting (l : Linked M S) : Bool :=
  l.transport.outlet?.any Outlet.isOpen

/-- The sink takes items. -/
def isFlowing (l : Linked M S) : Bool :=
  l.transport.outlet?.any fun o => o.flow.isOpen

def isClosed (l : Linked M S) : Bool :=
  l.transport.outlet?.any Outlet.closed

/-- The packet that waits for the sink, if one does. -/
def hand (l : Linked M S) : List Link.Written :=
  (l.transport.outlet?.bind Outlet.hand?).toList

/-- The packets in the sink. -/
def packets (l : Linked M S) : List Link.Written :=
  (l.transport.outlet?.map Outlet.packets).getD []

/-- The packets of the envelopes that the writer has not taken. -/
def waiting (l : Linked M S) : List Link.Written :=
  l.session.outbound.queued.filterMap Envelope.packet?

/-- The packets that were looked at, in order. -/
def History.looked (past : History M S) : List Link.Written :=
  past.flatMap fun x => match x.2 with
    | .outside .looked => x.1.packets
    | _ => []

/-- All packets that were written, in order. -/
def written (past : History M S) (l : Linked M S) : List Link.Written :=
  past.looked ++ l.packets

/-- The packets of the envelopes that got into the queue, in order. -/
def History.sent (past : History M S) : List Link.Written :=
  past.session.entered.filterMap fun x => x.2.packet?

/-- The packets of the envelopes that the writer took, in order. -/
def History.collected (past : History M S) : List Link.Written :=
  past.session.taken.filterMap Envelope.packet?

theorem History.looked_append :
    History.looked (past ++ [(l, x)]) = past.looked ++ History.looked [(l, x)] :=
  List.flatMap_append

theorem History.sent_eq : past.sent = (past.session.entered.map Prod.snd).filterMap Envelope.packet? := by
  rw [History.sent, List.filterMap_map]
  rfl

/-! ### Steps that leave the writer alone -/

/-- What an action is to the sink. -/
def Action.onOutlet : Action → Outlet → Outlet
  | .outside event => event.onOutlet
  | _ => id

theorem onOutlet_packets (h : x ≠ .outside .looked) {o : Outlet} :
    (x.onOutlet o).packets = o.packets := by
  cases x with
  | outside event =>
      cases event with
      | looked => exact absurd rfl h
      | _ => rfl
  | _ => rfl

theorem consumes_quiet {t : Transport} {m : Machine M S} {a : Machine.Action}
    (h : t.consumes m = some a) : a ≠ .take ∧ a ≠ .abandon := by
  unfold Transport.consumes at h
  split at h
  · cases h
    simp
  · cases h
    simp
  · cases h

/-- Only the writer takes envelopes, and only the writer can go away. -/
theorem step?_quiet (h : l.step? x = some l') (hOther : x ≠ .write) :
    l'.transport.outlet? = l.transport.outlet?.map x.onOutlet ∧
      ∀ a, l.view x = some a → a ≠ .take ∧ a ≠ .abandon := by
  cases x with
  | act a =>
      rw [step?] at h
      split at h
      · next hLocal =>
          obtain ⟨m, _, rfl⟩ := Option.map_eq_some_iff.mp h
          refine ⟨Option.map_id'.symm, fun b hView => ?_⟩
          cases hView
          exact ⟨fun he => by simp [he, Machine.Action.isLocal] at hLocal,
            fun he => by simp [he, Machine.Action.isLocal] at hLocal⟩
      · cases h
  | read =>
      obtain ⟨⟨m, t⟩, hRead, rfl⟩ := Option.map_eq_some_iff.mp h
      exact ⟨(Transport.read?_frame hRead).2.trans Option.map_id'.symm, by simp [view]⟩
  | consume =>
      obtain ⟨⟨m, t⟩, hConsume, rfl⟩ := Option.map_eq_some_iff.mp h
      obtain ⟨_, _, _, hOutlet⟩ := Transport.consume?_frame hConsume
      exact ⟨hOutlet.trans Option.map_id'.symm, fun a hView => consumes_quiet hView⟩
  | write => exact absurd rfl hOther
  | outside event =>
      obtain ⟨t, hChange, rfl⟩ := Option.map_eq_some_iff.mp h
      exact ⟨Event.change?_outlet hChange, by simp [view]⟩

theorem History.collected_other (h : ∀ a, l.view x = some a → a ≠ .take) :
    History.collected (past ++ [(l, x)]) = past.collected := by
  rw [History.collected, History.session_append]
  cases hView : l.view x with
  | none => rw [Option.map_none, Option.toList_none, List.append_nil, History.collected]
  | some a =>
      rw [Option.map_some, Option.toList_some, Machine.History.taken_append,
        Machine.History.taken_other (h a hView), List.append_nil, History.collected]

theorem History.collected_take {e : Envelope} {m : Machine M S} (hView : l.view x = some .take)
    (hTake : l.takeOutbound? = some (e, m)) :
    History.collected (past ++ [(l, x)]) = past.collected ++ e.packet?.toList := by
  rw [History.collected, History.session_append, hView, Option.map_some, Option.toList_some,
    Machine.History.taken_append, List.filterMap_append, ← History.collected,
    Machine.History.taken_take hTake]
  cases h : e.packet? with
  | none => rw [List.filterMap_cons_none h, List.filterMap_nil, Option.toList_none]
  | some packet => rw [List.filterMap_cons_some h, List.filterMap_nil, Option.toList_some]

theorem History.looked_other (h : x ≠ .outside .looked) : History.looked [(l, x)] = [] := by
  cases x with
  | outside event =>
      cases event with
      | looked => exact absurd rfl h
      | _ => rfl
  | _ => rfl

/-- What was looked at is no longer in the sink, but it was written. -/
theorem written_quiet (h : l.step? x = some l') (hOther : x ≠ .write) :
    written (past ++ [(l, x)]) l' = written past l := by
  obtain ⟨hOutlet, _⟩ := step?_quiet h hOther
  by_cases hLooked : x = .outside .looked
  · have hPackets : l'.packets = [] := by
      rw [packets, hOutlet, hLooked]
      cases l.transport.outlet? with
      | none => rfl
      | some o => rfl
    have hSeen : History.looked [(l, x)] = l.packets := by
      rw [hLooked]
      exact List.append_nil _
    rw [written, written, History.looked_append, hPackets, hSeen, List.append_nil]
  · have hPackets : l'.packets = l.packets := by
      rw [packets, packets, hOutlet, Option.map_map]
      congr 2
      funext o
      exact onOutlet_packets hLooked
    rw [written, written, History.looked_append, hPackets, History.looked_other hLooked,
      List.append_nil]

/-! ### The writer -/

section Outlets

variable {o : Outlet} (h : l.transport.outlet? = some o)
include h

theorem isWriting_eq : l.isWriting = o.isOpen := by
  rw [isWriting, h, Option.any_some]

theorem isFlowing_eq : l.isFlowing = o.flow.isOpen := by
  rw [isFlowing, h, Option.any_some]

theorem isClosed_eq : l.isClosed = o.closed := by
  rw [isClosed, h, Option.any_some]

theorem hand_eq : l.hand = o.hand?.toList := by
  rw [hand, h, Option.bind_some]

theorem written_eq : written past l = past.looked ++ o.packets := by
  rw [written, packets, h, Option.map_some, Option.getD_some]

end Outlets

/-- What the writer has done, given that the sink has refused nothing. -/
structure Writing (past : History M S) (l : Linked M S) (o : Outlet) : Prop where
  outlet : l.transport.outlet? = some o
  sound : o.Sound
  flow : past.looked ++ (o.packets ++ o.hand?.toList) = past.collected
  live : o.isOpen = true → l.session.outbound.abandoned = false
  /-- When the writer stopped, what it had not taken yet was still in the queue. -/
  noticed : o.isOpen = false → ∃ before q after, past = before ++ (q, .write) :: after ∧
    q.isWriting = true ∧ q.isEnded = true ∧ written before q ++ q.waiting = before.sent ∧
    written past l = written before q

variable {o : Outlet}

theorem writing_new {host : Host} {registry : Registry M S} {callTimeout : Option Duration}
    {capacity : Nat} {transport : Transport} (fresh : transport.Fresh) :
    Writing [] (new host registry callTimeout capacity transport) .new where
  outlet := fresh.outlet?
  sound := Outlet.sound_new
  flow := rfl
  live _ := rfl
  noticed := nofun

theorem Writing.written_hand (hWriting : Writing past l o) :
    written past l ++ o.hand?.toList = past.collected := by
  rw [written_eq hWriting.outlet, List.append_assoc]
  exact hWriting.flow

/-- What was collected is in order, so with what is still in the queue it is all that got in. -/
theorem Writing.collected_waiting (hWriting : Writing past l o) (hOpen : o.isOpen = true)
    (hQueue : Machine.Queueing past.session l.session) : past.collected ++ l.waiting = past.sent := by
  rw [History.sent_eq, hQueue.complete (hWriting.live hOpen), List.filterMap_append]
  rfl

/-- What the writer had written when it stopped is all that it will ever write. -/
theorem Writing.noticed_step (hWriting : Writing past l o) (hShut : o.isOpen = false)
    (hSame : written (past ++ [(l, x)]) l' = written past l) :
    ∃ before q after, past ++ [(l, x)] = before ++ (q, .write) :: after ∧
      q.isWriting = true ∧ q.isEnded = true ∧ written before q ++ q.waiting = before.sent ∧
      written (past ++ [(l, x)]) l' = written before q := by
  obtain ⟨before, q, after, rfl, hOpen, hEnded, hSent, hWritten⟩ := hWriting.noticed hShut
  exact ⟨before, q, after ++ [(l, x)], by simp, hOpen, hEnded, hSent, hSame.trans hWritten⟩

theorem onOutlet_frame (hAccepts : ∀ error, x ≠ .outside (.refuse error)) (o : Outlet) :
    (x.onOutlet o).isOpen = o.isOpen ∧ (x.onOutlet o).hand? = o.hand? ∧
      (x.onOutlet o).refuses = o.refuses ∧ (x.onOutlet o).closed = o.closed := by
  cases x with
  | outside event =>
      cases event with
      | refuse error => exact absurd rfl (hAccepts error)
      | _ => exact ⟨rfl, rfl, rfl, rfl⟩
  | _ => exact ⟨rfl, rfl, rfl, rfl⟩

theorem Writing.quiet (hWriting : Writing past l o) (h : l.step? x = some l') (hOther : x ≠ .write)
    (hAccepts : ∀ error, x ≠ .outside (.refuse error)) :
    Writing (past ++ [(l, x)]) l' (x.onOutlet o) := by
  obtain ⟨hOutlet, hView⟩ := step?_quiet h hOther
  rw [hWriting.outlet, Option.map_some] at hOutlet
  obtain ⟨hOpen, hHand, hRefuses, hClosed⟩ := onOutlet_frame hAccepts o
  have hWritten : written (past ++ [(l, x)]) l' = written past l := written_quiet h hOther
  constructor
  · exact hOutlet
  · constructor
    · rw [hRefuses]
      exact hWriting.sound.accepts
    · rw [hClosed, hOpen]
      exact hWriting.sound.closed
    · rw [hOpen, hHand]
      exact hWriting.sound.hand
  · rw [← List.append_assoc, ← written_eq hOutlet, hWritten, hHand,
      History.collected_other fun a ha => (hView a ha).1]
    exact hWriting.written_hand
  · intro hStays
    rw [hOpen] at hStays
    obtain ⟨_, hSame⟩ | ⟨a, m, ha, hStep, hSame⟩ := step?_view h
    · rw [hSame]
      exact hWriting.live hStays
    · rw [hSame, Machine.step?_abandoned hStep (hView a ha).2]
      exact hWriting.live hStays
  · rw [hOpen]
    exact fun hShut => hWriting.noticed_step hShut hWritten

theorem step?_write (h : l.step? .write = some l') (hOutlet : l.transport.outlet? = some o) :
    ∃ o', l'.transport.outlet? = some o' ∧
      WriteStep l.toMachine o (l.view .write) l'.toMachine o' := by
  obtain ⟨⟨m, t⟩, hWrite, rfl⟩ := Option.map_eq_some_iff.mp h
  obtain ⟨hNone, _⟩ | ⟨o₁, o', hSome, hOutlet', hStep⟩ := Transport.write?_step hWrite
  · rw [hOutlet] at hNone
    cases hNone
  · rw [hOutlet] at hSome
    cases hSome
    exact ⟨o', hOutlet', hStep⟩

theorem Writing.write (hWriting : Writing past l o) (h : l.step? .write = some l')
    (hQueue : Machine.Queueing past.session l.session) :
    ∃ o', Writing (past ++ [(l, .write)]) l' o' := by
  obtain ⟨o', hOutlet, hStep⟩ := step?_write h hWriting.outlet
  have hLooked : History.looked (past ++ [(l, .write)]) = past.looked := by
    rw [History.looked_append, History.looked_other (by simp), List.append_nil]
  refine ⟨o', hOutlet, hStep.sound hWriting.sound, ?_, fun hOpen => ?_, fun hShut => ?_⟩
  · rw [hLooked]
    obtain ⟨hView, hSame⟩ | ⟨e, m₁, hView, hTake, hMore⟩ := hStep.packets hWriting.sound
    · rw [hSame, History.collected_other fun a ha he => hView (he ▸ ha)]
      exact hWriting.flow
    · rw [hMore, History.collected_take hView hTake, ← List.append_assoc, hWriting.flow]
  · obtain ⟨hBefore, hSame⟩ := hStep.live hOpen
    exact hSame.trans (hWriting.live hBefore)
  · have hWritten : o'.packets = o.packets →
        written (past ++ [(l, .write)]) l' = written past l := fun hSame => by
      rw [written_eq hOutlet, written_eq hWriting.outlet, hLooked, hSame]
    obtain ⟨hBefore, hSame⟩ | ⟨hOpen, hHand, hEnded, hSame⟩ := hStep.shut hWriting.sound hShut
    · exact hWriting.noticed_step hBefore (hWritten hSame)
    · -- The writer stops in this very step. The queue still has all that was not collected, because only a
      -- writer that has stopped gives it up.
      have hAll := hWriting.written_hand
      rw [hHand, Option.toList_none, List.append_nil] at hAll
      refine ⟨past, l, [], rfl, ?_, hEnded, ?_, hWritten hSame⟩
      · rw [isWriting_eq hWriting.outlet, hOpen]
      · rw [hAll]
        exact hWriting.collected_waiting hOpen hQueue

/-- The sink has refused nothing. -/
def History.Accepted (past : History M S) : Prop :=
  ∀ x ∈ past, ∀ error, x.2 ≠ .outside (.refuse error)

theorem accepted_of_play {final : Linked M S} {actions : List Action}
    (h : l.play actions = some (past, final))
    (hActions : ∀ error, Action.outside (.refuse error) ∉ actions) : past.Accepted :=
  fun x hx error he => hActions error (by
    rw [← play_actions h, ← he]
    exact List.mem_map_of_mem hx)

theorem Execution.writing {host : Host} {registry : Registry M S} {callTimeout : Option Duration}
    {capacity : Nat} {transport : Transport} (fresh : transport.Fresh)
    (run : Execution (new host registry callTimeout capacity transport) past l)
    (accepted : past.Accepted) : ∃ o, Writing past l o := by
  induction run with
  | refl => exact ⟨.new, writing_new fresh⟩
  | @step past l l' x prior last ih =>
      obtain ⟨o, hWriting⟩ := ih fun y hy => accepted y (List.mem_append_left _ hy)
      by_cases hWrite : x = .write
      · subst hWrite
        exact hWriting.write last prior.life.queueing
      · have hAccepts := accepted (l, x) (List.mem_append_right _ (List.mem_singleton.mpr rfl))
        exact ⟨x.onOutlet o, hWriting.quiet last hWrite hAccepts⟩

/-- Every send that succeeded got its envelope into the queue, once, and behind those of all sends that had
ended before it began. As long as the writer has not stopped, the packets of all envelopes that got in are
written, in hand or still in the queue, in this order, and the sink is not closed; and the writer moves on
until all are written, unless the sink is held. The writer only stops when the session has ended. It has then
written what it has taken, and only what is in the queue at that moment is lost, with whatever gets in later. -/
theorem sent_written_until_ended {host : Host} {registry : Registry M S}
    {callTimeout : Option Duration} {capacity : Nat} {transport : Transport}
    (fresh : transport.Fresh)
    (run : Execution (new host registry callTimeout capacity transport) past l)
    (accepted : past.Accepted) :
    (∀ t x, l.session.sends[t]? = some x → x.state = .done .accepted →
      (t, x.envelope) ∈ past.session.entered) ∧
    (past.session.entered.map Prod.fst).Nodup ∧
    ((past.session.entered.map Prod.fst).Pairwise fun t u => t < u ∨ past.session.Overlap u t) ∧
    (l.isWriting = true →
      written past l ++ l.hand ++ l.waiting = past.sent ∧ l.isClosed = false ∧
      (l.isFlowing = true → l.step? .write = none → written past l = past.sent)) ∧
    (l.isWriting = false → l.hand = [] ∧
      ∃ before q after, past = before ++ (q, .write) :: after ∧
        q.isWriting = true ∧ q.isEnded = true ∧ written before q ++ q.waiting = before.sent ∧
        written past l = written before q) := by
  obtain ⟨o, hWriting⟩ := run.writing fresh accepted
  have hQueue := run.life.queueing
  refine ⟨fun t x hx hState => ?_, ?_, run.life.entered_order, fun hOpen => ?_, fun hShut => ?_⟩
  · obtain ⟨⟨u, e⟩, hEntered, rfl⟩ := List.mem_map.mp (hQueue.accepted t x hx hState)
    have hKnown := hQueue.known (u, e) (List.mem_append_left _ hEntered)
    rw [hx, Option.map_some, Option.some.injEq] at hKnown
    rw [hKnown]
    exact hEntered
  · exact (List.nodup_append.mp hQueue.distinct).1
  · rw [isWriting_eq hWriting.outlet] at hOpen
    have hAll : written past l ++ l.hand ++ l.waiting = past.sent := by
      rw [hand_eq hWriting.outlet, hWriting.written_hand]
      exact hWriting.collected_waiting hOpen hQueue
    refine ⟨hAll, ?_, fun hFlow hIdle => ?_⟩
    · rw [isClosed_eq hWriting.outlet]
      exact Bool.eq_false_iff.mpr fun hClosed =>
        absurd (hWriting.sound.closed hClosed) (by simp [hOpen])
    · rw [isFlowing_eq hWriting.outlet] at hFlow
      obtain ⟨hHand, hQueued⟩ := Transport.write?_eq_none (Option.map_eq_none_iff.mp hIdle)
        hWriting.outlet hOpen hFlow
      rw [← hAll, hand_eq hWriting.outlet, hHand, waiting, hQueued]
      simp
  · rw [isWriting_eq hWriting.outlet] at hShut
    refine ⟨?_, hWriting.noticed hShut⟩
    rw [hand_eq hWriting.outlet, hWriting.sound.hand hShut, Option.toList_none]

/-- The packet of a goodbye. -/
def byePacket : Link.Written :=
  ⟨0, [7, 0, 0, 0, 0, 0, 0, 0, 0]⟩

/-- A goodbye is sent and written. -/
theorem sent_written_until_ended_of_bye : ∃ (past : History Unit Unit) (l : Linked Unit Unit),
    (Transport.webSocket (.new 8 "ping")).Fresh ∧
    Execution (new (Host.new false) Registry.empty none 8 (.webSocket (.new 8 "ping"))) past l ∧
    past.Accepted ∧ l.isWriting = true ∧ l.isFlowing = true ∧ l.step? .write = none ∧
    past.sent = [byePacket] ∧ written past l = past.sent := by
  let start : Linked Unit Unit :=
    new (Host.new false) Registry.empty none 8 (.webSocket (.new 8 "ping"))
  have hPlay : (start.play [.act .bye, .act (.advance 0), .write, .write]).map
      (fun x => (x.2.isWriting, x.2.isFlowing, (x.2.step? .write).isNone, x.1.sent)) =
        some (true, true, true, [byePacket]) := by decide +kernel
  obtain ⟨⟨past, l⟩, hRun, hFacts⟩ := Option.map_eq_some_iff.mp hPlay
  simp only [Prod.mk.injEq] at hFacts
  obtain ⟨hOpen, hFlow, hIdle, hSent⟩ := hFacts
  have run := Execution.refl.play hRun
  rw [List.nil_append] at run
  have hAccepted : past.Accepted := accepted_of_play hRun (by simp)
  have hFresh := Transport.Fresh.webSocket 8 "ping"
  obtain ⟨_, _, _, hWritten, _⟩ := sent_written_until_ended hFresh run hAccepted
  rw [Option.isNone_iff_eq_none] at hIdle
  exact ⟨past, l, hFresh, run, hAccepted, hOpen, hFlow, hIdle, hSent, (hWritten hOpen).2.2 hFlow hIdle⟩

/-- The sink is held while two goodbyes are sent, both of them successfully, and then the session is closed.
When the sink takes packets again, the first goodbye is written and the sink is closed. -/
theorem sent_lost_by_close : ∃ (past : History Unit Unit) (l : Linked Unit Unit),
    Execution (new (Host.new false) Registry.empty none 8 (.framed (.new 8))) past l ∧
    past.Accepted ∧ l.isFlowing = true ∧ l.isClosed = true ∧
    l.session.sends = [⟨.bye, .bye, .done .accepted⟩, ⟨.bye, .bye, .done .accepted⟩] ∧
    Envelope.bye.packet? = some byePacket ∧ written past l = [byePacket] := by
  let start : Linked Unit Unit := new (Host.new false) Registry.empty none 8 (.framed (.new 8))
  have hPlay : (start.play [.outside (.flow (.held 0)), .act .bye, .act (.advance 0), .write, .act .bye,
      .act (.advance 1), .act .close, .outside (.flow .free), .write, .write, .write]).map
      (fun x => (x.2.isFlowing, x.2.isClosed, x.2.session.sends, written x.1 x.2)) =
        some (true, true, [⟨.bye, .bye, .done .accepted⟩, ⟨.bye, .bye, .done .accepted⟩],
          [byePacket]) := by decide +kernel
  obtain ⟨⟨past, l⟩, hRun, hFacts⟩ := Option.map_eq_some_iff.mp hPlay
  simp only [Prod.mk.injEq] at hFacts
  obtain ⟨hFlow, hClosed, hSends, hWritten⟩ := hFacts
  have run := Execution.refl.play hRun
  rw [List.nil_append] at run
  have hAccepted : past.Accepted := accepted_of_play hRun (by simp)
  exact ⟨past, l, run, hAccepted, hFlow, hClosed, hSends, by decide +kernel, hWritten⟩

end Linked

end PeerLink

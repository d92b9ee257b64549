import PeerLink.Proofs.Link.Ending
import PeerLink.Proofs.Link.Intake

/-! What the reader of a byte transport hands to its session. At any time the session has handled the
envelopes of some of the items that came in, and the rest is queued or still to be read. The reader stops at
the first item that is an error. Otherwise it goes on as long as there is something to read, unless the
session has ended. -/
namespace PeerLink

variable {M S : Type}

namespace Machine

variable {m m' : Machine M S}

/-- A session that stops taking envelopes has ended. -/
theorem Rooted.isEnded_stop {exhausted : Bool} (hRooted : m.Rooted)
    (h : m.stopConsuming? exhausted = some m') : m'.isEnded = true := by
  have hStep : m.step? (.stop exhausted) = some m' := h
  obtain ⟨_, _, rfl⟩ := stopConsuming?_eq_some h
  have hNext : m.session.lifetime < m.closeOpenStreams.lifetimes.next := by
    rw [(closes_closeOpenStreams m).next]
    exact Lifetimes.lt_next_of_parent? hRooted.root
  unfold isEnded Host.isCancelled
  rw [Lifetimes.isCancelled_root (hRooted.step hStep).root, (step?_grows hStep).lifetime]
  exact (Lifetimes.isFlagged_cancel _ _ _).mpr (.inr ⟨rfl, hNext⟩)

theorem Execution.isEnded_of_stopped {host : Host} {registry : Registry M S}
    {callTimeout : Option Duration} {capacity : Nat} {past : History M S}
    (exec : Execution (new host registry callTimeout capacity) past m)
    (hStopped : m.session.consuming = false) : m.isEnded = true := by
  induction exec with
  | refl => cases hStopped
  | @step past m m' a prior last ih =>
      have hRooted := prior.rooted (rooted_new host registry callTimeout capacity)
      by_cases hStop : ∃ exhausted, a = .stop exhausted
      · obtain ⟨exhausted, rfl⟩ := hStop
        exact hRooted.isEnded_stop last
      · rw [step?_consuming last fun exhausted he => hStop ⟨exhausted, he⟩] at hStopped
        exact hRooted.isEnded_step last (ih hStopped)

/-- So one that has not ended takes them. -/
theorem Execution.consuming_of_live {host : Host} {registry : Registry M S}
    {callTimeout : Option Duration} {capacity : Nat} {past : History M S}
    (exec : Execution (new host registry callTimeout capacity) past m) (hLive : m.isEnded = false) :
    m.session.consuming = true := by
  by_contra hOff
  rw [exec.isEnded_of_stopped (Bool.eq_false_iff.mpr hOff)] at hLive
  cases hLive

end Machine

namespace Linked

variable {l l' : Linked M S} {x : Action} {past : History M S} {i : Link.Intake}

/-- What has arrived for the reader of a byte transport, in order. -/
def History.arrived (past : History M S) : List Wire.SourceEvent :=
  past.filterMap fun x => match x.2 with
    | .outside (.source event) => some event
    | _ => none

/-- The envelopes that the session has handled, and those on their way to it. -/
def History.handed (past : History M S) (inlet : Link.Inlet) : List Envelope :=
  past.session.heard ++ inlet.waiting

theorem History.arrived_append :
    History.arrived (past ++ [(l, x)]) = past.arrived ++ History.arrived [(l, x)] :=
  List.filterMap_append

theorem History.arrived_other (h : ∀ event, x ≠ .outside (.source event)) :
    History.arrived (past ++ [(l, x)]) = past.arrived := by
  have hNone : History.arrived [(l, x)] = [] := by
    cases x with
    | outside event =>
        cases event with
        | source e => exact absurd rfl (h e)
        | _ => rfl
    | _ => rfl
  rw [History.arrived_append, hNone, List.append_nil]

theorem History.heard_other (h : ∀ e, l.view x ≠ some (.receive e)) :
    (History.session (past ++ [(l, x)])).heard = past.session.heard := by
  rw [History.session_append]
  cases hView : l.view x with
  | none => rw [Option.map_none, Option.toList_none, List.append_nil]
  | some a =>
      rw [Option.map_some, Option.toList_some, Machine.History.heard_append]
      cases a with
      | receive e => exact absurd hView (h e)
      | _ => exact List.append_nil _

theorem History.handed_other (h : ∀ e, l.view x ≠ some (.receive e)) (inlet : Link.Inlet) :
    History.handed (past ++ [(l, x)]) inlet = past.handed inlet := by
  rw [History.handed, History.heard_other h, History.handed]

theorem History.heard_receive {e : Envelope} (h : l.view x = some (.receive e)) :
    (History.session (past ++ [(l, x)])).heard = past.session.heard ++ [e] := by
  rw [History.session_append, h, Option.map_some, Option.toList_some, Machine.History.heard_append]
  rfl

/-- Nobody has said that nothing more will arrive. -/
def History.Open (past : History M S) : Prop :=
  ∀ x ∈ past, x.2 ≠ .outside .ended

theorem History.open_nil : History.Open ([] : History M S) :=
  fun _ hx => absurd hx List.not_mem_nil

theorem History.open_append :
    History.Open (past ++ [(l, x)]) ↔ past.Open ∧ x ≠ .outside .ended := by
  simp only [Open, List.mem_append, List.mem_singleton]
  constructor
  · exact fun h => ⟨fun y hy => h y (.inl hy), h (l, x) (.inr rfl)⟩
  · rintro ⟨hPast, hLast⟩ y (hy | rfl)
    · exact hPast y hy
    · exact hLast

/-- The reader moved on although the session had ended. -/
def History.Interrupted (past : History M S) : Prop :=
  ∃ q, (q, .read) ∈ past ∧ q.isEnded = true

theorem History.Interrupted.step (h : past.Interrupted) :
    History.Interrupted (past ++ [(l, x)]) := by
  obtain ⟨q, hMem, hEnded⟩ := h
  exact ⟨q, List.mem_append_left _ hMem, hEnded⟩

theorem History.interrupted_of_isEnded (hEnded : l.isEnded = true) :
    History.Interrupted (past ++ [(l, .read)]) :=
  ⟨l, List.mem_append_right _ (List.mem_singleton.mpr rfl), hEnded⟩

/-- A session that has ended stays so, whatever its transport does. -/
theorem isEnded_step (hRooted : l.Rooted) (h : l.step? x = some l') (hEnded : l.isEnded = true) :
    l'.isEnded = true := by
  obtain ⟨_, alone⟩ := step?_reaches h
  exact alone.isEnded hRooted hEnded

theorem Execution.isEnded_of_interrupted {host : Host} {registry : Registry M S}
    {callTimeout : Option Duration} {capacity : Nat} {transport : Transport}
    (run : Execution (new host registry callTimeout capacity transport) past l)
    (hInterrupted : past.Interrupted) : l.isEnded = true := by
  induction run with
  | refl =>
      obtain ⟨_, hMem, _⟩ := hInterrupted
      cases hMem
  | @step past l l' x prior last ih =>
      have hRooted := prior.reaches.rooted (Machine.rooted_new host registry callTimeout capacity)
      obtain ⟨q, hMem, hEnded⟩ := hInterrupted
      obtain hMem | hMem := List.mem_append.mp hMem
      · exact isEnded_step hRooted last (ih ⟨q, hMem, hEnded⟩)
      · cases List.mem_singleton.mp hMem
        exact isEnded_step hRooted last hEnded

/-- Where a byte transport stands with the items of what has arrived. -/
structure Reading (past : History M S) (l : Linked M S) (i : Link.Intake) : Prop where
  intake : l.transport.intake? = some i
  order : (past.handed i.inlet).map .ok <+: Wire.yields [] past.arrived
  /-- The items that were not handed over are all still to be read. -/
  going : i.inlet.reader ≠ .stopped → ∃ held, i.stream.reader.Holds held ∧ ∀ later,
    Wire.yields [] (past.arrived ++ later) = (past.handed i.inlet).map .ok ++ i.unread held later
  /-- Why the reader stopped. What stands behind an error is still to be read. -/
  stopped : i.inlet.reader = .stopped → past.Interrupted ∨
    (i.sourceEnded = true ∧ Wire.yields [] past.arrived = (past.handed i.inlet).map .ok ∧
      ∃ held, i.stream.reader.Holds held ∧ i.unread held [] = []) ∨
    ∃ cause held, i.stream.reader.Holds held ∧ ∀ later, Wire.yields [] (past.arrived ++ later) =
      (past.handed i.inlet).map .ok ++ .error cause :: i.unread held later

/-- Nothing arrives and nothing is read, and what was handed over stays so. -/
theorem Reading.move {inlet : Link.Inlet} (hReading : Reading past l i)
    (hIntake : l'.transport.intake? = some { i with inlet })
    (hArrived : History.arrived (past ++ [(l, x)]) = past.arrived)
    (hHanded : History.handed (past ++ [(l, x)]) inlet = past.handed i.inlet)
    (hReader : inlet.reader = .stopped ↔ i.inlet.reader = .stopped) :
    Reading (past ++ [(l, x)]) l' { i with inlet } where
  intake := hIntake
  order := by
    rw [hArrived, hHanded]
    exact hReading.order
  going hGoing := by
    rw [hArrived, hHanded]
    exact hReading.going fun hStopped => hGoing (hReader.mpr hStopped)
  stopped hStopped := by
    rw [hArrived, hHanded]
    exact (hReading.stopped (hReader.mp hStopped)).imp_left .step

theorem Reading.on {held : Bytes} (hIntake : l.transport.intake? = some i)
    (hReader : i.inlet.reader ≠ .stopped) (holds : i.stream.reader.Holds held)
    (hYields : ∀ later, Wire.yields [] (past.arrived ++ later) =
      (past.handed i.inlet).map .ok ++ i.unread held later) : Reading past l i where
  intake := hIntake
  order := by
    have hNow := hYields []
    rw [List.append_nil] at hNow
    exact ⟨_, hNow.symm⟩
  going _ := ⟨held, holds, hYields⟩
  stopped hStopped := absurd hStopped hReader

theorem Reading.off (hIntake : l.transport.intake? = some i) (hReader : i.inlet.reader = .stopped)
    (hOrder : (past.handed i.inlet).map .ok <+: Wire.yields [] past.arrived)
    (hReason : past.Interrupted ∨
      (i.sourceEnded = true ∧ Wire.yields [] past.arrived = (past.handed i.inlet).map .ok ∧
        ∃ held, i.stream.reader.Holds held ∧ i.unread held [] = []) ∨
      ∃ cause held, i.stream.reader.Holds held ∧ ∀ later, Wire.yields [] (past.arrived ++ later) =
        (past.handed i.inlet).map .ok ++ .error cause :: i.unread held later) :
    Reading past l i where
  intake := hIntake
  order := hOrder
  going hGoing := absurd hReader hGoing
  stopped _ := hReason

theorem reading_new {host : Host} {registry : Registry M S} {callTimeout : Option Duration}
    {capacity inbound : Nat} :
    Reading [] (new host registry callTimeout capacity (.framed (.new inbound)))
      (Link.Framed.new inbound).intake :=
  .on rfl (by simp [Link.Framed.intake, Link.Framed.new, Link.Inlet.new]) Wire.PacketReader.holds_new
    fun later => (Wire.yields_empty rfl).symm

/-- What the far end does to the reading side. -/
def Event.onIntake : Event → Link.Intake → Link.Intake
  | .source e, i => { i with source := i.source ++ [e] }
  | .ended, i => { i with sourceEnded := true }
  | _, i => i

theorem Event.change?_intake {event : Event} {t t' : Transport} (h : event.change? t = some t')
    (hIntake : t.intake? = some i) : t'.intake? = some (event.onIntake i) ∧
      ∀ e, event = .source e → i.sourceEnded = false := by
  obtain ⟨f, rfl, rfl⟩ := Transport.eq_framed hIntake
  cases event with
  | source e =>
      obtain ⟨hGuard, hArrive⟩ := Option.ite_none_left_eq_some.mp h
      cases hArrive
      exact ⟨rfl, fun _ _ => Bool.eq_false_iff.mpr hGuard⟩
  | _ =>
      cases h
      exact ⟨rfl, nofun⟩

theorem Reading.read (hReading : Reading past l i)
    (hOver : l.session.consuming = false → l.isEnded = true) (h : l.step? .read = some l') :
    ∃ i', Reading (past ++ [(l, .read)]) l' i' := by
  have hArrived : History.arrived (past ++ [(l, .read)]) = past.arrived :=
    History.arrived_other (by simp)
  have hHanded : ∀ inlet, History.handed (past ++ [(l, .read)]) inlet = past.handed inlet :=
    History.handed_other nofun
  obtain ⟨⟨m, t⟩, hRead, rfl⟩ := Option.map_eq_some_iff.mp h
  obtain ⟨i', hIntake, hStep⟩ := Transport.read?_intake hRead hReading.intake
  -- Whatever makes the reader stop, only the end of what was on its way is lost.
  have hOrder : (History.handed (past ++ [(l, .read)]) i.inlet.stop).map .ok <+:
      Wire.yields [] (History.arrived (past ++ [(l, .read)])) := by
    rw [hArrived, hHanded]
    exact (((List.prefix_append_right_inj _).mpr i.inlet.waiting_stop).map _).trans hReading.order
  have hStopped : i.inlet.reader = .reading → past.handed i.inlet.stop = past.handed i.inlet :=
    fun reading => by
      rw [History.handed, History.handed, Link.Inlet.waiting_of_reading reading]
      rfl
  refine ⟨i', ?_⟩
  cases hStep with
  | waited inlet advance =>
      obtain ⟨hGoing, ⟨hOff, rfl⟩ | ⟨hStill, hWaiting⟩⟩ := Link.Inlet.advance?_eq_some advance
      · -- The reader drops what it was offering. The session has stopped, and so it has ended.
        exact .off hIntake rfl hOrder (.inl (History.interrupted_of_isEnded (hOver hOff)))
      · obtain ⟨held, holds, hYields⟩ := hReading.going hGoing
        refine .on hIntake hStill holds fun later => ?_
        rw [hArrived, hHanded, hYields, History.handed, History.handed, hWaiting]
        rfl
  | noticed reading ended =>
      exact .off hIntake rfl hOrder (.inl (History.interrupted_of_isEnded ended))
  | got e stream source reading fetched =>
      obtain ⟨held, holds, hYields⟩ := hReading.going (by simp [reading])
      obtain ⟨held', hHolds, hUnread⟩ := fetched.unread holds
      refine .on hIntake (by simp [Link.Inlet.offer]) hHolds fun later => ?_
      have hOffered : past.handed (i.inlet.offer e) = past.handed i.inlet ++ [e] := by
        rw [History.handed, History.handed, Link.Inlet.waiting_of_reading reading, List.append_assoc]
        rfl
      rw [hArrived, hHanded, hYields, hUnread, hOffered, List.map_append, List.append_assoc]
      rfl
  | nothing stream source reading fetched =>
      obtain ⟨held, holds, hYields⟩ := hReading.going (by simp [reading])
      obtain ⟨held', hHolds, hUnread⟩ := fetched.unread holds
      refine .on hIntake (by simp [reading]) hHolds fun later => ?_
      rw [hArrived, hHanded, hYields, hUnread]
      rfl
  | failed cause stream source reading fetched =>
      obtain ⟨held, holds, hYields⟩ := hReading.going (by simp [reading])
      obtain ⟨held', hHolds, hUnread⟩ := fetched.unread holds
      -- The error stands right behind what was handed over, whatever arrives later.
      refine .off hIntake rfl hOrder (.inr (.inr ⟨cause, held', hHolds, fun later => ?_⟩))
      rw [hArrived, hHanded, hYields, hUnread, ← hStopped reading]
      rfl
  | finished _ reading buffer source ended noted =>
      obtain ⟨held, holds, hYields⟩ := hReading.going (by simp [reading])
      have hNow := hYields []
      have hNothing : i.unread held [] = [] := by
        rw [Link.Intake.unread, buffer, source, Wire.yields_empty holds.firstItem?]
        rfl
      rw [List.append_nil, hNothing, List.append_nil, ← hStopped reading] at hNow
      refine .off hIntake rfl hOrder (.inr (.inl ⟨ended, ?_, held, holds, hNothing⟩))
      rw [hArrived, hHanded, hNow]

theorem Reading.consume (hReading : Reading past l i)
    (h : l.step? .consume = some l') : ∃ i', Reading (past ++ [(l, .consume)]) l' i' := by
  have hArrived : History.arrived (past ++ [(l, .consume)]) = past.arrived :=
    History.arrived_other (by simp)
  obtain ⟨⟨m, t⟩, hConsume, rfl⟩ := Option.map_eq_some_iff.mp h
  obtain ⟨⟨exhausted, hStop⟩, hIntake⟩ | ⟨e, queued, hReceive, hQueue, hIntake⟩ :=
    Transport.consume?_intake hConsume hReading.intake
  · have hView : l.view .consume = some (.stop exhausted) := hStop
    exact ⟨i, hReading.move hIntake hArrived
      (History.handed_other (by simp [hView]) i.inlet) Iff.rfl⟩
  · have hView : l.view .consume = some (.receive e) := hReceive
    refine ⟨_, hReading.move hIntake hArrived ?_ Iff.rfl⟩
    rw [History.handed, History.heard_receive hView, History.handed, Link.Inlet.waiting_cons hQueue,
      List.append_assoc]
    rfl

theorem Reading.outside {event : Event} (hReading : Reading past l i)
    (h : l.step? (.outside event) = some l') :
    ∃ i', Reading (past ++ [(l, .outside event)]) l' i' := by
  have hHanded : ∀ inlet, History.handed (past ++ [(l, .outside event)]) inlet = past.handed inlet :=
    History.handed_other nofun
  obtain ⟨t, hChange, rfl⟩ := Option.map_eq_some_iff.mp h
  obtain ⟨hIntake, hGuard⟩ := Event.change?_intake hChange hReading.intake
  cases event with
  | source e =>
      have hArrived : History.arrived (past ++ [(l, .outside (.source e))]) = past.arrived ++ [e] :=
        History.arrived_append
      have hMore := Wire.yields_append [] past.arrived [e]
      refine ⟨_, hIntake, ?_, fun hGoing => ?_, fun hStopped => ?_⟩
      · rw [hArrived, hHanded]
        exact hReading.order.trans hMore
      · obtain ⟨held, holds, hYields⟩ := hReading.going hGoing
        refine ⟨held, holds, fun later => ?_⟩
        rw [hArrived, List.append_assoc, hYields, hHanded]
        simp only [Event.onIntake, Link.Intake.unread, List.append_assoc]
      · rw [hArrived, hHanded]
        obtain hCut | ⟨hOver, _⟩ | ⟨cause, held, holds, hFault⟩ := hReading.stopped hStopped
        · exact .inl hCut.step
        · rw [hGuard e rfl] at hOver
          cases hOver
        · refine .inr (.inr ⟨cause, held, holds, fun later => ?_⟩)
          rw [List.append_assoc, hFault]
          simp only [Event.onIntake, Link.Intake.unread, List.append_assoc]
  | ended =>
      have hArrived : History.arrived (past ++ [(l, .outside .ended)]) = past.arrived :=
        History.arrived_other (by simp)
      refine ⟨_, hIntake, ?_, fun hGoing => ?_, fun hStopped => ?_⟩
      · rw [hArrived, hHanded]
        exact hReading.order
      · rw [hArrived, hHanded]
        exact hReading.going hGoing
      · rw [hArrived, hHanded]
        exact (hReading.stopped hStopped).imp .step (Or.imp_left fun hOver => ⟨rfl, hOver.2⟩)
  | _ =>
      exact ⟨i, hReading.move hIntake (History.arrived_other (by simp))
        (hHanded i.inlet) Iff.rfl⟩

theorem Reading.act {a : Machine.Action} (hReading : Reading past l i)
    (h : l.step? (.act a) = some l') : Reading (past ++ [(l, .act a)]) l' i := by
  rw [step?] at h
  split at h
  · next hLocal =>
      obtain ⟨m, _, rfl⟩ := Option.map_eq_some_iff.mp h
      refine hReading.move hReading.intake (History.arrived_other (by simp))
        (History.handed_other (fun e hView => ?_) i.inlet) Iff.rfl
      cases hView
      cases hLocal
  · cases h

theorem Reading.write (hReading : Reading past l i)
    (h : l.step? .write = some l') : Reading (past ++ [(l, .write)]) l' i := by
  obtain ⟨⟨m, t⟩, hWrite, rfl⟩ := Option.map_eq_some_iff.mp h
  have hView : ∀ e, l.view .write ≠ some (.receive e) := fun e => Transport.write?_quiet hWrite
  exact hReading.move (Transport.write?_intake hWrite hReading.intake)
    (History.arrived_other (by simp)) (History.handed_other hView i.inlet) Iff.rfl

theorem Execution.reading {host : Host} {registry : Registry M S} {callTimeout : Option Duration}
    {capacity inbound : Nat}
    (run : Execution (new host registry callTimeout capacity (.framed (.new inbound))) past l) :
    ∃ i, Reading past l i := by
  induction run with
  | refl => exact ⟨_, reading_new⟩
  | @step past l l' x prior last ih =>
      obtain ⟨i, hReading⟩ := ih
      obtain ⟨_, alone⟩ := prior.reaches
      cases x with
      | act a => exact ⟨i, hReading.act last⟩
      | read => exact hReading.read alone.isEnded_of_stopped last
      | consume => exact hReading.consume last
      | write => exact ⟨i, hReading.write last⟩
      | outside event => exact hReading.outside last

/-- The source of a byte transport is over when somebody has said so. -/
theorem Execution.sourceEnded_iff {host : Host} {registry : Registry M S}
    {callTimeout : Option Duration} {capacity inbound : Nat}
    (run : Execution (new host registry callTimeout capacity (.framed (.new inbound))) past l) :
    ∃ i, l.transport.intake? = some i ∧ (i.sourceEnded = true ↔ ¬ past.Open) := by
  induction run with
  | refl => exact ⟨_, rfl, iff_of_false Bool.false_ne_true (not_not_intro History.open_nil)⟩
  | @step past l l' x _ last ih =>
      obtain ⟨i, hIntake, hOver⟩ := ih
      have hKept : ∀ {i' : Link.Intake}, l'.transport.intake? = some i' →
          i'.sourceEnded = i.sourceEnded → x ≠ .outside .ended →
          ∃ i', l'.transport.intake? = some i' ∧
            (i'.sourceEnded = true ↔ ¬ History.Open (past ++ [(l, x)])) := by
        intro i' hIntake' hSame hOther
        refine ⟨i', hIntake', ?_⟩
        rw [hSame, hOver, History.open_append, and_iff_left hOther]
      cases x with
      | act a =>
          rw [step?] at last
          split at last
          · obtain ⟨m, _, rfl⟩ := Option.map_eq_some_iff.mp last
            exact hKept hIntake rfl (by simp)
          · cases last
      | read =>
          obtain ⟨⟨m, t⟩, hRead, rfl⟩ := Option.map_eq_some_iff.mp last
          obtain ⟨i', hIntake', hStep⟩ := Transport.read?_intake hRead hIntake
          refine hKept hIntake' ?_ (by simp)
          cases hStep with
          | _ => rfl
      | consume =>
          obtain ⟨⟨m, t⟩, hConsume, rfl⟩ := Option.map_eq_some_iff.mp last
          obtain ⟨_, hSame⟩ | ⟨e, queued, _, _, hNext⟩ := Transport.consume?_intake hConsume hIntake
          · exact hKept hSame rfl (by simp)
          · exact hKept hNext rfl (by simp)
      | write =>
          obtain ⟨⟨m, t⟩, hWrite, rfl⟩ := Option.map_eq_some_iff.mp last
          exact hKept (Transport.write?_intake hWrite hIntake) rfl (by simp)
      | outside event =>
          obtain ⟨t, hChange, rfl⟩ := Option.map_eq_some_iff.mp last
          obtain ⟨hIntake', _⟩ := Event.change?_intake hChange hIntake
          cases event with
          | ended =>
              refine ⟨_, hIntake', iff_of_true rfl fun hOpen => ?_⟩
              exact (History.open_append.mp hOpen).2 rfl
          | _ => exact hKept hIntake' rfl (by simp)

section

variable {host : Host} {registry : Registry M S} {callTimeout : Option Duration}
  {capacity inbound : Nat}
  (run : Execution (new host registry callTimeout capacity (.framed (.new inbound))) past l)
  (hLive : l.isEnded = false)

include run hLive

/-- When neither the reader nor the session can move on and the session has not ended, the reader waits for
more to come. -/
theorem Execution.idle_over_bytes (hRead : l.step? .read = none) (hConsume : l.step? .consume = none) :
    ∃ f, l.transport = .framed f ∧ f.inlet.reader = .reading ∧ f.inlet.queued = [] ∧
      f.stream.buffer = [] ∧ f.source = [] ∧ f.sourceEnded = false := by
  obtain ⟨i, hReading⟩ := run.reading
  obtain ⟨_, alone⟩ := run.reaches
  obtain ⟨f, hFramed, rfl⟩ := Transport.eq_framed hReading.intake
  have hConsuming := alone.consuming_of_live hLive
  have hRead := Option.map_eq_none_iff.mp hRead
  have hConsume := Option.map_eq_none_iff.mp hConsume
  rw [hFramed] at hRead hConsume
  obtain ⟨hQueued, hGoing⟩ :=
    Link.Framed.consume?_eq_none (Option.map_eq_none_iff.mp hConsume) hConsuming hLive
  obtain ⟨hReader, hRest⟩ :=
    Link.Framed.read?_eq_none (Option.map_eq_none_iff.mp hRead) hConsuming hLive hQueued hGoing
  exact ⟨f, hFramed, hReader, hQueued, hRest⟩

/-- Everything that came in was handled then, and none of it was an error. -/
theorem Execution.heard_at_rest (hRead : l.step? .read = none) (hConsume : l.step? .consume = none) :
    Wire.yields [] past.arrived = past.session.heard.map .ok := by
  obtain ⟨f, hFramed, hReader, hQueued, hBuffer, hSource, _⟩ :=
    run.idle_over_bytes hLive hRead hConsume
  obtain ⟨i, hReading⟩ := run.reading
  have hIntake := hReading.intake
  rw [hFramed] at hIntake
  cases hIntake
  obtain ⟨held, holds, hYields⟩ := hReading.going (by simp [Link.Framed.intake, hReader])
  have hNow : Wire.yields [] (past.arrived ++ []) =
      (past.session.heard ++ f.inlet.waiting).map .ok ++
        Wire.yields held (.chunk f.stream.buffer :: (f.source ++ [])) := hYields []
  rw [hBuffer, hSource, Wire.yields_empty holds.firstItem?,
    Link.Inlet.waiting_of_reading hReader, hQueued, List.append_nil, List.append_nil] at hNow
  exact hNow.trans (List.append_nil _)

end

end Linked

end PeerLink

import PeerLink.Proofs.Link.Messages
import PeerLink.Proofs.Link.Writing

/-! A reader and its session come to rest. What arrives gives them a few steps each, and every step that
they make uses up one. Nobody else gives them more to do. -/
namespace PeerLink

variable {M S : Type}

namespace Link

/-- How many steps the reader and the session can make at most without looking at anything more. An
envelope that is offered is queued and then taken, and the reader may have to wait in between. -/
def Inlet.movesLeft (i : Inlet) : Nat :=
  i.queued.length + match i.reader with
    | .offering _ => 4
    | .flushing => 2
    | .reading => 1
    | .stopped => 0

/-- How many steps they can make at most if nothing more arrives. -/
def Intake.movesLeft (i : Intake) : Nat :=
  i.inlet.movesLeft +
    4 * (i.stream.buffer.length + (Wire.sourceBytes i.source).length + i.source.length)

def Mailbox.movesLeft (b : Mailbox) : Nat :=
  b.inlet.movesLeft + 4 * b.incoming.length

namespace Inlet

variable {i i' : Inlet}

theorem movesLeft_cons {e : Envelope} {queued : List Envelope} (h : i.queued = e :: queued) :
    { i with queued }.movesLeft < i.movesLeft := by
  rw [movesLeft, movesLeft, h, List.length_cons]
  dsimp only
  omega

theorem movesLeft_reading (h : i.reader = .reading) : i.movesLeft = i.queued.length + 1 := by
  rw [movesLeft, h]

theorem movesLeft_stop (h : i.reader = .reading) : i.stop.movesLeft < i.movesLeft := by
  rw [movesLeft_reading h]
  exact Nat.lt_succ_self _

theorem movesLeft_offer (h : i.reader = .reading) (e : Envelope) :
    (i.offer e).movesLeft = i.movesLeft + 3 := by
  rw [movesLeft_reading h]
  rfl

theorem movesLeft_advance {consuming : Bool} (h : i.advance? consuming = some i') :
    i'.movesLeft < i.movesLeft := by
  obtain ⟨capacity, queued, reader⟩ := i
  cases reader with
  | offering e =>
      simp only [advance?] at h
      split at h
      · cases h
        simp [movesLeft, stop]
      · split at h
        · cases h
        · cases h
          rw [movesLeft, movesLeft, List.length_append, List.length_singleton]
          cases isFull ⟨capacity, queued ++ [e], .offering e⟩ with
          | true => exact Nat.lt_succ_self _
          | false => exact Nat.lt_succ_of_lt (Nat.lt_succ_self _)
  | flushing =>
      simp only [advance?] at h
      split at h
      · cases h
        simp [movesLeft]
      · cases h
  | reading => cases h
  | stopped => cases h

end Inlet

/-- Whatever the reader gets, there is less to get after that. -/
theorem Intake.Fetched.fewer {i : Intake} {held : Bytes} {item? : Option Wire.Item}
    {stream : Wire.PacketStream} {source : List Wire.SourceEvent} (h : i.Fetched item? stream source)
    (holds : i.stream.reader.Holds held) :
    stream.buffer.length + (Wire.sourceBytes source).length + source.length <
      i.stream.buffer.length + (Wire.sourceBytes i.source).length + i.source.length := by
  cases h with
  | buffered rest feed =>
      have hShorter := Wire.PacketStream.feed_shorter holds feed
      have hSome := List.length_pos_iff.mpr rest
      omega
  | @arrived event _ _ _ next empty accept =>
      have hBuffer : stream.buffer.length ≤ event.bytes.length := by
        cases event with
        | chunk data =>
            exact Nat.le_trans (Wire.PacketStream.feed_shorter holds accept) (Nat.sub_le _ _)
        | failure message =>
            cases accept
            exact Nat.le_of_eq (congrArg List.length empty)
        | notReady =>
            cases accept
            exact Nat.le_of_eq (congrArg List.length empty)
      rw [next, Wire.sourceBytes, Wire.sourceBytes, List.flatMap_cons, List.length_append,
        List.length_cons]
      omega

end Link

variable {m m' : Machine M S}

theorem ReadStep.movesLeft {i i' : Link.Intake} (h : ReadStep m i m' i')
    (hHolds : i.inlet.reader ≠ .stopped → ∃ held, i.stream.reader.Holds held) :
    i'.movesLeft < i.movesLeft := by
  have hFewer : ∀ {item? stream source}, i.inlet.reader = .reading → i.Fetched item? stream source →
      stream.buffer.length + (Wire.sourceBytes source).length + source.length <
        i.stream.buffer.length + (Wire.sourceBytes i.source).length + i.source.length := by
    intro _ _ _ reading fetched
    obtain ⟨held, holds⟩ := hHolds (by simp [reading])
    exact fetched.fewer holds
  cases h with
  | waited inlet advance => exact Nat.add_lt_add_right (Link.Inlet.movesLeft_advance advance) _
  | noticed reading => exact Nat.add_lt_add_right (Link.Inlet.movesLeft_stop reading) _
  | got e stream source reading fetched =>
      have hLess := hFewer reading fetched
      simp only [Link.Intake.movesLeft, Link.Inlet.movesLeft_offer reading]
      omega
  | nothing stream source reading fetched =>
      have hLess := hFewer reading fetched
      simp only [Link.Intake.movesLeft]
      omega
  | failed cause stream source reading fetched =>
      have hLess := hFewer reading fetched
      have hStop := Link.Inlet.movesLeft_stop reading
      simp only [Link.Intake.movesLeft]
      omega
  | finished _ reading => exact Nat.add_lt_add_right (Link.Inlet.movesLeft_stop reading) _

theorem MailStep.movesLeft {b b' : Link.Mailbox} (h : MailStep m b m' b') :
    b'.movesLeft < b.movesLeft := by
  cases h with
  | waited inlet advance => exact Nat.add_lt_add_right (Link.Inlet.movesLeft_advance advance) _
  | noticed reading => exact Nat.add_lt_add_right (Link.Inlet.movesLeft_stop reading) _
  | carried y e incoming reading next =>
      simp only [Link.Mailbox.movesLeft, Link.Inlet.movesLeft_offer reading, next, List.length_cons]
      omega
  | passed y incoming _ reading next =>
      simp only [Link.Mailbox.movesLeft, next, List.length_cons]
      omega
  | harmed y incoming _ reading next =>
      have hStop := Link.Inlet.movesLeft_stop reading
      simp only [Link.Mailbox.movesLeft, next, List.length_cons]
      omega
  | finished reading => exact Nat.add_lt_add_right (Link.Inlet.movesLeft_stop reading) _

namespace Transport

variable {t t' : Transport}

/-- The queue from the reader to the session. -/
def inlet? : Transport → Option Link.Inlet
  | .framed f => some f.inlet
  | .webSocket w => some w.inlet
  | _ => none

theorem inlet?_of_intake {i : Link.Intake} (h : t.intake? = some i) : t.inlet? = some i.inlet := by
  obtain ⟨f, rfl, rfl⟩ := eq_framed h
  rfl

theorem inlet?_of_mailbox {b : Link.Mailbox} (h : t.mailbox? = some b) :
    t.inlet? = some b.inlet := by
  obtain ⟨w, rfl, rfl⟩ := eq_webSocket h
  rfl

/-- How many steps the reader and the session can make at most before the session stops, if nothing more
arrives. -/
def movesLeft : Transport → Nat
  | .framed f => f.intake.movesLeft
  | .webSocket w => w.mailbox.movesLeft
  | _ => 0

theorem consume?_movesLeft {inlet : Link.Inlet} (h : t.consume? m = some (m', t'))
    (hInlet : t.inlet? = some inlet) :
    (∃ exhausted, t.consumes m = some (.stop exhausted)) ∧ t'.movesLeft = t.movesLeft ∨
      (∃ e, t.consumes m = some (.receive e)) ∧ t'.movesLeft < t.movesLeft := by
  cases t with
  | framed f =>
      obtain ⟨⟨m₁, f'⟩, hConsume, he⟩ := Option.map_eq_some_iff.mp h
      cases he
      obtain ⟨hStop, hSame⟩ | ⟨e, queued, hReceive, hQueue, hNext⟩ :=
        Link.Framed.consume?_intake hConsume
      · exact .inl ⟨hStop, congrArg Link.Intake.movesLeft hSame⟩
      · refine .inr ⟨⟨e, hReceive⟩, ?_⟩
        rw [movesLeft, hNext]
        exact Nat.add_lt_add_right (Link.Inlet.movesLeft_cons hQueue) _
  | webSocket w =>
      obtain ⟨⟨m₁, w'⟩, hConsume, he⟩ := Option.map_eq_some_iff.mp h
      cases he
      obtain ⟨hStop, hSame⟩ | ⟨e, queued, hReceive, hQueue, hNext⟩ :=
        Link.WebSocket.consume?_mailbox hConsume
      · exact .inl ⟨hStop, congrArg Link.Mailbox.movesLeft hSame⟩
      · refine .inr ⟨⟨e, hReceive⟩, ?_⟩
        rw [movesLeft, hNext]
        exact Nat.add_lt_add_right (Link.Inlet.movesLeft_cons hQueue) _
  | queues _ => cases hInlet
  | paired => cases hInlet

theorem write?_movesLeft (h : t.write? m = some (m', t')) : t'.movesLeft = t.movesLeft := by
  cases t with
  | framed f =>
      obtain ⟨⟨m₁, f'⟩, hWrite, he⟩ := Option.map_eq_some_iff.mp h
      cases he
      exact congrArg Link.Intake.movesLeft (Link.Framed.write?_intake hWrite)
  | webSocket w =>
      obtain ⟨⟨m₁, w'⟩, hWrite, he⟩ := Option.map_eq_some_iff.mp h
      cases he
      exact congrArg Link.Mailbox.movesLeft (Link.WebSocket.write?_mailbox hWrite)
  | queues _ =>
      obtain ⟨_, _, he⟩ := Option.map_eq_some_iff.mp h
      cases he
      rfl
  | paired => cases h

end Transport

namespace Linked

variable {l l' : Linked M S} {x : Action} {past : History M S}

/-- How many steps the reader and the session can make at most, if nothing more arrives. -/
def movesLeft (l : Linked M S) : Nat :=
  l.transport.movesLeft + if l.session.consuming then 1 else 0

/-- Only the session itself makes it stop taking envelopes. -/
theorem step?_consuming (h : l.step? x = some l') (hOther : x ≠ .consume) :
    l'.session.consuming = l.session.consuming := by
  obtain ⟨_, hSame⟩ | ⟨a, m, hView, hStep, hSame⟩ := step?_view h
  · rw [hSame]
  · rw [hSame]
    refine Machine.step?_consuming hStep fun exhausted he => ?_
    subst he
    cases x with
    | act a =>
        cases hView
        rw [step?, if_neg (by simp [Machine.Action.isLocal])] at h
        cases h
    | write =>
        obtain ⟨⟨q, t⟩, hWrite, _⟩ := Option.map_eq_some_iff.mp h
        have hWrites : l.transport.writes l.toMachine = some (.stop exhausted) := hView
        obtain hNone | hTake | hAbandon := Transport.write?_view hWrite
        · simp [hNone] at hWrites
        · simp [hTake] at hWrites
        · simp [hAbandon] at hWrites
    | consume => exact hOther rfl
    | read => cases hView
    | outside _ => cases hView

theorem consume_movesLeft {inlet : Link.Inlet} (h : l.step? .consume = some l')
    (hInlet : l.transport.inlet? = some inlet) : l'.movesLeft < l.movesLeft := by
  obtain ⟨⟨m, t⟩, hConsume, rfl⟩ := Option.map_eq_some_iff.mp h
  obtain ⟨a, hView, hStep, _⟩ := Transport.consume?_frame hConsume
  obtain ⟨⟨exhausted, hStop⟩, hSame⟩ | ⟨⟨e, hReceive⟩, hFewer⟩ :=
    Transport.consume?_movesLeft hConsume hInlet
  · rw [hView] at hStop
    cases hStop
    obtain ⟨hConsuming, _, rfl⟩ := Machine.stopConsuming?_eq_some hStep
    rw [movesLeft, movesLeft, hSame, if_pos hConsuming]
    exact Nat.lt_succ_self _
  · rw [hView] at hReceive
    cases hReceive
    have hConsuming := Machine.step?_consuming hStep nofun
    rw [movesLeft, movesLeft, hConsuming]
    exact Nat.add_lt_add_right hFewer _

section

variable {host : Host} {registry : Registry M S} {callTimeout : Option Duration} {capacity : Nat}
  {transport : Transport}

theorem Execution.inlet?_isSome (fresh : transport.Fresh)
    (run : Execution (new host registry callTimeout capacity transport) past l) :
    ∃ inlet, l.transport.inlet? = some inlet := by
  cases fresh with
  | framed room =>
      obtain ⟨i, hReading⟩ := run.reading
      exact ⟨i.inlet, Transport.inlet?_of_intake hReading.intake⟩
  | webSocket room pingMessage =>
      obtain ⟨b, hMailing⟩ := run.mailing
      exact ⟨b.inlet, Transport.inlet?_of_mailbox hMailing.mailbox⟩

theorem Execution.read_movesLeft (fresh : transport.Fresh)
    (run : Execution (new host registry callTimeout capacity transport) past l)
    (h : l.step? .read = some l') : l'.movesLeft < l.movesLeft := by
  have hConsuming := step?_consuming h nofun
  rw [movesLeft, movesLeft, hConsuming]
  apply Nat.add_lt_add_right
  obtain ⟨⟨m, t⟩, hRead, rfl⟩ := Option.map_eq_some_iff.mp h
  cases fresh with
  | framed room =>
      obtain ⟨i, hReading⟩ := run.reading
      obtain ⟨i', hIntake', hStep⟩ := Transport.read?_intake hRead hReading.intake
      obtain ⟨f, hFramed, rfl⟩ := Transport.eq_framed hReading.intake
      obtain ⟨f', rfl, rfl⟩ := Transport.eq_framed hIntake'
      rw [hFramed]
      exact hStep.movesLeft fun hGoing => (hReading.going hGoing).imp fun held hFacts => hFacts.1
  | webSocket room pingMessage =>
      obtain ⟨b, hMailing⟩ := run.mailing
      obtain ⟨b', hMailbox', hStep⟩ := Transport.read?_mailbox hRead hMailing.mailbox
      obtain ⟨w, hSocket, rfl⟩ := Transport.eq_webSocket hMailing.mailbox
      obtain ⟨w', rfl, rfl⟩ := Transport.eq_webSocket hMailbox'
      rw [hSocket]
      exact hStep.movesLeft

/-- Every step of the reader or the session brings them nearer to rest, and only what arrives takes them
away from it. -/
theorem Execution.settles (fresh : transport.Fresh)
    (run : Execution (new host registry callTimeout capacity transport) past l)
    (h : l.step? x = some l') (hOther : ∀ event, x ≠ .outside event) :
    l'.movesLeft ≤ l.movesLeft ∧ (x = .read ∨ x = .consume → l'.movesLeft < l.movesLeft) := by
  cases x with
  | act a =>
      have hConsuming := step?_consuming h (by simp)
      rw [step?] at h
      split at h
      · obtain ⟨m, _, rfl⟩ := Option.map_eq_some_iff.mp h
        rw [movesLeft, movesLeft, hConsuming]
        exact ⟨Nat.le_refl _, (by simp)⟩
      · cases h
  | read =>
      have hFewer := run.read_movesLeft fresh h
      exact ⟨Nat.le_of_lt hFewer, fun _ => hFewer⟩
  | consume =>
      obtain ⟨inlet, hInlet⟩ := run.inlet?_isSome fresh
      have hFewer := consume_movesLeft h hInlet
      exact ⟨Nat.le_of_lt hFewer, fun _ => hFewer⟩
  | write =>
      have hConsuming := step?_consuming h (by simp)
      obtain ⟨⟨m, t⟩, hWrite, rfl⟩ := Option.map_eq_some_iff.mp h
      rw [movesLeft, movesLeft, hConsuming, Transport.write?_movesLeft hWrite]
      exact ⟨Nat.le_refl _, (by simp)⟩
  | outside event => exact absurd rfl (hOther event)

end

end Linked

end PeerLink

import PeerLink.Proofs.Link.Steps
import PeerLink.Proofs.Wire.Yields

/-! The steps of the reader of a byte transport. `ReadStep` lists what it does, to the reading side of the
transport and to the journal; all other steps leave that side alone, apart from the session, which takes
the envelopes that are queued there. -/
namespace PeerLink

namespace Link

/-- The reading side of a byte transport. -/
structure Intake where
  source : List Wire.SourceEvent
  sourceEnded : Bool
  stream : Wire.PacketStream
  inlet : Inlet

def Framed.intake (l : Framed) : Intake :=
  { source := l.source, sourceEnded := l.sourceEnded, stream := l.stream, inlet := l.inlet }

/-- The envelopes on their way from the reader to the session. -/
def Inlet.waiting (i : Inlet) : List Envelope :=
  match i.reader with
  | .offering e => i.queued ++ [e]
  | _ => i.queued

theorem Inlet.waiting_of_reading {i : Inlet} (h : i.reader = .reading) : i.waiting = i.queued := by
  rw [waiting, h]

theorem Inlet.waiting_cons {i : Inlet} {e : Envelope} {queued : List Envelope}
    (h : i.queued = e :: queued) : i.waiting = e :: { i with queued }.waiting := by
  obtain ⟨capacity, _, reader⟩ := i
  subst h
  cases reader with
  | _ => rfl

/-- A reader that stops takes back what it could not queue. -/
theorem Inlet.waiting_stop (i : Inlet) : i.stop.waiting <+: i.waiting := by
  obtain ⟨capacity, queued, reader⟩ := i
  cases reader with
  | offering e => exact List.prefix_append queued [e]
  | _ => exact List.prefix_refl queued

/-- All that is left to read if `later` is yet to come and the reader has these bytes of a packet. -/
def Intake.unread (i : Intake) (held : Bytes) (later : List Wire.SourceEvent) : List Wire.Item :=
  Wire.yields held (.chunk i.stream.buffer :: (i.source ++ later))

/-- The reader gets some bytes or another event of its source, and with them an item or none. -/
inductive Intake.Fetched (i : Intake) :
    Option Wire.Item → Wire.PacketStream → List Wire.SourceEvent → Prop where
  | buffered {stream : Wire.PacketStream} {item? : Option Wire.Item} (rest : i.stream.buffer ≠ [])
      (feed : i.stream.feed i.stream.buffer = (stream, item?)) : Fetched i item? stream i.source
  | arrived {event : Wire.SourceEvent} {source : List Wire.SourceEvent} {stream : Wire.PacketStream}
      {item? : Option Wire.Item} (next : i.source = event :: source) (empty : i.stream.buffer = [])
      (accept : i.stream.accept event = (stream, item?)) : Fetched i item? stream source

theorem Intake.Fetched.unread {i : Intake} {held : Bytes} {item? : Option Wire.Item}
    {stream : Wire.PacketStream} {source : List Wire.SourceEvent} (h : i.Fetched item? stream source)
    (holds : i.stream.reader.Holds held) : ∃ held', stream.reader.Holds held' ∧ ∀ later,
      i.unread held later = item?.toList ++ { i with stream, source }.unread held' later := by
  cases h with
  | buffered rest feed =>
      obtain ⟨held', hHolds, hYields⟩ := Wire.PacketStream.feed_yields holds feed
      exact ⟨held', hHolds, fun later => hYields (i.source ++ later)⟩
  | @arrived event _ _ _ next empty accept =>
      have hUnread : ∀ later, i.unread held later = Wire.yields held (event :: (source ++ later)) := by
        intro later
        rw [Intake.unread, empty, next, Wire.yields_empty holds.firstItem?, List.cons_append]
      have hRest : ∀ later, { i with source }.unread held later = Wire.yields held (source ++ later) := by
        intro later
        simp only [Intake.unread, empty, Wire.yields_empty holds.firstItem?]
      cases event with
      | chunk data =>
          obtain ⟨held', hHolds, hYields⟩ := Wire.PacketStream.feed_yields holds accept
          exact ⟨held', hHolds, fun later => (hUnread later).trans (hYields (source ++ later))⟩
      | failure message =>
          cases accept
          refine ⟨held, holds, fun later => (hUnread later).trans ?_⟩
          rw [hRest]
          rfl
      | notReady =>
          cases accept
          exact ⟨held, holds, fun later => (hUnread later).trans (hRest later).symm⟩

end Link

variable {M S : Type}

/-- What a step of the reader of a byte transport can do. -/
inductive ReadStep (m : Machine M S) (i : Link.Intake) : Machine M S → Link.Intake → Prop where
  /-- The reader has waited for room in the queue, or gives up since the session takes no more. -/
  | waited (inlet : Link.Inlet) (advance : i.inlet.advance? m.session.consuming = some inlet) :
      ReadStep m i m { i with inlet }
  | noticed (reading : i.inlet.reader = .reading) (ended : m.isEnded = true) :
      ReadStep m i m { i with inlet := i.inlet.stop }
  | got (e : Envelope) (stream : Wire.PacketStream) (source : List Wire.SourceEvent)
      (reading : i.inlet.reader = .reading) (fetched : i.Fetched (some (.ok e)) stream source) :
      ReadStep m i m { i with stream, source, inlet := i.inlet.offer e }
  | nothing (stream : Wire.PacketStream) (source : List Wire.SourceEvent)
      (reading : i.inlet.reader = .reading) (fetched : i.Fetched none stream source) :
      ReadStep m i m { i with stream, source }
  | failed (cause : Wire.StreamReadError) (stream : Wire.PacketStream)
      (source : List Wire.SourceEvent) (reading : i.inlet.reader = .reading)
      (fetched : i.Fetched (some (.error cause)) stream source) :
      ReadStep m i (m.log .envelopeNotRead) { i with stream, source, inlet := i.inlet.stop }
  /-- Nothing more will come. -/
  | finished (m' : Machine M S) (reading : i.inlet.reader = .reading) (buffer : i.stream.buffer = [])
      (source : i.source = []) (ended : i.sourceEnded = true) (noted : m.Noted m')
      (meter : m'.meter = m.meter) : ReadStep m i m' { i with inlet := i.inlet.stop }

section Steps

variable {m m' : Machine M S} {f f' : Link.Framed}

/-- The reader of a byte transport counts nothing. -/
theorem ReadStep.meter {i i' : Link.Intake} (h : ReadStep m i m' i') : m'.meter = m.meter := by
  cases h with
  | finished _ _ _ _ _ _ meter => exact meter
  | _ => rfl

theorem Link.Framed.gotItem_step {stream : Wire.PacketStream} {source : List Wire.SourceEvent}
    {item? : Option Wire.Item} (reading : f.inlet.reader = .reading)
    (fetched : f.intake.Fetched item? stream source)
    (h : gotItem m { f with stream, source } item? = (m', f')) :
    ReadStep m f.intake m' f'.intake := by
  cases item? with
  | none =>
      cases h
      exact .nothing stream source reading fetched
  | some item =>
      cases item with
      | ok e =>
          cases h
          exact .got e stream source reading fetched
      | error cause =>
          cases h
          exact .failed cause stream source reading fetched

theorem Link.Framed.read?_step (h : f.read? m = some (m', f')) :
    ReadStep m f.intake m' f'.intake := by
  unfold Link.Framed.read? at h
  split at h
  · obtain ⟨inlet, hAdvance, he⟩ := Option.map_eq_some_iff.mp h
    cases he
    exact .waited inlet hAdvance
  · next hReading =>
      have hReading := Decidable.not_not.mp hReading
      split at h
      · next hEnded =>
          cases h
          exact .noticed hReading hEnded
      · split at h
        · next hBuffer =>
            have hRest : f.stream.buffer ≠ [] := by simpa using hBuffer
            exact gotItem_step hReading (.buffered hRest rfl) (Option.some.inj h)
        · next hBuffer =>
            have hEmpty : f.stream.buffer = [] := by simpa using hBuffer
            split at h
            · next event source hSource =>
                exact gotItem_step hReading (.arrived hSource hEmpty rfl) (Option.some.inj h)
            · next hSource =>
                split at h
                · cases h
                · next hSourceEnded =>
                    have hOver : f.sourceEnded = true := by simpa using hSourceEnded
                    split at h
                    · cases h
                      exact .finished m hReading hEmpty hSource hOver (.refl m) rfl
                    · next item hItem =>
                        obtain ⟨cause, rfl⟩ : ∃ cause, item = .error cause := by
                          unfold Wire.PacketStream.atEnd at hItem
                          split at hItem
                          · cases hItem
                          · exact ⟨_, (Option.some.inj hItem).symm⟩
                        cases h
                        exact .finished _ hReading hEmpty hSource hOver (.log m _) rfl

/-- The writer leaves the reading side alone. -/
theorem Link.Framed.write?_intake (h : f.write? m = some (m', f')) : f'.intake = f.intake := by
  obtain ⟨source, sourceEnded, stream, inlet, writer, sink⟩ := f
  cases writer with
  | idle =>
      simp only [Link.Framed.write?] at h
      split at h
      · cases h
        rfl
      · split at h
        · cases h
        · split at h
          · cases h
            rfl
          · cases h
            rfl
  | writing id data =>
      simp only [Link.Framed.write?] at h
      split at h
      · cases h
      · cases h
        rfl
      · cases h
        rfl
  | closing =>
      cases h
      rfl
  | stopped => cases h

/-- The session stops, or it takes the envelope that was queued first. -/
theorem Link.Framed.consume?_intake (h : f.consume? m = some (m', f')) :
    ((∃ exhausted, (Transport.framed f).consumes m = some (.stop exhausted)) ∧ f'.intake = f.intake) ∨
      ∃ e queued, (Transport.framed f).consumes m = some (.receive e) ∧ f.inlet.queued = e :: queued ∧
        f'.intake = { f.intake with inlet := { f.inlet with queued } } := by
  unfold Link.Framed.consume? at h
  split at h
  · next hStop =>
      cases h
      exact .inl ⟨⟨_, Transport.consumes_of_stop (t := .framed f) hStop⟩, rfl⟩
  · next e queued hGoing hQueue =>
      obtain ⟨m₂, _, he⟩ := Option.map_eq_some_iff.mp h
      cases he
      have hNext : (Transport.framed f).next? = some e := by
        rw [Transport.next?, hQueue, List.head?_cons]
      exact .inr ⟨e, queued, Transport.consumes_of_next hGoing hNext, hQueue, rfl⟩
  · cases h

/-- A reader that waits gives up, or what it has for the session is still on its way. -/
theorem Link.Inlet.advance?_eq_some {inlet inlet' : Link.Inlet} {consuming : Bool}
    (h : inlet.advance? consuming = some inlet') : inlet.reader ≠ .stopped ∧
      (consuming = false ∧ inlet' = inlet.stop ∨
        inlet'.reader ≠ .stopped ∧ inlet'.waiting = inlet.waiting) := by
  obtain ⟨capacity, queued, reader⟩ := inlet
  cases reader with
  | offering e =>
      simp only [Link.Inlet.advance?] at h
      split at h
      · next hStopped =>
          cases h
          exact ⟨by simp, .inl ⟨by simpa using hStopped, rfl⟩⟩
      · split at h
        · cases h
        · cases h
          refine ⟨by simp, .inr ?_⟩
          dsimp only
          split
          · exact ⟨by simp, rfl⟩
          · exact ⟨by simp, rfl⟩
  | flushing =>
      simp only [Link.Inlet.advance?] at h
      split at h
      · cases h
        exact ⟨by simp, .inr ⟨by simp, rfl⟩⟩
      · cases h
  | reading => cases h
  | stopped => cases h

/-- A session that cannot move on has nothing queued, and its reader has not stopped. -/
theorem Link.Framed.consume?_eq_none (h : f.consume? m = none) (hConsuming : m.session.consuming = true)
    (hLive : m.isEnded = false) : f.inlet.queued = [] ∧ f.inlet.reader ≠ .stopped := by
  unfold Link.Framed.consume? at h
  split at h
  · cases h
  · next e queued _ hQueue =>
      rw [Option.map_eq_none_iff, Machine.receive?, hConsuming, hLive] at h
      cases h
  · next hGoing hQueue =>
      refine ⟨hQueue, fun hStopped => ?_⟩
      simp [Machine.stopConsuming?, hConsuming, Link.Inlet.isExhausted, hQueue, hStopped] at hGoing

/-- A reader that cannot move on although there is room has read all that is there. -/
theorem Link.Framed.read?_eq_none (h : f.read? m = none) (hConsuming : m.session.consuming = true)
    (hLive : m.isEnded = false) (hQueued : f.inlet.queued = []) (hGoing : f.inlet.reader ≠ .stopped) :
    f.inlet.reader = .reading ∧ f.stream.buffer = [] ∧ f.source = [] ∧ f.sourceEnded = false := by
  unfold Link.Framed.read? at h
  split at h
  · next hBusy =>
      rw [Option.map_eq_none_iff, Link.Inlet.advance?] at h
      split at h
      · simp [hConsuming, Link.Inlet.isFull, hQueued] at h
      · simp [hConsuming, Link.Inlet.isFull, hQueued] at h
      · next hOffering hFlushing =>
          cases hReader : f.inlet.reader with
          | reading => exact absurd hReader hBusy
          | offering e => exact absurd hReader (hOffering e)
          | flushing => exact absurd hReader hFlushing
          | stopped => exact absurd hReader hGoing
  · next hReading =>
      rw [if_neg (by simp [hLive])] at h
      split at h
      · cases h
      · next hBuffer =>
          split at h
          · cases h
          · next hSource =>
              split at h
              · next hOpen =>
                  exact ⟨Decidable.not_not.mp hReading, by simpa using hBuffer, hSource,
                    by simpa using hOpen⟩
              · split at h
                · cases h
                · cases h

end Steps

/-- The reading side of a transport for bytes. -/
def Transport.intake? : Transport → Option Link.Intake
  | .framed f => some f.intake
  | _ => none

namespace Transport

variable {t t' : Transport} {m m' : Machine M S} {i : Link.Intake}

theorem eq_framed (h : t.intake? = some i) : ∃ f, t = .framed f ∧ f.intake = i := by
  cases t with
  | framed f => exact ⟨f, rfl, Option.some.inj h⟩
  | _ => cases h

theorem read?_intake (h : t.read? m = some (m', t')) (hIntake : t.intake? = some i) :
    ∃ i', t'.intake? = some i' ∧ ReadStep m i m' i' := by
  obtain ⟨f, rfl, rfl⟩ := eq_framed hIntake
  obtain ⟨⟨m₁, f'⟩, hRead, he⟩ := Option.map_eq_some_iff.mp h
  cases he
  exact ⟨f'.intake, rfl, Link.Framed.read?_step hRead⟩

theorem consume?_intake (h : t.consume? m = some (m', t')) (hIntake : t.intake? = some i) :
    ((∃ exhausted, t.consumes m = some (.stop exhausted)) ∧ t'.intake? = some i) ∨
      ∃ e queued, t.consumes m = some (.receive e) ∧ i.inlet.queued = e :: queued ∧
        t'.intake? = some { i with inlet := { i.inlet with queued } } := by
  obtain ⟨f, rfl, rfl⟩ := eq_framed hIntake
  obtain ⟨⟨m₁, f'⟩, hConsume, he⟩ := Option.map_eq_some_iff.mp h
  cases he
  obtain ⟨hStop, hSame⟩ | ⟨e, queued, hView, hQueue, hNext⟩ := Link.Framed.consume?_intake hConsume
  · exact .inl ⟨hStop, congrArg some hSame⟩
  · exact .inr ⟨e, queued, hView, hQueue, congrArg some hNext⟩

theorem write?_intake (h : t.write? m = some (m', t')) (hIntake : t.intake? = some i) :
    t'.intake? = some i := by
  obtain ⟨f, rfl, rfl⟩ := eq_framed hIntake
  obtain ⟨⟨m₁, f'⟩, hWrite, he⟩ := Option.map_eq_some_iff.mp h
  cases he
  exact congrArg some (Link.Framed.write?_intake hWrite)

/-- A writer hands no envelopes to its session. -/
theorem write?_quiet {e : Envelope} (h : t.write? m = some (m', t')) :
    t.writes m ≠ some (.receive e) := by
  obtain hView | hView | hView := write?_view h
  · simp [hView]
  · simp [hView]
  · simp [hView]

end Transport

end PeerLink

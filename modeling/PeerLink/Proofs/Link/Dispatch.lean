import PeerLink.Proofs.Session.Execution
import PeerLink.Scenario.World

/-! What the writers of packets do, step by step. The two of them differ in the close message, which only
the writer of a websocket sends, so one list of steps serves for both. -/
namespace PeerLink

variable {M S : Type}

namespace Link

section Sinks

variable {α β ε : Type} {s s' : Sink α ε}

theorem Sink.poll_ready (h : s.poll = (.ready, s')) :
    s.flow.isOpen = true ∧ s.failure?.isSome = false ∧ s' = s := by
  unfold Sink.poll at h
  split at h
  · next hFlow =>
      split at h
      · cases h
      · next hAccepts =>
          cases h
          exact ⟨hFlow, by rw [hAccepts, Option.isSome_none], rfl⟩
  · cases h

theorem Sink.poll_failed {e : ε} (h : s.poll = (.failed e, s')) :
    s.failure?.isSome = true ∧ s' = { s with failure? := none } := by
  unfold Sink.poll at h
  split at h
  · split at h
    · next hRefuses =>
        cases h
        exact ⟨by rw [hRefuses, Option.isSome_some], rfl⟩
    · cases h
  · cases h

theorem Sink.poll_blocked (h : s.poll = (.blocked, s')) : s.flow.isOpen = false := by
  unfold Sink.poll at h
  split at h
  · split at h
    · cases h
    · cases h
  · next hFlow => exact Bool.eq_false_iff.mpr hFlow

/-- The sink, with its items seen in another way. -/
def Sink.view (f : α → β) (s : Sink α ε) : Sink β Unit :=
  { flow := s.flow, failure? := s.failure?.map fun _ => (), closeFails := s.closeFails
    taken := s.taken.map f, closed := s.closed }

theorem Sink.view_put (f : α → β) (s : Sink α ε) (a : α) :
    (s.put a).view f = (s.view f).put (f a) := by
  rw [Sink.view, Sink.view, Sink.put, Sink.put, List.map_append]
  rfl

theorem Sink.view_close (f : α → β) (s : Sink α ε) : s.close.view f = (s.view f).close := by
  unfold Sink.close Sink.view
  split
  · rfl
  · rfl

end Sinks

/-- A writer of packets with its sink. The writer of a byte transport is one of a websocket that has no
close message to send. -/
structure Dispatch where
  writer : SocketWriter
  sink : Sink SocketOutput Unit
  /-- What the writer sends before it closes the sink. -/
  farewell : List SocketOutput

/-- The stage at which a writer of a websocket would be. -/
def FramedWriter.stage : FramedWriter → SocketWriter
  | .idle => .idle
  | .writing id data => .writing ⟨id, data⟩
  | .closing => .closing false
  | .stopped => .stopped

def Framed.dispatch (l : Framed) : Dispatch :=
  { writer := l.writer.stage, sink := l.sink.view .binary, farewell := [] }

def WebSocket.dispatch (l : WebSocket) : Dispatch :=
  { writer := l.writer, sink := l.sink.view id, farewell := [.close] }

end Link

/-- The writer of a transport for packets, with its sink. -/
def Transport.dispatch? : Transport → Option Link.Dispatch
  | .framed l => some l.dispatch
  | .webSocket l => some l.dispatch
  | _ => none

namespace Transport

/-- What happens to the session when the writer moves on. -/
def writes (t : Transport) (m : Machine M S) : Option Machine.Action :=
  match t with
  | .queues _ => some .take
  | .framed l =>
    match l.writer, l.sink.poll.1 with
    | .idle, _ => if m.isEnded then none else some .take
    | .writing _ _, .failed _ => some .abandon
    | .writing _ _, _ => none
    | .closing, _ => some .abandon
    | .stopped, _ => none
  | .webSocket l =>
    match l.writer, l.sink.poll.1 with
    | .idle, _ => if m.isEnded then none else some .take
    | .writing _, .failed _ => some .abandon
    | .writing _, _ => none
    | .sendingClose, _ => none
    | .closing false, _ => some .abandon
    | .closing true, .failed _ => some .abandon
    | .closing true, _ => none
    | .stopped, _ => none
  | .paired => none

end Transport

/-- What a writer does in a step, and what it is to the session. -/
inductive DispatchStep (m : Machine M S) (d : Link.Dispatch) :
    Option Machine.Action → Machine M S → Link.Dispatch → Prop where
  | took (e : Envelope) (data : Bytes) (m₁ : Machine M S) (idle : d.writer = .idle)
      (live : m.isEnded = false) (take : m.takeOutbound? = some (e, m₁))
      (encoded : Wire.encode e = .ok data) :
      DispatchStep m d (some .take) m₁ { d with writer := .writing ⟨e.id, data⟩ }
  /-- An envelope that has no packet is counted and passed over. -/
  | skipped (e : Envelope) (cause : Wire.EncodeError) (m₁ : Machine M S) (idle : d.writer = .idle)
      (live : m.isEnded = false) (take : m.takeOutbound? = some (e, m₁))
      (unencoded : Wire.encode e = .error cause) :
      DispatchStep m d (some .take)
        ((m₁.log .envelopeNotEncoded).onHost fun h => { h with meter := h.meter.failure }) d
  | put (packet : Link.Written) (writing : d.writer = .writing packet)
      (flow : d.sink.flow.isOpen = true) (accepts : d.sink.failure? = none) :
      DispatchStep m d none m { d with writer := .idle, sink := d.sink.put (.binary packet) }
  /-- The write fails, so the writer cancels the session and gives up. -/
  | refused (packet : Link.Written) (m₁ : Machine M S) (writing : d.writer = .writing packet)
      (refuses : d.sink.failure?.isSome = true) (noted : m₁ = m ∨ ∃ event, m₁ = m.log event) :
      DispatchStep m d (some .abandon) (m₁.cancel m₁.session.lifetime).abandonOutbound
        { d with writer := .stopped, sink := { d.sink with failure? := none } }
  /-- The session has ended, so the writer begins to close the sink. -/
  | noticed (writer : Link.SocketWriter) (idle : d.writer = .idle) (ended : m.isEnded = true)
      (next : d.farewell = [] ∧ writer = .closing false ∨
        d.farewell = [.close] ∧ writer = .sendingClose) :
      DispatchStep m d none m { d with writer }
  | said (parting : d.writer = .sendingClose ∨ d.writer = .closing true)
      (farewell : d.farewell = [.close]) (flow : d.sink.flow.isOpen = true)
      (accepts : d.sink.failure? = none) :
      DispatchStep m d none m { d with writer := .closing false, sink := d.sink.put .close }
  /-- The close message was refused. It is sent once more. -/
  | unsaid (parting : d.writer = .sendingClose) (refuses : d.sink.failure?.isSome = true) :
      DispatchStep m d none m
        { d with writer := .closing true, sink := { d.sink with failure? := none } }
  /-- The close message was refused again, so the sink cannot be closed. -/
  | gaveUp (parting : d.writer = .closing true) (refuses : d.sink.failure?.isSome = true) :
      DispatchStep m d (some .abandon) m.abandonOutbound
        { d with writer := .stopped, sink := { d.sink with failure? := none } }
  | closed (parted : d.writer = .closing false) :
      DispatchStep m d (some .abandon) m.abandonOutbound
        { d with writer := .stopped, sink := d.sink.close }

section Steps

variable {m m' : Machine M S}

/-- The sink as it is seen refuses or takes what the sink itself does. -/
theorem Link.Sink.view_accepts {α β ε : Type} {s : Link.Sink α ε} (f : α → β)
    (h : s.failure?.isSome = false) : (s.view f).failure? = none := by
  have hNone : s.failure? = none := by simpa using h
  rw [view, hNone, Option.map_none]

theorem Link.Sink.view_refuses {α β ε : Type} {s : Link.Sink α ε} (f : α → β)
    (h : s.failure?.isSome = true) : (s.view f).failure?.isSome = true := by
  rw [view, Option.isSome_map, h]

theorem Link.Framed.write?_dispatch {l l' : Link.Framed} (h : l.write? m = some (m', l')) :
    DispatchStep m l.dispatch ((Transport.framed l).writes m) m' l'.dispatch := by
  obtain ⟨source, sourceEnded, stream, inlet, writer, sink⟩ := l
  cases writer with
  | idle =>
      simp only [Link.Framed.write?] at h
      split at h
      · next hEnded =>
          cases h
          simp only [Transport.writes, if_pos hEnded]
          exact .noticed _ rfl hEnded (.inl ⟨rfl, rfl⟩)
      · next hLive =>
          simp only [Transport.writes, if_neg hLive]
          have hLive := Bool.eq_false_iff.mpr hLive
          split at h
          · cases h
          · next e m₁ hTake =>
              split at h
              · next data hEncode =>
                  cases h
                  exact .took e data _ rfl hLive hTake hEncode
              · next cause hEncode =>
                  cases h
                  exact .skipped e cause m₁ rfl hLive hTake hEncode
  | writing id data =>
      simp only [Link.Framed.write?] at h
      split at h
      · cases h
      · next sink' hPoll =>
          cases h
          obtain ⟨hFlow, hAccepts, rfl⟩ := Sink.poll_ready hPoll
          simp only [Transport.writes, hPoll, dispatch, Sink.view_put]
          exact .put ⟨id, data⟩ rfl hFlow (Sink.view_accepts _ hAccepts)
      · next e sink' hPoll =>
          cases h
          obtain ⟨hRefuses, rfl⟩ := Sink.poll_failed hPoll
          simp only [Transport.writes, hPoll]
          exact .refused ⟨id, data⟩ _ rfl (Sink.view_refuses _ hRefuses) (.inr ⟨_, rfl⟩)
  | closing =>
      cases h
      simp only [dispatch, Sink.view_close]
      exact .closed rfl
  | stopped => cases h

theorem Link.WebSocket.write?_dispatch {l l' : Link.WebSocket} (h : l.write? m = some (m', l')) :
    DispatchStep m l.dispatch ((Transport.webSocket l).writes m) m' l'.dispatch := by
  obtain ⟨ping, incoming, incomingEnded, inlet, writer, sink⟩ := l
  cases writer with
  | idle =>
      simp only [Link.WebSocket.write?] at h
      split at h
      · next hEnded =>
          cases h
          simp only [Transport.writes, if_pos hEnded]
          exact .noticed _ rfl hEnded (.inr ⟨rfl, rfl⟩)
      · next hLive =>
          simp only [Transport.writes, if_neg hLive]
          have hLive := Bool.eq_false_iff.mpr hLive
          split at h
          · cases h
          · next e m₁ hTake =>
              split at h
              · next data hEncode =>
                  cases h
                  exact .took e data _ rfl hLive hTake hEncode
              · next cause hEncode =>
                  cases h
                  exact .skipped e cause m₁ rfl hLive hTake hEncode
  | writing packet =>
      simp only [Link.WebSocket.write?] at h
      split at h
      · cases h
      · next sink' hPoll =>
          cases h
          obtain ⟨hFlow, hAccepts, rfl⟩ := Sink.poll_ready hPoll
          simp only [Transport.writes, hPoll, dispatch, Sink.view_put]
          exact .put packet rfl hFlow (Sink.view_accepts _ hAccepts)
      · next e sink' hPoll =>
          cases h
          obtain ⟨hRefuses, rfl⟩ := Sink.poll_failed hPoll
          simp only [Transport.writes, hPoll]
          refine .refused packet _ rfl (Sink.view_refuses _ hRefuses) ?_
          split
          · exact .inl rfl
          · exact .inr ⟨_, rfl⟩
  | sendingClose =>
      simp only [Link.WebSocket.write?] at h
      split at h
      · cases h
      · next sink' hPoll =>
          cases h
          obtain ⟨hFlow, hAccepts, rfl⟩ := Sink.poll_ready hPoll
          simp only [dispatch, Sink.view_put]
          exact .said (.inl rfl) rfl hFlow (Sink.view_accepts _ hAccepts)
      · next e sink' hPoll =>
          cases h
          obtain ⟨hRefuses, rfl⟩ := Sink.poll_failed hPoll
          exact .unsaid rfl (Sink.view_refuses _ hRefuses)
  | closing unsent =>
      cases unsent with
      | false =>
          cases h
          simp only [dispatch, Sink.view_close]
          exact .closed rfl
      | true =>
          simp only [Link.WebSocket.write?] at h
          split at h
          · cases h
          · next sink' hPoll =>
              cases h
              obtain ⟨hFlow, hAccepts, rfl⟩ := Sink.poll_ready hPoll
              simp only [Transport.writes, hPoll, dispatch, Sink.view_put]
              exact .said (.inr rfl) rfl hFlow (Sink.view_accepts _ hAccepts)
          · next e sink' hPoll =>
              cases h
              obtain ⟨hRefuses, rfl⟩ := Sink.poll_failed hPoll
              simp only [Transport.writes, hPoll]
              exact .gaveUp rfl (Sink.view_refuses _ hRefuses)
  | stopped => cases h

theorem Machine.takeOutbound?_eq_none (h : m.takeOutbound? = none) :
    m.session.outbound.queued = [] := by
  unfold Machine.takeOutbound? Outbound.take? at h
  cases hQueued : m.session.outbound.queued with
  | nil => rfl
  | cons e rest => simp [hQueued] at h

/-- A writer that cannot move on has stopped or has nothing to write, unless the sink is held. -/
theorem Link.Framed.write?_rest {l : Link.Framed} (h : l.write? m = none)
    (hFlow : l.sink.flow.isOpen = true) : l.writer = .stopped ∨
      l.writer = .idle ∧ m.isEnded = false ∧ m.session.outbound.queued = [] := by
  obtain ⟨source, sourceEnded, stream, inlet, writer, sink⟩ := l
  cases writer with
  | idle =>
      simp only [Link.Framed.write?] at h
      split at h
      · cases h
      · next hLive =>
          split at h
          · next hTake =>
              exact .inr ⟨rfl, Bool.eq_false_iff.mpr hLive, Machine.takeOutbound?_eq_none hTake⟩
          · split at h
            · cases h
            · cases h
  | writing id data =>
      simp only [Link.Framed.write?] at h
      split at h
      · next hPoll => exact absurd hFlow (by simp [Sink.poll_blocked hPoll])
      · cases h
      · cases h
  | closing => cases h
  | stopped => exact .inl rfl

theorem Link.WebSocket.write?_rest {l : Link.WebSocket} (h : l.write? m = none)
    (hFlow : l.sink.flow.isOpen = true) : l.writer = .stopped ∨
      l.writer = .idle ∧ m.isEnded = false ∧ m.session.outbound.queued = [] := by
  obtain ⟨ping, incoming, incomingEnded, inlet, writer, sink⟩ := l
  have hOpen : ∀ {sink'}, sink.poll ≠ (.blocked, sink') := fun hPoll =>
    absurd hFlow (by simp [Sink.poll_blocked hPoll])
  cases writer with
  | idle =>
      simp only [Link.WebSocket.write?] at h
      split at h
      · cases h
      · next hLive =>
          split at h
          · next hTake =>
              exact .inr ⟨rfl, Bool.eq_false_iff.mpr hLive, Machine.takeOutbound?_eq_none hTake⟩
          · split at h
            · cases h
            · cases h
  | writing packet =>
      simp only [Link.WebSocket.write?] at h
      split at h
      · next hPoll => exact absurd hPoll hOpen
      · cases h
      · cases h
  | sendingClose =>
      simp only [Link.WebSocket.write?] at h
      split at h
      · next hPoll => exact absurd hPoll hOpen
      · cases h
      · cases h
  | closing unsent =>
      cases unsent with
      | false => cases h
      | true =>
          simp only [Link.WebSocket.write?] at h
          split at h
          · next hPoll => exact absurd hPoll hOpen
          · cases h
          · cases h
  | stopped => exact .inl rfl

end Steps

end PeerLink

import PeerLink.Proofs.Link.Dispatch
import PeerLink.Proofs.Session.Sending

/-! What the tasks of a transport do. To its session a step of one of them is at most one action. The
writers of the transports for packets differ in how they close their sinks only, and `WriteStep` lists what
they do for all of them. -/
namespace PeerLink

variable {M S : Type}

namespace Transport

/-- The reader moves on, if it can. -/
def read? (t : Transport) (m : Machine M S) : Option (Machine M S × Transport) :=
  match t with
  | .framed l => (l.read? m).map fun (m, l) => (m, .framed l)
  | .webSocket l => (l.read? m).map fun (m, l) => (m, .webSocket l)
  | _ => none

/-- The session takes an envelope or stops, if it can. -/
def consume? (t : Transport) (m : Machine M S) : Option (Machine M S × Transport) :=
  match t with
  | .queues l => (l.consume? m).map fun (m, l) => (m, .queues l)
  | .framed l => (l.consume? m).map fun (m, l) => (m, .framed l)
  | .webSocket l => (l.consume? m).map fun (m, l) => (m, .webSocket l)
  | .paired => none

/-- The writer moves on, if it can. -/
def write? (t : Transport) (m : Machine M S) : Option (Machine M S × Transport) :=
  match t with
  | .queues l => (l.write? m).map fun (m, l) => (m, .queues l)
  | .framed l => (l.write? m).map fun (m, l) => (m, .framed l)
  | .webSocket l => (l.write? m).map fun (m, l) => (m, .webSocket l)
  | .paired => none

/-- The session has taken everything, and no more will come. -/
def isExhausted : Transport → Bool
  | .queues l => l.incoming.isEmpty && l.incomingEnded
  | .framed l => l.inlet.isExhausted
  | .webSocket l => l.inlet.isExhausted
  | .paired => false

/-- The envelope that the session takes next. -/
def next? : Transport → Option Envelope
  | .queues l => l.incoming.head?
  | .framed l => l.inlet.queued.head?
  | .webSocket l => l.inlet.queued.head?
  | .paired => none

/-- What the session does when it is its turn to take an envelope. -/
def consumes (t : Transport) (m : Machine M S) : Option Machine.Action :=
  match m.stopConsuming? t.isExhausted, t.next? with
  | some _, _ => some (.stop t.isExhausted)
  | none, some e => some (.receive e)
  | none, none => none

end Transport

/-- The packet of an envelope, with its id, if it has one. -/
def Envelope.packet? (e : Envelope) : Option Link.Written :=
  match Wire.encode e with
  | .ok data => some ⟨e.id, data⟩
  | .error _ => none

theorem Envelope.packet?_of_ok {e : Envelope} {data : Bytes} (h : Wire.encode e = .ok data) :
    e.packet? = some ⟨e.id, data⟩ := by
  rw [packet?, h]

theorem Envelope.packet?_of_error {e : Envelope} {cause : Wire.EncodeError}
    (h : Wire.encode e = .error cause) : e.packet? = none := by
  rw [packet?, h]

/-- The envelope has no packet. -/
def Envelope.isUnencodable (e : Envelope) : Bool :=
  e.packet?.isNone

/-- What the counts are after the writer has taken an envelope. -/
def Envelope.counted (e : Envelope) (meter : Meter) : Meter :=
  if e.isUnencodable then meter.failure else meter

/-- What can be said alike of all writers of packets, and of their sinks. -/
structure Outlet where
  /-- The writer has not begun to close the sink. -/
  isOpen : Bool
  /-- The packet that waits for the sink. -/
  hand? : Option Link.Written
  /-- The packets in the sink that nobody has looked at. -/
  packets : List Link.Written
  flow : Link.Flow
  /-- The sink refuses the next item. -/
  refuses : Bool
  closed : Bool

namespace Link

section Sinks

variable {α ε : Type} {s s' : Sink α ε}

theorem Sink.close_taken (s : Sink α ε) : s.close.taken = s.taken := by
  unfold Sink.close
  split
  · rfl
  · rfl

theorem Sink.close_failure? (s : Sink α ε) : s.close.failure? = s.failure? := by
  unfold Sink.close
  split
  · rfl
  · rfl

end Sinks

def SocketOutput.packet? : SocketOutput → Option Written
  | .binary packet => some packet
  | .close => none

theorem Sink.put_close {ε : Type} (s : Sink SocketOutput ε) :
    (s.put .close).taken.filterMap SocketOutput.packet? =
      s.taken.filterMap SocketOutput.packet? := by
  rw [Sink.put, List.filterMap_append]
  exact List.append_nil _

def FramedWriter.isOpen : FramedWriter → Bool
  | .idle => true
  | .writing _ _ => true
  | .closing => false
  | .stopped => false

def FramedWriter.hand? : FramedWriter → Option Written
  | .writing id data => some ⟨id, data⟩
  | _ => none

def SocketWriter.isOpen : SocketWriter → Bool
  | .idle => true
  | .writing _ => true
  | _ => false

def SocketWriter.hand? : SocketWriter → Option Written
  | .writing packet => some packet
  | _ => none

def Framed.outlet (l : Framed) : Outlet :=
  { isOpen := l.writer.isOpen, hand? := l.writer.hand?, packets := l.sink.taken
    flow := l.sink.flow, refuses := l.sink.failure?.isSome, closed := l.sink.closed }

def WebSocket.outlet (l : WebSocket) : Outlet :=
  { isOpen := l.writer.isOpen, hand? := l.writer.hand?
    packets := l.sink.taken.filterMap SocketOutput.packet?, flow := l.sink.flow
    refuses := l.sink.failure?.isSome, closed := l.sink.closed }

end Link

/-- The writing side of a transport for packets. -/
def Transport.outlet? : Transport → Option Outlet
  | .framed l => some l.outlet
  | .webSocket l => some l.outlet
  | _ => none

namespace Machine

/-- The second differs from the first in what was counted and noted at most. -/
def Noted (m m' : Machine M S) : Prop :=
  ∃ meter journal, m' = m.onHost fun h => { h with meter, journal }

theorem Noted.refl (m : Machine M S) : m.Noted m :=
  ⟨m.meter, m.journal, rfl⟩

theorem Noted.log (m : Machine M S) (e : LogEvent) : m.Noted (m.log e) :=
  ⟨m.meter, m.journal ++ [e], rfl⟩

theorem Noted.count (m : Machine M S) (f : Meter → Meter) :
    m.Noted (m.onHost fun h => { h with meter := f h.meter }) :=
  ⟨f m.meter, m.journal, rfl⟩

theorem Noted.trans {m q m' : Machine M S} (h : m.Noted q) (later : q.Noted m') : m.Noted m' := by
  obtain ⟨_, _, rfl⟩ := h
  obtain ⟨meter, journal, rfl⟩ := later
  exact ⟨meter, journal, rfl⟩

theorem Noted.session {m m' : Machine M S} (h : m.Noted m') : m'.session = m.session := by
  obtain ⟨_, _, rfl⟩ := h
  rfl

end Machine

/-- What a step of a writer can do, and what it is to the session. -/
inductive WriteStep (m : Machine M S) (o : Outlet) :
    Option Machine.Action → Machine M S → Outlet → Prop where
  /-- The writer takes an envelope, and passes over it if it has no packet. -/
  | took (e : Envelope) (hand? : Option Link.Written) (m₁ m' : Machine M S) (isOpen : o.isOpen = true)
      (hand : o.hand? = none) (live : m.isEnded = false) (take : m.takeOutbound? = some (e, m₁))
      (packet : e.packet? = hand?) (noted : m₁.Noted m') (meter : m'.meter = e.counted m.meter) :
      WriteStep m o (some .take) m' { o with hand? }
  | put (packet : Link.Written) (packets : List Link.Written) (isOpen : o.isOpen = true)
      (hand : o.hand? = some packet) (flow : o.flow.isOpen = true) (accepts : o.refuses = false)
      (written : packets = o.packets ++ [packet]) :
      WriteStep m o none m { o with hand? := none, packets, flow := o.flow.pass }
  /-- The write fails, so the writer cancels the session and gives up. -/
  | refused (packet : Link.Written) (m₁ : Machine M S) (hand : o.hand? = some packet)
      (refuses : o.refuses = true) (noted : m.Noted m₁) :
      WriteStep m o (some .abandon) (m₁.cancel m₁.session.lifetime).abandonOutbound
        { o with isOpen := false, hand? := none, refuses := false }
  /-- The session has ended, so the writer begins to close the sink. -/
  | noticed (isOpen : o.isOpen = true) (hand : o.hand? = none) (ended : m.isEnded = true) :
      WriteStep m o none m { o with isOpen := false, hand? := none }
  | closing (a? : Option Machine.Action) (m' : Machine M S) (o' : Outlet) (shut : o.isOpen = false)
      (isOpen : o'.isOpen = false) (hand : o'.hand? = none) (packets : o'.packets = o.packets)
      (refuses : o'.refuses = true → o.refuses = true)
      (session : a? = none ∧ m' = m ∨ a? = some .abandon ∧ m' = m.abandonOutbound) :
      WriteStep m o a? m' o'

/-! ### What the steps of a transport are to its session -/

section Steps

variable {m m' : Machine M S}

theorem Link.Framed.gotItem_frame {l l' : Link.Framed} {item : Option Wire.Item}
    (h : l.gotItem m item = (m', l')) : m.Noted m' ∧ l'.dispatch = l.dispatch := by
  unfold Link.Framed.gotItem at h
  split at h
  · cases h
    exact ⟨.refl m, rfl⟩
  · cases h
    exact ⟨.refl m, rfl⟩
  · cases h
    exact ⟨.log m _, rfl⟩

theorem Link.Framed.read?_frame {l l' : Link.Framed} (h : l.read? m = some (m', l')) :
    m.Noted m' ∧ l'.dispatch = l.dispatch := by
  unfold Link.Framed.read? at h
  split at h
  · obtain ⟨inlet, _, he⟩ := Option.map_eq_some_iff.mp h
    cases he
    exact ⟨.refl m, rfl⟩
  · split at h
    · cases h
      exact ⟨.refl m, rfl⟩
    · split at h
      · have hFrame := gotItem_frame (Option.some.inj h)
        exact hFrame
      · split at h
        · have hFrame := gotItem_frame (Option.some.inj h)
          exact hFrame
        · split at h
          · cases h
          · split at h
            · cases h
              exact ⟨.refl m, rfl⟩
            · exact gotItem_frame (Option.some.inj h)

theorem Link.WebSocket.gotMessage_frame {l l' : Link.WebSocket} {message : Link.SocketMessage}
    (h : l.gotMessage m message = (m', l')) : m.Noted m' ∧ l'.dispatch = l.dispatch := by
  cases message with
  | binary data =>
      simp only [Link.WebSocket.gotMessage] at h
      split at h
      · cases h
        exact ⟨.refl m, rfl⟩
      · cases h
        exact ⟨.log m _, rfl⟩
  | text text =>
      simp only [Link.WebSocket.gotMessage] at h
      split at h
      · cases h
        exact ⟨.count m Meter.ping, rfl⟩
      · cases h
        exact ⟨.log m _, rfl⟩
  | failure e =>
      simp only [Link.WebSocket.gotMessage] at h
      split at h
      · cases h
        exact ⟨.refl m, rfl⟩
      · cases h
        exact ⟨.log m _, rfl⟩
  | ping data =>
      cases h
      exact ⟨.refl m, rfl⟩
  | pong data =>
      cases h
      exact ⟨.refl m, rfl⟩
  | close =>
      cases h
      exact ⟨.refl m, rfl⟩

theorem Link.WebSocket.read?_frame {l l' : Link.WebSocket} (h : l.read? m = some (m', l')) :
    m.Noted m' ∧ l'.dispatch = l.dispatch := by
  unfold Link.WebSocket.read? at h
  split at h
  · obtain ⟨inlet, _, he⟩ := Option.map_eq_some_iff.mp h
    cases he
    exact ⟨.refl m, rfl⟩
  · split at h
    · cases h
      exact ⟨.refl m, rfl⟩
    · split at h
      · have hFrame := gotMessage_frame (Option.some.inj h)
        exact hFrame
      · split at h
        · cases h
          exact ⟨.refl m, rfl⟩
        · cases h

theorem Machine.takeOutbound?_step {e : Envelope} (h : m.takeOutbound? = some (e, m')) :
    m.step? .take = some m' := by
  rw [Machine.step?, h, Option.map_some]

/-- The session does in a step of the writer what the step is to it. -/
theorem WriteStep.view {o o' : Outlet} {a? : Option Machine.Action} (h : WriteStep m o a? m' o') :
    (a? = none ∧ m'.session = m.session) ∨
      ∃ a m₁, a? = some a ∧ m.step? a = some m₁ ∧ m'.session = m₁.session := by
  cases h with
  | took e hand? m₁ _ _ _ _ take _ noted =>
      exact .inr ⟨.take, m₁, rfl, Machine.takeOutbound?_step take, noted.session⟩
  | put => exact .inl ⟨rfl, rfl⟩
  | refused packet m₁ _ _ noted =>
      refine .inr ⟨.abandon, _, rfl, rfl, ?_⟩
      exact congrArg (fun s => { s with outbound := s.outbound.abandon }) noted.session
  | noticed => exact .inl ⟨rfl, rfl⟩
  | closing _ _ _ _ _ _ _ _ session =>
      obtain ⟨hNone, rfl⟩ | ⟨hAbandon, rfl⟩ := session
      · exact .inl ⟨hNone, rfl⟩
      · exact .inr ⟨.abandon, _, hAbandon, rfl, rfl⟩

/-- A writer takes envelopes from the session or goes away. It does nothing else to it. -/
theorem WriteStep.view_cases {o o' : Outlet} {a? : Option Machine.Action}
    (h : WriteStep m o a? m' o') : a? = none ∨ a? = some .take ∨ a? = some .abandon := by
  cases h with
  | took => exact .inr (.inl rfl)
  | put => exact .inl rfl
  | refused => exact .inr (.inr rfl)
  | noticed => exact .inl rfl
  | closing _ _ _ _ _ _ _ _ session =>
      obtain ⟨hNone, _⟩ | ⟨hAbandon, _⟩ := session
      · exact .inl hNone
      · exact .inr (.inr hAbandon)

/-- What can be said alike of all writers, of one of them. -/
def Link.Dispatch.outlet (d : Link.Dispatch) : Outlet :=
  { isOpen := d.writer.isOpen, hand? := d.writer.hand?
    packets := d.sink.taken.filterMap Link.SocketOutput.packet?, flow := d.sink.flow
    refuses := d.sink.failure?.isSome, closed := d.sink.closed }

theorem Link.Framed.outlet_eq (l : Link.Framed) : l.outlet = l.dispatch.outlet := by
  have hPackets : l.sink.taken =
      (l.sink.taken.map SocketOutput.binary).filterMap SocketOutput.packet? := by
    rw [List.filterMap_map]
    exact List.filterMap_some.symm
  obtain ⟨source, sourceEnded, stream, inlet, writer, sink⟩ := l
  rw [outlet, Dispatch.outlet, hPackets]
  cases writer <;> simp [dispatch, FramedWriter.stage, FramedWriter.isOpen, FramedWriter.hand?,
    SocketWriter.isOpen, SocketWriter.hand?, Sink.view]

theorem Link.WebSocket.outlet_eq (l : Link.WebSocket) : l.outlet = l.dispatch.outlet := by
  simp [outlet, Dispatch.outlet, dispatch, Sink.view]

theorem DispatchStep.writeStep {d d' : Link.Dispatch} {a? : Option Machine.Action}
    (h : DispatchStep m d a? m' d') : WriteStep m d.outlet a? m' d'.outlet := by
  obtain ⟨writer, sink, farewell⟩ := d
  cases h with
  | took e data _ idle live take encoded =>
      cases idle
      refine .took e _ _ _ rfl rfl live take (Envelope.packet?_of_ok encoded) (.refl _) ?_
      obtain ⟨_, _, rfl⟩ := Machine.takeOutbound?_eq_some take
      rw [Envelope.counted, Envelope.isUnencodable, Envelope.packet?_of_ok encoded]
      rfl
  | skipped e cause m₁ idle live take unencoded =>
      cases idle
      refine .took e _ m₁ _ rfl rfl live take (Envelope.packet?_of_error unencoded)
        ((Machine.Noted.log m₁ _).trans (.count _ _)) ?_
      obtain ⟨_, _, rfl⟩ := Machine.takeOutbound?_eq_some take
      rw [Envelope.counted, Envelope.isUnencodable, Envelope.packet?_of_error unencoded]
      rfl
  | put packet writing flow accepts =>
      cases writing
      exact .put packet _ rfl rfl flow (Option.isSome_eq_false_iff.mpr (by simpa using accepts))
        List.filterMap_append
  | refused packet m₁ writing refuses noted =>
      cases writing
      refine .refused packet m₁ rfl refuses ?_
      obtain rfl | ⟨event, rfl⟩ := noted
      · exact .refl _
      · exact .log m event
  | noticed writer' idle ended next =>
      cases idle
      obtain ⟨_, rfl⟩ | ⟨_, rfl⟩ := next
      · exact .noticed rfl rfl ended
      · exact .noticed rfl rfl ended
  | said parting _ _ _ =>
      have hShut : writer.isOpen = false := by
        obtain rfl | rfl := parting <;> rfl
      exact .closing _ _ _ hShut rfl rfl sink.put_close id (.inl ⟨rfl, rfl⟩)
  | unsaid parting refuses =>
      cases parting
      exact .closing _ _ _ rfl rfl rfl rfl (fun _ => refuses) (.inl ⟨rfl, rfl⟩)
  | gaveUp parting refuses =>
      cases parting
      exact .closing _ _ _ rfl rfl rfl rfl (fun _ => refuses) (.inr ⟨rfl, rfl⟩)
  | closed parted =>
      cases parted
      refine .closing _ _ _ rfl rfl rfl ?_ (fun hRefuses => ?_) (.inr ⟨rfl, rfl⟩)
      · exact congrArg (List.filterMap Link.SocketOutput.packet?) sink.close_taken
      · simp only [Link.Dispatch.outlet, sink.close_failure?] at hRefuses
        exact hRefuses

theorem Link.Framed.write?_step {l l' : Link.Framed} (h : l.write? m = some (m', l')) :
    WriteStep m l.outlet ((Transport.framed l).writes m) m' l'.outlet := by
  rw [outlet_eq, outlet_eq]
  exact (write?_dispatch h).writeStep

theorem Link.WebSocket.write?_step {l l' : Link.WebSocket} (h : l.write? m = some (m', l')) :
    WriteStep m l.outlet ((Transport.webSocket l).writes m) m' l'.outlet := by
  rw [outlet_eq, outlet_eq]
  exact (write?_dispatch h).writeStep

namespace Transport

variable {t t' : Transport}

theorem outlet?_eq (t : Transport) : t.outlet? = t.dispatch?.map Link.Dispatch.outlet := by
  cases t with
  | framed l => exact congrArg some l.outlet_eq
  | webSocket l => exact congrArg some l.outlet_eq
  | queues l => rfl
  | paired => rfl

theorem read?_dispatch (h : t.read? m = some (m', t')) :
    m.Noted m' ∧ t'.dispatch? = t.dispatch? := by
  cases t with
  | framed l =>
      obtain ⟨⟨m₁, l₁⟩, hRead, he⟩ := Option.map_eq_some_iff.mp h
      cases he
      obtain ⟨hNoted, hSame⟩ := Link.Framed.read?_frame hRead
      exact ⟨hNoted, congrArg some hSame⟩
  | webSocket l =>
      obtain ⟨⟨m₁, l₁⟩, hRead, he⟩ := Option.map_eq_some_iff.mp h
      cases he
      obtain ⟨hNoted, hSame⟩ := Link.WebSocket.read?_frame hRead
      exact ⟨hNoted, congrArg some hSame⟩
  | queues l => cases h
  | paired => cases h

theorem read?_frame (h : t.read? m = some (m', t')) : m.Noted m' ∧ t'.outlet? = t.outlet? := by
  obtain ⟨hNoted, hSame⟩ := read?_dispatch h
  exact ⟨hNoted, by rw [outlet?_eq, outlet?_eq, hSame]⟩

theorem consumes_of_stop (h : m.stopConsuming? t.isExhausted = some m') :
    t.consumes m = some (.stop t.isExhausted) := by
  rw [consumes, h]

theorem consumes_of_next {e : Envelope} (hGoing : m.stopConsuming? t.isExhausted = none)
    (hNext : t.next? = some e) : t.consumes m = some (.receive e) := by
  rw [consumes, hGoing, hNext]

theorem consume?_dispatch (h : t.consume? m = some (m', t')) :
    ∃ a, t.consumes m = some a ∧ m.step? a = some m' ∧ t'.dispatch? = t.dispatch? := by
  cases t with
  | queues l =>
      obtain ⟨⟨m₁, l₁⟩, hConsume, he⟩ := Option.map_eq_some_iff.mp h
      cases he
      unfold Link.Queues.consume? at hConsume
      split at hConsume
      · next hStop =>
          cases hConsume
          exact ⟨_, consumes_of_stop (t := .queues l) hStop, hStop, rfl⟩
      · next e rest hGoing hQueue =>
          obtain ⟨m₂, hReceive, he⟩ := Option.map_eq_some_iff.mp hConsume
          cases he
          have hNext : (Transport.queues l).next? = some e := by rw [next?, hQueue, List.head?_cons]
          exact ⟨_, consumes_of_next hGoing hNext, hReceive, rfl⟩
      · cases hConsume
  | framed l =>
      obtain ⟨⟨m₁, l₁⟩, hConsume, he⟩ := Option.map_eq_some_iff.mp h
      cases he
      unfold Link.Framed.consume? at hConsume
      split at hConsume
      · next hStop =>
          cases hConsume
          exact ⟨_, consumes_of_stop (t := .framed l) hStop, hStop, rfl⟩
      · next e rest hGoing hQueue =>
          obtain ⟨m₂, hReceive, he⟩ := Option.map_eq_some_iff.mp hConsume
          cases he
          have hNext : (Transport.framed l).next? = some e := by rw [next?, hQueue, List.head?_cons]
          exact ⟨_, consumes_of_next hGoing hNext, hReceive, rfl⟩
      · cases hConsume
  | webSocket l =>
      obtain ⟨⟨m₁, l₁⟩, hConsume, he⟩ := Option.map_eq_some_iff.mp h
      cases he
      unfold Link.WebSocket.consume? at hConsume
      split at hConsume
      · next hStop =>
          cases hConsume
          exact ⟨_, consumes_of_stop (t := .webSocket l) hStop, hStop, rfl⟩
      · next e rest hGoing hQueue =>
          obtain ⟨m₂, hReceive, he⟩ := Option.map_eq_some_iff.mp hConsume
          cases he
          have hNext : (Transport.webSocket l).next? = some e := by
            rw [next?, hQueue, List.head?_cons]
          exact ⟨_, consumes_of_next hGoing hNext, hReceive, rfl⟩
      · cases hConsume
  | paired => cases h

theorem consume?_frame (h : t.consume? m = some (m', t')) :
    ∃ a, t.consumes m = some a ∧ m.step? a = some m' ∧ t'.outlet? = t.outlet? := by
  obtain ⟨a, hView, hStep, hSame⟩ := consume?_dispatch h
  exact ⟨a, hView, hStep, by rw [outlet?_eq, outlet?_eq, hSame]⟩

theorem write?_dispatch {d : Link.Dispatch} (h : t.write? m = some (m', t'))
    (hDispatch : t.dispatch? = some d) :
    ∃ d', t'.dispatch? = some d' ∧ DispatchStep m d (t.writes m) m' d' := by
  cases t with
  | framed l =>
      cases hDispatch
      obtain ⟨⟨m₁, l₁⟩, hWrite, he⟩ := Option.map_eq_some_iff.mp h
      cases he
      exact ⟨l₁.dispatch, rfl, Link.Framed.write?_dispatch hWrite⟩
  | webSocket l =>
      cases hDispatch
      obtain ⟨⟨m₁, l₁⟩, hWrite, he⟩ := Option.map_eq_some_iff.mp h
      cases he
      exact ⟨l₁.dispatch, rfl, Link.WebSocket.write?_dispatch hWrite⟩
  | queues l => cases hDispatch
  | paired => cases hDispatch

/-- A writer that cannot move on has stopped or has nothing to write, unless the sink is held. -/
theorem write?_rest {d : Link.Dispatch} (h : t.write? m = none) (hDispatch : t.dispatch? = some d)
    (hFlow : d.sink.flow.isOpen = true) : d.writer = .stopped ∨
      d.writer = .idle ∧ m.isEnded = false ∧ m.session.outbound.queued = [] := by
  cases t with
  | framed l =>
      cases hDispatch
      obtain hStopped | ⟨hIdle, hRest⟩ := l.write?_rest (Option.map_eq_none_iff.mp h) hFlow
      · exact .inl (congrArg Link.FramedWriter.stage hStopped)
      · exact .inr ⟨congrArg Link.FramedWriter.stage hIdle, hRest⟩
  | webSocket l =>
      cases hDispatch
      exact l.write?_rest (Option.map_eq_none_iff.mp h) hFlow
  | queues l => cases hDispatch
  | paired => cases hDispatch

theorem write?_step (h : t.write? m = some (m', t')) :
    (t.outlet? = none ∧ t'.outlet? = none ∧ t.writes m = some .take ∧ m.step? .take = some m') ∨
      ∃ o o', t.outlet? = some o ∧ t'.outlet? = some o' ∧ WriteStep m o (t.writes m) m' o' := by
  cases t with
  | queues l =>
      obtain ⟨⟨m₁, l₁⟩, hWrite, he⟩ := Option.map_eq_some_iff.mp h
      cases he
      unfold Link.Queues.write? at hWrite
      split at hWrite
      · obtain ⟨⟨e, m₂⟩, hTake, he⟩ := Option.map_eq_some_iff.mp hWrite
        cases he
        exact .inl ⟨rfl, rfl, rfl, Machine.takeOutbound?_step hTake⟩
      · cases hWrite
  | framed l =>
      obtain ⟨⟨m₁, l₁⟩, hWrite, he⟩ := Option.map_eq_some_iff.mp h
      cases he
      exact .inr ⟨l.outlet, l₁.outlet, rfl, rfl, Link.Framed.write?_step hWrite⟩
  | webSocket l =>
      obtain ⟨⟨m₁, l₁⟩, hWrite, he⟩ := Option.map_eq_some_iff.mp h
      cases he
      exact .inr ⟨l.outlet, l₁.outlet, rfl, rfl, Link.WebSocket.write?_step hWrite⟩
  | paired => cases h

theorem write?_view (h : t.write? m = some (m', t')) :
    t.writes m = none ∨ t.writes m = some .take ∨ t.writes m = some .abandon := by
  obtain ⟨_, _, hView, _⟩ | ⟨_, _, _, _, hStep⟩ := write?_step h
  · exact .inr (.inl hView)
  · exact hStep.view_cases

/-- An open writer that cannot move on has nothing to write, unless the sink is held. -/
theorem write?_eq_none {o : Outlet} (h : t.write? m = none) (hOutlet : t.outlet? = some o)
    (hOpen : o.isOpen = true) (hFlow : o.flow.isOpen = true) :
    o.hand? = none ∧ m.session.outbound.queued = [] := by
  rw [outlet?_eq] at hOutlet
  obtain ⟨d, hDispatch, rfl⟩ := Option.map_eq_some_iff.mp hOutlet
  obtain hStopped | ⟨hIdle, _, hQueued⟩ := write?_rest h hDispatch hFlow
  · simp [Link.Dispatch.outlet, hStopped, Link.SocketWriter.isOpen] at hOpen
  · exact ⟨by simp [Link.Dispatch.outlet, hIdle, Link.SocketWriter.hand?], hQueued⟩

end Transport

end Steps

end PeerLink

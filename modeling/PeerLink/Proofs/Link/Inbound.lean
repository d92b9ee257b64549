import PeerLink.Proofs.Link.Messages
import PeerLink.Proofs.Link.Transmission

/-! What a transport makes of packets that arrive over it. A list of envelopes is given, each with its
packet. A byte transport gets the bytes of the packets one behind another, in any pieces, and a websocket
gets a message for each, perhaps with others in between that carry nothing. Both hand over what has arrived
whole and nothing else. -/
namespace PeerLink

variable {M S : Type}

/-- Whether the message counts as a ping. -/
def Transport.isPing : Transport → Link.SocketMessage → Bool
  | .webSocket w, x => x = .text w.pingMessage
  | _, _ => false

namespace Linked

/-- The first of the envelopes: those that have arrived whole. -/
def History.landed (past : History M S) (packets : List (Envelope × Bytes)) :
    Transport → List Envelope
  | .framed _ => Wire.whole packets (Wire.sourceBytes past.arrived).length
  | .webSocket _ =>
    (packets.map Prod.fst).take (past.messages.filterMap Link.SocketMessage.data?).length
  | _ => []

/-- Only these packets have arrived, from the first one on, and perhaps messages that carry nothing. -/
def History.Fed (past : History M S) (packets : List (Envelope × Bytes)) : Transport → Prop
  | .framed _ => past.arrived.filterMap Wire.SourceEvent.failure? = [] ∧
      Wire.sourceBytes past.arrived <+: (packets.map Prod.snd).flatten
  | .webSocket _ => (∀ x ∈ past.messages, x ≠ .close ∧ ∀ error, x ≠ .failure error) ∧
      past.messages.filterMap Link.SocketMessage.data? <+: packets.map Prod.snd
  | _ => False

/-- Where a transport stands with what has arrived over it. -/
structure Inbound (packets : List (Envelope × Bytes)) (transport : Transport) (past : History M S)
    (l : Linked M S) : Prop where
  heard : past.session.heard <+: past.landed packets transport
  exhausted : l.transport.isExhausted = true → l.isEnded = true
  /-- When nothing moves on in a live session, all that has arrived was looked at and handled. -/
  rest : l.isEnded = false → l.step? .read = none → l.step? .consume = none →
    l.transport.unlooked = [] ∧ past.session.heard = past.landed packets transport
  counted : ∀ l', l.step? .read = some l' →
    (l'.transport.unlooked = l.transport.unlooked ∧ l'.meter = l.meter) ∨
      ∃ y, l.transport.unlooked = y :: l'.transport.unlooked ∧
        l'.meter = if transport.isPing y then l.meter.ping else l.meter
  arriving : ∀ event l', event ≠ .ended → l.step? (.outside event) = some l' →
    l'.transport.unlooked.countP transport.isPing = l.transport.unlooked.countP transport.isPing +
      (History.messages [(l, .outside event)]).countP transport.isPing

variable {l l' : Linked M S} {x : Action} {past : History M S} {packets : List (Envelope × Bytes)}
  {host : Host} {registry : Registry M S} {callTimeout : Option Duration} {capacity room : Nat}

/-! ### What is counted -/

theorem countP_isPing_framed (f : Link.Framed) (messages : List Link.SocketMessage) :
    messages.countP (Transport.framed f).isPing = 0 :=
  List.countP_eq_zero.mpr fun _ _ => Bool.false_ne_true

theorem isPing_counted (w : Link.WebSocket) (y : Link.SocketMessage) (meter : Meter) :
    y.counted w.pingMessage meter =
      if (Transport.webSocket w).isPing y then meter.ping else meter := by
  rw [Link.SocketMessage.counted, Transport.isPing]
  by_cases hPing : y = .text w.pingMessage
  · rw [if_pos hPing, if_pos (decide_eq_true hPing)]
  · rw [if_neg hPing, if_neg (by simpa using hPing)]

section Counts

variable {transport : Transport} (fresh : transport.Fresh)
  (run : Execution (new host registry callTimeout capacity transport) past l)

include fresh run

/-- A ping is counted when it is looked at, and a reader counts nothing else. -/
theorem Execution.counted_of_read (h : l.step? .read = some l') :
    (l'.transport.unlooked = l.transport.unlooked ∧ l'.meter = l.meter) ∨
      ∃ y, l.transport.unlooked = y :: l'.transport.unlooked ∧
        l'.meter = if transport.isPing y then l.meter.ping else l.meter := by
  cases fresh with
  | framed room =>
      obtain ⟨i, hReading⟩ := run.reading
      obtain ⟨⟨m, t⟩, hRead, rfl⟩ := Option.map_eq_some_iff.mp h
      obtain ⟨i', hIntake', hStep⟩ := Transport.read?_intake hRead hReading.intake
      obtain ⟨f, hFramed, _⟩ := Transport.eq_framed hReading.intake
      obtain ⟨f', rfl, _⟩ := Transport.eq_framed hIntake'
      exact .inl ⟨by rw [hFramed]; rfl, hStep.meter⟩
  | webSocket room pingMessage =>
      obtain ⟨b, hMailing⟩ := run.mailing
      obtain hSame | ⟨y, hNext, hMeter⟩ := hMailing.counted h
      · exact .inl hSame
      · exact .inr ⟨y, hNext, hMeter.trans (isPing_counted (.new room pingMessage) y _)⟩

/-- A ping that arrives has yet to be looked at. -/
theorem Execution.pings_arriving {event : Event} (h : l.step? (.outside event) = some l') :
    l'.transport.unlooked.countP transport.isPing = l.transport.unlooked.countP transport.isPing +
      (History.messages [(l, .outside event)]).countP transport.isPing := by
  cases fresh with
  | framed room => rw [countP_isPing_framed, countP_isPing_framed, countP_isPing_framed]
  | webSocket room pingMessage =>
      obtain ⟨b, hMailing⟩ := run.mailing
      obtain ⟨t, hChange, rfl⟩ := Option.map_eq_some_iff.mp h
      obtain ⟨hMailbox, _⟩ := Event.change?_mailbox hChange hMailing.mailbox
      rw [Transport.unlooked_of_mailbox hMailbox, Transport.unlooked_of_mailbox hMailing.mailbox,
        Event.onMailbox_incoming (l := l), List.countP_append]

end Counts

/-! ### What has arrived so far -/

theorem sourceBytes_arrived : Wire.sourceBytes (History.arrived (past ++ [(l, x)])) =
    Wire.sourceBytes past.arrived ++ Wire.sourceBytes (History.arrived [(l, x)]) := by
  rw [History.arrived_append, Wire.sourceBytes, Wire.sourceBytes, Wire.sourceBytes, List.flatMap_append]

theorem History.landed_prefix (transport : Transport) :
    past.landed packets transport <+: History.landed (past ++ [(l, x)]) packets transport := by
  have hMessages : (past.messages.filterMap Link.SocketMessage.data?).length ≤
      ((History.messages (past ++ [(l, x)])).filterMap Link.SocketMessage.data?).length := by
    rw [History.messages_append, List.filterMap_append, List.length_append]
    exact Nat.le_add_right _ _
  cases transport with
  | framed f =>
      refine Wire.whole_prefix packets ?_
      rw [sourceBytes_arrived, List.length_append]
      exact Nat.le_add_right _ _
  | webSocket w => exact List.take_prefix_take_left hMessages
  | queues _ => exact List.nil_prefix
  | paired => exact List.nil_prefix

theorem History.landed_other (hEvent : ∀ event, x ≠ .outside event) (transport : Transport) :
    History.landed (past ++ [(l, x)]) packets transport = past.landed packets transport := by
  have hArrived : History.arrived (past ++ [(l, x)]) = past.arrived :=
    History.arrived_other fun event => hEvent (.source event)
  have hMessages : History.messages (past ++ [(l, x)]) = past.messages :=
    History.messages_other fun message => hEvent (.message message)
  cases transport with
  | framed f => rw [landed, landed, hArrived]
  | webSocket w => rw [landed, landed, hMessages]
  | queues _ => rfl
  | paired => rfl

theorem History.Fed.before {transport : Transport}
    (h : History.Fed (past ++ [(l, x)]) packets transport) : past.Fed packets transport := by
  cases transport with
  | framed f =>
      obtain ⟨hQuiet, hBytes⟩ := h
      rw [sourceBytes_arrived] at hBytes
      rw [History.arrived_append, List.filterMap_append, List.append_eq_nil_iff] at hQuiet
      exact ⟨hQuiet.1, (List.prefix_append _ _).trans hBytes⟩
  | webSocket w =>
      obtain ⟨hCalm, hMessages⟩ := h
      rw [History.messages_append, List.filterMap_append] at hMessages
      refine ⟨fun y hy => hCalm y ?_, (List.prefix_append _ _).trans hMessages⟩
      rw [History.messages_append]
      exact List.mem_append_left _ hy
  | queues _ => cases h
  | paired => cases h

/-- When all packets have arrived, so have all envelopes. -/
theorem landed_of_bytes {f : Link.Framed}
    (h : Wire.sourceBytes past.arrived = (packets.map Prod.snd).flatten) :
    past.landed packets (.framed f) = packets.map Prod.fst := by
  rw [History.landed, h, Wire.whole_flatten]

/-! ### Over bytes -/

theorem oks_inj {es fs : List Envelope} (h : es.map Except.ok = (fs.map .ok : List Wire.Item)) :
    es = fs :=
  List.map_injective_iff.mpr (fun _ _ => Except.ok.inj) h

theorem Execution.inbound_of_bytes
    (run : Execution (new host registry callTimeout capacity (.framed (.new room))) past l)
    (hPackets : ∀ y ∈ packets, Wire.Carries y.1 y.2) (hOpen : past.Open)
    (hFed : past.Fed packets (.framed (.new room))) :
    Inbound packets (.framed (.new room)) past l := by
  obtain ⟨hQuiet, hBytes⟩ := hFed
  obtain ⟨i, hReading⟩ := run.reading
  obtain ⟨i', hIntake, hOver⟩ := run.sourceEnded_iff
  rw [hReading.intake] at hIntake
  cases hIntake
  have hNotEnded : i.sourceEnded = false := Bool.eq_false_iff.mpr fun h => hOver.mp h hOpen
  obtain ⟨f, hFramed, rfl⟩ := Transport.eq_framed hReading.intake
  have hItems : Wire.completed (Wire.sourceBytes past.arrived) =
      (past.landed packets (.framed (.new room))).map .ok :=
    Wire.completed_of_packets hPackets hBytes
  have hNoError : ∀ cause (before later : List Wire.Item),
      Wire.yields [] past.arrived ≠ before ++ .error cause :: later := by
    intro cause before later hYields
    rw [Wire.yields_of_quiet hQuiet, hItems] at hYields
    have hMem : Except.error cause ∈ (past.landed packets (.framed (.new room))).map Except.ok := by
      rw [hYields]
      exact List.mem_append_right _ List.mem_cons_self
    obtain ⟨e, _, he⟩ := List.mem_map.mp hMem
    cases he
  refine ⟨?_, fun hExhausted => ?_, fun hLive hRead hConsume => ⟨?_, ?_⟩,
    fun _ hRead => run.counted_of_read (.framed room) hRead,
    fun _ _ _ hArrive => run.pings_arriving (.framed room) hArrive⟩
  · have hHeard := run.heard_prefix
    rw [hItems, ← List.append_nil (List.map _ (past.landed _ _))] at hHeard
    exact oks_prefix hHeard nofun
  · rw [hFramed] at hExhausted
    have hStopped : f.inlet.reader = .stopped := by
      simpa using (Bool.and_eq_true_iff.mp hExhausted).2
    obtain hCut | ⟨hOver, _⟩ | ⟨cause, held, _, hFault⟩ := hReading.stopped hStopped
    · exact run.isEnded_of_interrupted hCut
    · rw [hNotEnded] at hOver
      cases hOver
    · have hNow := hFault []
      rw [List.append_nil] at hNow
      exact absurd hNow (hNoError cause _ _)
  · rw [hFramed]
    rfl
  · exact (oks_inj (hItems.symm.trans (run.completed_of_drained hLive ⟨hRead, hConsume⟩))).symm

/-! ### Over a websocket -/

/-- The messages that carry something carry the first of the envelopes. -/
theorem envelopes_of_messages {messages : List Link.SocketMessage}
    (hPackets : ∀ y ∈ packets, Wire.Carries y.1 y.2)
    (h : messages.filterMap Link.SocketMessage.data? <+: packets.map Prod.snd) :
    messages.filterMap Link.SocketMessage.envelope? = (packets.map Prod.fst).take
      (messages.filterMap Link.SocketMessage.data?).length := by
  have hDecode : ∀ ys : List (Envelope × Bytes), (∀ y ∈ ys, Wire.Carries y.1 y.2) →
      (ys.map Prod.snd).filterMap (fun data => (Wire.decode data).toOption) = ys.map Prod.fst := by
    intro ys hys
    induction ys with
    | nil => rfl
    | cons y ys ih =>
        have hFirst : (Wire.decode y.2).toOption = some y.1 := by
          rw [(hys y List.mem_cons_self).decode]
          rfl
        simp only [List.map_cons, List.filterMap_cons, hFirst]
        rw [ih fun z hz => hys z (List.mem_cons_of_mem _ hz)]
  have hEnvelopes : messages.filterMap Link.SocketMessage.envelope? =
      (messages.filterMap Link.SocketMessage.data?).filterMap
        fun data => (Wire.decode data).toOption := by
    rw [List.filterMap_filterMap]
    rfl
  have hTake := List.prefix_iff_eq_take.mp h
  generalize (messages.filterMap Link.SocketMessage.data?).length = n at hTake ⊢
  rw [hEnvelopes, hTake, ← List.map_take, ← List.map_take,
    hDecode _ fun y hy => hPackets y (List.mem_of_mem_take hy)]

theorem harmless_of_fed {messages : List Link.SocketMessage}
    (hPackets : ∀ y ∈ packets, Wire.Carries y.1 y.2)
    (hCalm : ∀ x ∈ messages, x ≠ .close ∧ ∀ error, x ≠ .failure error)
    (hMessages : messages.filterMap Link.SocketMessage.data? <+: packets.map Prod.snd) :
    ∀ x ∈ messages, x.isHarmless = true := by
  intro x hx
  cases x with
  | binary data =>
      have hMem := hMessages.subset (List.mem_filterMap.mpr ⟨_, hx, rfl⟩)
      obtain ⟨y, hy, rfl⟩ := List.mem_map.mp hMem
      rw [Link.SocketMessage.isHarmless, (hPackets y hy).decode]
      rfl
  | close => exact absurd rfl (hCalm _ hx).1
  | failure error => exact absurd rfl ((hCalm _ hx).2 error)
  | _ => rfl

theorem Execution.inbound_of_messages {pingMessage : String}
    (run : Execution (new host registry callTimeout capacity (.webSocket (.new room pingMessage)))
      past l)
    (hPackets : ∀ y ∈ packets, Wire.Carries y.1 y.2) (hOpen : past.Open)
    (hFed : past.Fed packets (.webSocket (.new room pingMessage))) :
    Inbound packets (.webSocket (.new room pingMessage)) past l := by
  obtain ⟨hCalm, hMessages⟩ := hFed
  have hHarmless := harmless_of_fed hPackets hCalm hMessages
  have hEnvelopes : past.messages.filterMap Link.SocketMessage.envelope? =
      past.landed packets (.webSocket (.new room pingMessage)) :=
    envelopes_of_messages hPackets hMessages
  obtain ⟨b, hMailing⟩ := run.mailing
  obtain ⟨_, alone⟩ := run.reaches
  refine ⟨?_, fun hExhausted => ?_, fun hLive hRead hConsume => ?_,
    fun _ hRead => run.counted_of_read (.webSocket room pingMessage) hRead,
    fun _ _ _ hArrive => run.pings_arriving (.webSocket room pingMessage) hArrive⟩
  · obtain ⟨seen, hSeen, _, hOrder⟩ := hMailing.order
    rw [← hEnvelopes]
    exact ((List.prefix_append _ _).trans hOrder).trans (hSeen.filterMap _)
  · obtain ⟨w, hSocket, rfl⟩ := Transport.eq_webSocket hMailing.mailbox
    rw [hSocket] at hExhausted
    have hStopped : w.inlet.reader = .stopped := by
      simpa using (Bool.and_eq_true_iff.mp hExhausted).2
    exact run.isEnded_of_interrupted (hMailing.interrupted_of_stopped hOpen hHarmless hStopped)
  · have hConsuming := alone.consuming_of_live hLive
    rw [← hEnvelopes]
    exact hMailing.at_rest hLive hConsuming hRead hConsume

theorem Execution.inbound {transport : Transport} (fresh : transport.Fresh)
    (run : Execution (new host registry callTimeout capacity transport) past l)
    (hPackets : ∀ y ∈ packets, Wire.Carries y.1 y.2) (hOpen : past.Open)
    (hFed : past.Fed packets transport) : Inbound packets transport past l := by
  cases fresh with
  | framed room => exact run.inbound_of_bytes hPackets hOpen hFed
  | webSocket room pingMessage => exact run.inbound_of_messages hPackets hOpen hFed

end Linked

end PeerLink

import PeerLink.Proofs.Link.Reading
import PeerLink.Proofs.Link.Writing
import PeerLink.Proofs.Wire.Limits

/-! Two sessions at the ends of one byte transport. What the writer of the one has written arrives at the
reader of the other, cut anywhere and perhaps not all of it yet. The reader hands over every envelope that
has arrived completely and goes on, up to the first packet with a body that is too long for a stream. The
writer does write such packets, and the header of one ends the session at the other end. -/
namespace PeerLink

variable {M S : Type}

/-- A writer loses no packet as long as it goes on, and afterwards it writes nothing more. -/
theorem WriteStep.written {m m' : Machine M S} {o o' : Outlet} {a? : Option Machine.Action}
    (h : WriteStep m o a? m' o') :
    (a? ≠ some .take ∧ o'.packets ++ o'.hand?.toList <+: o.packets ++ o.hand?.toList ∧
      (o'.isOpen = true → o.isOpen = true ∧
        o'.packets ++ o'.hand?.toList = o.packets ++ o.hand?.toList)) ∨
      ∃ e m₁, a? = some .take ∧ m.takeOutbound? = some (e, m₁) ∧ o.isOpen = true ∧
        o'.packets ++ o'.hand?.toList = o.packets ++ o.hand?.toList ++ e.packet?.toList := by
  cases h with
  | took e hand? m₁ _ isOpen hand _ take packet =>
      exact .inr ⟨e, m₁, rfl, take, isOpen, by
        rw [hand, packet, Option.toList_none, List.append_nil]⟩
  | put packet packets isOpen hand _ _ written =>
      have hSame : packets ++ (none : Option Link.Written).toList = o.packets ++ o.hand?.toList := by
        rw [hand, written, Option.toList_none, List.append_nil, Option.toList_some]
      exact .inl ⟨by simp, hSame ▸ List.prefix_refl _, fun _ => ⟨isOpen, hSame⟩⟩
  | refused packet =>
      refine .inl ⟨by simp, ?_, nofun⟩
      rw [Option.toList_none, List.append_nil]
      exact List.prefix_append _ _
  | noticed _ hand =>
      have hSame : o.packets ++ (none : Option Link.Written).toList = o.packets ++ o.hand?.toList := by
        rw [hand]
      exact .inl ⟨by simp, hSame ▸ List.prefix_refl _, nofun⟩
  | closing _ _ _ shut isOpen hand packets _ session =>
      refine .inl ⟨?_, ?_, fun hOpen => ?_⟩
      · obtain ⟨rfl, _⟩ | ⟨rfl, _⟩ := session
        · simp
        · simp
      · rw [hand, packets, Option.toList_none, List.append_nil]
        exact List.prefix_append _ _
      · rw [isOpen] at hOpen
        cases hOpen
namespace Linked

variable {l l' : Linked M S} {x : Action} {past : History M S}

/-! ### What a writer makes of an envelope -/

section OneEnvelope

variable {e : Envelope} {m : Machine M S} {f : Link.Framed}

theorem writer_of_view (hFramed : l.transport = .framed f) (hView : l.view .write = some .take) :
    f.writer = .idle ∧ l.isEnded = false := by
  have hWrites : (Transport.framed f).writes l.toMachine = some .take := hFramed ▸ hView
  obtain ⟨source, sourceEnded, stream, inlet, writer, sink⟩ := f
  cases writer with
  | idle =>
      simp only [Transport.writes] at hWrites
      split at hWrites
      · cases hWrites
      · next hLive => exact ⟨rfl, Bool.eq_false_iff.mpr hLive⟩
  | writing id data =>
      simp only [Transport.writes] at hWrites
      split at hWrites
      · next hEq => cases hEq
      · cases hWrites
      · cases hWrites
      · cases hWrites
      · cases hWrites
  | closing => cases hWrites
  | stopped => cases hWrites

theorem step?_write_of_ok {data : Bytes} (hFramed : l.transport = .framed f)
    (hIdle : f.writer = .idle) (hLive : l.isEnded = false) (hTake : l.takeOutbound? = some (e, m))
    (hEncode : Wire.encode e = .ok data) :
    l.step? .write = some ⟨m, .framed { f with writer := .writing e.id data }⟩ := by
  simp [step?, hFramed, Transport.write?, Link.Framed.write?, hIdle, hLive, hTake, hEncode]

/-- An envelope that has no packet is passed over. -/
theorem step?_write_of_error {cause : Wire.EncodeError} (hFramed : l.transport = .framed f)
    (hIdle : f.writer = .idle) (hLive : l.isEnded = false) (hTake : l.takeOutbound? = some (e, m))
    (hEncode : Wire.encode e = .error cause) :
    l.step? .write = some ⟨(m.log .envelopeNotEncoded).onHost fun h =>
      { h with meter := h.meter.failure }, .framed f⟩ := by
  simp [step?, hFramed, Transport.write?, Link.Framed.write?, hIdle, hLive, hTake, hEncode]

/-- A packet in hand is written when the sink is ready. -/
theorem step?_write_of_ready {id : Int32} {data : Bytes} (hFramed : l.transport = .framed f)
    (hWriting : f.writer = .writing id data) (hReady : f.sink.poll = (.ready, f.sink)) :
    l.step? .write =
      some ⟨l.toMachine, .framed { f with sink := f.sink.put ⟨id, data⟩, writer := .idle }⟩ := by
  simp [step?, hFramed, Transport.write?, Link.Framed.write?, hWriting, hReady]

/-- What becomes of the envelope that the writer takes. -/
theorem writes_taken (hFramed : l.transport = .framed f) (hView : l.view .write = some .take)
    (hTake : l.takeOutbound? = some (e, m)) :
    ∃ l', l.step? .write = some l' ∧ l'.session = m.session ∧ l'.isEnded = false ∧
      (∀ data, Wire.encode e = .ok data → l'.hand = [⟨e.id, data⟩] ∧ l'.meter = l.meter) ∧
      (∀ cause, Wire.encode e = .error cause →
        l'.transport = l.transport ∧ l'.meter = l.meter.failure) := by
  obtain ⟨hIdle, hLive⟩ := writer_of_view hFramed hView
  have hTaken := hTake
  obtain ⟨rest, _, rfl⟩ := Machine.takeOutbound?_eq_some hTaken
  cases hEncode : Wire.encode e with
  | ok data =>
      refine ⟨_, step?_write_of_ok hFramed hIdle hLive hTake hEncode, rfl, hLive,
        fun data' hData => ?_, nofun⟩
      cases hData
      exact ⟨rfl, rfl⟩
  | error cause =>
      exact ⟨_, step?_write_of_error hFramed hIdle hLive hTake hEncode, rfl, hLive, nofun,
        fun _ _ => ⟨hFramed.symm, rfl⟩⟩

end OneEnvelope

/-! ### What was written -/

/-- The envelopes that the writer took and that have a packet, each with its packet. -/
def History.encoded (past : History M S) : List (Envelope × Bytes) :=
  past.session.taken.filterMap fun e => (Wire.encode e).toOption.map fun data => (e, data)

theorem History.encode_of_mem {y : Envelope × Bytes} (h : y ∈ past.encoded) :
    Wire.encode y.1 = .ok y.2 := by
  obtain ⟨e, _, hPacket⟩ := List.mem_filterMap.mp h
  cases hEncode : Wire.encode e with
  | error cause =>
      rw [hEncode] at hPacket
      cases hPacket
  | ok data =>
      rw [hEncode] at hPacket
      cases hPacket
      exact hEncode

theorem History.collected_data : past.collected.map Link.Written.data = past.encoded.map Prod.snd := by
  rw [collected, encoded, List.map_filterMap, List.map_filterMap]
  congr 1
  funext e
  cases hEncode : Wire.encode e with
  | error cause => rw [Envelope.packet?_of_error hEncode]; rfl
  | ok data => rw [Envelope.packet?_of_ok hEncode]; rfl

theorem onOutlet_kept (x : Action) (o : Outlet) :
    (x.onOutlet o).isOpen = o.isOpen ∧ (x.onOutlet o).hand? = o.hand? := by
  cases x with
  | outside event =>
      cases event with
      | _ => exact ⟨rfl, rfl⟩
  | _ => exact ⟨rfl, rfl⟩

/-- The packets that were written, and the one in hand, are the first of those that the writer collected.
They are all of them unless the writer has stopped. -/
theorem Execution.written_collected {host : Host} {registry : Registry M S}
    {callTimeout : Option Duration} {capacity : Nat} {transport : Transport} (fresh : transport.Fresh)
    (run : Execution (new host registry callTimeout capacity transport) past l) :
    ∃ o, l.transport.outlet? = some o ∧ written past l ++ o.hand?.toList <+: past.collected ∧
      (o.isOpen = true → written past l ++ o.hand?.toList = past.collected) := by
  induction run with
  | refl =>
      have hNew := fresh.outlet?
      refine ⟨.new, hNew, ?_, fun _ => ?_⟩
      · rw [written_eq hNew]
        exact List.nil_prefix
      · rw [written_eq hNew]
        rfl
  | @step past l l' x _ last ih =>
      obtain ⟨o, hOutlet, hPrefix, hAll⟩ := ih
      by_cases hWrite : x = .write
      · subst hWrite
        obtain ⟨o', hOutlet', hStep⟩ := step?_write last hOutlet
        have hLooked : History.looked (past ++ [(l, .write)]) = past.looked := by
          rw [History.looked_append, History.looked_other (by simp), List.append_nil]
        refine ⟨o', hOutlet', ?_⟩
        rw [written_eq hOutlet] at hPrefix hAll
        rw [written_eq hOutlet', hLooked]
        rw [List.append_assoc] at hPrefix hAll ⊢
        obtain ⟨hView, hLess, hSame⟩ | ⟨e, m₁, hView, hTake, hOpen, hMore⟩ := hStep.written
        · rw [History.collected_other fun a ha he => hView (he ▸ ha)]
          refine ⟨((List.prefix_append_right_inj _).mpr hLess).trans hPrefix, fun hOpen => ?_⟩
          obtain ⟨hBefore, hEq⟩ := hSame hOpen
          rw [hEq]
          exact hAll hBefore
        · -- Nothing is missing so far, so the new packet is the next one that was collected.
          rw [hMore, History.collected_take hView hTake, ← List.append_assoc, hAll hOpen]
          exact ⟨List.prefix_refl _, fun _ => rfl⟩
      · obtain ⟨hOutlet', hView⟩ := step?_quiet last hWrite
        obtain ⟨hOpen, hHand⟩ := onOutlet_kept x o
        rw [hOutlet, Option.map_some] at hOutlet'
        refine ⟨x.onOutlet o, hOutlet', ?_⟩
        rw [written_quiet last hWrite, hOpen, hHand,
          History.collected_other fun a ha => (hView a ha).1]
        exact ⟨hPrefix, hAll⟩

/-! ### What is handed over at the other end -/

/-- Items that are no errors come first in what is read. -/
theorem oks_prefix {es fs : List Envelope} {rest : List Wire.Item}
    (h : es.map .ok <+: fs.map .ok ++ rest) (hRest : ∀ e later, rest ≠ .ok e :: later) : es <+: fs := by
  induction es generalizing fs with
  | nil => exact List.nil_prefix
  | cons e es ih =>
      cases fs with
      | nil =>
          obtain ⟨later, hLater⟩ := h
          exact absurd hLater.symm (hRest e _)
      | cons f fs =>
          obtain ⟨hFirst, hMore⟩ := List.cons_prefix_cons.mp h
          cases hFirst
          exact List.cons_prefix_cons.mpr ⟨rfl, ih hMore⟩

theorem withoutFailures_oks (es : List Envelope) :
    Wire.withoutFailures (es.map .ok) = es.map .ok :=
  List.filter_eq_self.mpr fun item hItem => by
    obtain ⟨e, _, rfl⟩ := List.mem_map.mp hItem
    rfl

/-- The source has not failed and goes on. -/
def Lasts (past : History M S) (l : Linked M S) : Prop :=
  past.arrived.filterMap Wire.SourceEvent.failure? = [] ∧
    ∀ i, l.transport.intake? = some i → i.sourceEnded = false

/-- Neither the reader nor the session can move on. -/
def Drained (l : Linked M S) : Prop :=
  l.step? .read = none ∧ l.step? .consume = none

/-- The reader goes on. It has no error to report, and it gives the session no reason to stop. -/
structure GoesOn (l : Linked M S) : Prop where
  reading : ∀ i, l.transport.intake? = some i → i.inlet.reader ≠ .stopped
  silent : ∀ l', l.step? .read = some l' → l'.journal = l.journal
  serving : ∀ exhausted, l.view .consume ≠ some (.stop exhausted)

section Reader

variable {host : Host} {registry : Registry M S} {callTimeout : Option Duration}
  {capacity inbound : Nat}
  (run : Execution (new host registry callTimeout capacity (.framed (.new inbound))) past l)
include run

/-- What was handled is the first of what has arrived. -/
theorem Execution.heard_prefix :
    past.session.heard.map .ok <+: Wire.completed (Wire.sourceBytes past.arrived) := by
  obtain ⟨i, hReading⟩ := run.reading
  have hOrder : past.session.heard.map .ok <+: Wire.yields [] past.arrived :=
    ((List.prefix_append _ _).map _).trans hReading.order
  have hFiltered := hOrder.filter fun item => (Wire.sourceFailure? item).isNone
  rw [← Wire.withoutFailures, ← Wire.withoutFailures, withoutFailures_oks,
    Wire.withoutFailures_yields rfl] at hFiltered
  exact hFiltered

/-- When nothing moves on in a live session, all that has arrived was handled. -/
theorem Execution.completed_of_drained (hLive : l.isEnded = false) (hDrained : l.Drained) :
    Wire.completed (Wire.sourceBytes past.arrived) = past.session.heard.map .ok := by
  have hClean : Wire.withoutFailures (Wire.yields [] past.arrived) =
    Wire.completed (Wire.sourceBytes past.arrived) := Wire.withoutFailures_yields rfl _
  rw [run.heard_at_rest hLive hDrained.1 hDrained.2, withoutFailures_oks] at hClean
  exact hClean.symm

/-- A reader goes on if it comes across no error. -/
theorem Execution.goesOn (hLive : l.isEnded = false) (hLasts : Lasts past l) {es : List Envelope}
    (hItems : Wire.completed (Wire.sourceBytes past.arrived) = es.map .ok) : l.GoesOn := by
  obtain ⟨i, hReading⟩ := run.reading
  obtain ⟨f, hFramed, rfl⟩ := Transport.eq_framed hReading.intake
  have hOpen := hLasts.2 f.intake hReading.intake
  have hNoError : ∀ cause (before later : List Wire.Item),
      Wire.yields [] past.arrived ≠ before ++ .error cause :: later := by
    intro cause before later hYields
    rw [Wire.yields_of_quiet hLasts.1, hItems] at hYields
    have hMem : Except.error cause ∈ es.map Except.ok := by
      rw [hYields]
      exact List.mem_append_right _ List.mem_cons_self
    obtain ⟨e, _, he⟩ := List.mem_map.mp hMem
    cases he
  have hReader : f.inlet.reader ≠ .stopped := by
    intro hStopped
    obtain hCut | ⟨hOver, _⟩ | ⟨cause, held, _, hFault⟩ := hReading.stopped hStopped
    · rw [run.isEnded_of_interrupted hCut] at hLive
      cases hLive
    · rw [hOpen] at hOver
      cases hOver
    · have hNow := hFault []
      rw [List.append_nil] at hNow
      exact hNoError cause _ _ hNow
  refine ⟨fun i hIntake => ?_, fun l' hRead => ?_, fun exhausted hView => ?_⟩
  · rw [hReading.intake] at hIntake
    cases hIntake
    exact hReader
  · obtain ⟨⟨m, t⟩, hMoved, rfl⟩ := Option.map_eq_some_iff.mp hRead
    obtain ⟨i', _, hStep⟩ := Transport.read?_intake hMoved hReading.intake
    cases hStep with
    | failed cause stream source _ fetched =>
        obtain ⟨held, holds, hYields⟩ := hReading.going hReader
        obtain ⟨held', _, hUnread⟩ := fetched.unread holds
        have hNow := hYields []
        rw [List.append_nil, hUnread] at hNow
        exact absurd hNow (hNoError cause _ _)
    | finished _ _ _ _ ended =>
        rw [hOpen] at ended
        cases ended
    | _ => rfl
  · have hGoing : f.inlet.isExhausted = false := by
      rw [Link.Inlet.isExhausted, beq_eq_false_iff_ne.mpr hReader, Bool.and_false]
    have hStop : l.toMachine.stopConsuming? (Transport.framed f).isExhausted = none := by
      rw [Transport.isExhausted, hGoing, Machine.stopConsuming?, hLive]
      simp
    rw [view, hFramed, Transport.consumes, hStop] at hView
    cases hNext : (Transport.framed f).next? with
    | none => simp [hNext] at hView
    | some e => simp [hNext] at hView

/-- The bytes of some packets arrive. Those that are complete and that can be read are handled, and the
reader goes on until the header of one that is too long is there. -/
theorem Execution.heard_of_packets {packets : List (Envelope × Bytes)}
    (hPackets : ∀ y ∈ packets, Wire.encode y.1 = .ok y.2)
    (hBytes : Wire.sourceBytes past.arrived <+: (packets.map Prod.snd).flatten) :
    ∃ n, Wire.Completes packets (Wire.sourceBytes past.arrived).length n ∧
      past.session.heard <+: Wire.deliveries packets n ∧
      ((Wire.sourceBytes past.arrived).length < Wire.limit packets → l.isEnded = false →
        (Lasts past l → l.GoesOn) ∧
          (l.Drained → past.session.heard = Wire.deliveries packets n)) ∧
      (Wire.limit packets ≤ (Wire.sourceBytes past.arrived).length → l.Drained →
        l.isEnded = true) := by
  obtain ⟨n, hComplete, hBelow, hBeyond⟩ := Wire.readsAs_of_prefix hPackets hBytes
  have hHeard := run.heard_prefix
  refine ⟨n, hComplete, ?_, fun hLess hLive => ⟨fun hLasts => ?_, fun hDrained => ?_⟩,
    fun hMore hDrained => ?_⟩
  · obtain hLess | hMore := Nat.lt_or_ge (Wire.sourceBytes past.arrived).length (Wire.limit packets)
    · rw [hBelow hLess, ← List.append_nil (List.map _ (Wire.deliveries packets n))] at hHeard
      exact oks_prefix hHeard nofun
    · obtain ⟨length, later, hItems⟩ := hBeyond hMore
      rw [hItems] at hHeard
      exact oks_prefix hHeard nofun
  · exact run.goesOn hLive hLasts (hBelow hLess)
  · have hItems := hBelow hLess
    rw [run.completed_of_drained hLive hDrained] at hItems
    exact List.map_injective_iff.mpr (fun _ _ => Except.ok.inj) hItems
  · -- A live session at rest has handled all items, but one of these is an error.
    by_contra hLive
    obtain ⟨length, later, hItems⟩ := hBeyond hMore
    rw [run.completed_of_drained (Bool.eq_false_iff.mpr hLive) hDrained] at hItems
    have hMem : Except.error (Wire.StreamReadError.bodyTooLarge length) ∈
        past.session.heard.map Except.ok := by
      rw [hItems]
      exact List.mem_append_right _ List.mem_cons_self
    obtain ⟨e, _, he⟩ := List.mem_map.mp hMem
    cases he

end Reader

/-! ### From one end to the other -/

section Ends

variable {N T : Type} {hostA hostB : Host} {registryA : Registry M S} {registryB : Registry N T}
  {timeoutA timeoutB : Option Duration} {capacityA capacityB inboundA inboundB : Nat}
  {pastA : History M S} {a : Linked M S} {pastB : History N T} {b : Linked N T}

/-- An envelope that the writer takes goes into its hand as a packet, or it is counted as a failure and
nothing else changes; the session goes on either way. What arrives of these packets is handled at the other
end, in order and as soon as it is complete. The reader there goes on until the header of a packet arrives
that is too long for a stream, and it ends its session then. No other packet does that. -/
theorem written_read_until_too_long
    (writing : Execution (new hostA registryA timeoutA capacityA (.framed (.new inboundA))) pastA a)
    (reading : Execution (new hostB registryB timeoutB capacityB (.framed (.new inboundB))) pastB b)
    (pipe : Wire.sourceBytes pastB.arrived <+: (written pastA a).flatMap Link.Written.data) :
    (∀ e m, a.view .write = some .take → a.takeOutbound? = some (e, m) →
      ∃ a', a.step? .write = some a' ∧ a'.session = m.session ∧ a'.isEnded = false ∧
        (∀ data, Wire.encode e = .ok data → a'.hand = [⟨e.id, data⟩] ∧ a'.meter = a.meter) ∧
        (∀ cause, Wire.encode e = .error cause →
          a'.transport = a.transport ∧ a'.meter = a.meter.failure)) ∧
    (written pastA a ++ a.hand).map Link.Written.data <+: pastA.encoded.map Prod.snd ∧
    (a.isWriting = true →
      (written pastA a ++ a.hand).map Link.Written.data = pastA.encoded.map Prod.snd) ∧
    ((∀ y ∈ pastA.encoded, Wire.isShort y.1 = true) →
      (Wire.sourceBytes pastB.arrived).length < Wire.limit pastA.encoded) ∧
    ∃ n, Wire.Completes pastA.encoded (Wire.sourceBytes pastB.arrived).length n ∧
      pastB.session.heard <+: Wire.deliveries pastA.encoded n ∧
      ((Wire.sourceBytes pastB.arrived).length < Wire.limit pastA.encoded → b.isEnded = false →
        (Lasts pastB b → b.GoesOn) ∧
          (b.Drained → pastB.session.heard = Wire.deliveries pastA.encoded n)) ∧
      (Wire.limit pastA.encoded ≤ (Wire.sourceBytes pastB.arrived).length →
        b.Drained → b.isEnded = true) := by
  obtain ⟨o, hOutlet, hPrefix, hAll⟩ := writing.written_collected (.framed inboundA)
  rw [← hand_eq hOutlet] at hPrefix hAll
  have hData : (written pastA a ++ a.hand).map Link.Written.data <+: pastA.encoded.map Prod.snd := by
    rw [← History.collected_data]
    exact hPrefix.map _
  have hBytes : Wire.sourceBytes pastB.arrived <+: (pastA.encoded.map Prod.snd).flatten := by
    obtain ⟨rest, hRest⟩ := hData
    rw [← hRest, List.map_append, List.flatten_append, List.flatten_append, List.append_assoc,
      ← List.flatMap_def]
    exact pipe.trans (List.prefix_append _ _)
  refine ⟨fun e m hView hTake => ?_, hData, fun hWriting => ?_,
    fun hShort => Wire.lt_limit hShort hBytes,
    reading.heard_of_packets (fun y => History.encode_of_mem) hBytes⟩
  · obtain ⟨i, hReading⟩ := writing.reading
    obtain ⟨f, hFramed, _⟩ := Transport.eq_framed hReading.intake
    exact writes_taken hFramed hView hTake
  · rw [isWriting_eq hOutlet] at hWriting
    rw [hAll hWriting, History.collected_data]

end Ends

/-- A call arrives in two pieces, and both ends go on. -/
theorem written_read_until_too_long_of_call :
    ∃ (pastA : History Unit Unit) (a : Linked Unit Unit) (pastB : History Unit Unit)
      (b : Linked Unit Unit),
      Execution (new (Host.new false) Registry.empty none 8 (.framed (.new 8))) pastA a ∧
      Execution (new (Host.new false) Registry.empty none 8 (.framed (.new 8))) pastB b ∧
      Wire.sourceBytes pastB.arrived <+: (written pastA a).flatMap Link.Written.data ∧
      (Wire.sourceBytes pastB.arrived).length < Wire.limit pastA.encoded ∧ b.isEnded = false ∧
      Lasts pastB b ∧ b.GoesOn ∧ pastB.arrived.length = 2 ∧ pastB.session.heard =
        [.request { id := 0, method := "A.b", payload := ⟨"", [5]⟩, isStream := false }] := by
  let start : Linked Unit Unit := new (Host.new false) Registry.empty none 8 (.framed (.new 8))
  let packet : Bytes := [1, 0, 0, 0, 8, 0, 0, 0, 0, 0, 3, 65, 46, 98, 0, 0, 5]
  have hPlayA : (start.play [.act (.call "A.b" ⟨"", [5]⟩ none none), .act (.advance 0), .write, .write]).map
      (fun x => (written x.1 x.2, Wire.limit x.1.encoded)) =
        some ([⟨0, packet⟩], 26) := by decide +kernel
  have hPlayB : (start.play [.outside (.source (.chunk (packet.take 4))), .read,
      .outside (.source (.chunk (packet.drop 4))), .read, .read, .consume]).map
      (fun x => (x.1.arrived, x.1.session.heard, x.2.isEnded,
        x.2.transport.intake?.map fun i => i.sourceEnded)) =
        some ([.chunk (packet.take 4), .chunk (packet.drop 4)],
          [.request { id := 0, method := "A.b", payload := ⟨"", [5]⟩, isStream := false }], false,
          some false) := by decide +kernel
  obtain ⟨⟨pastA, a⟩, hRunA, hFactsA⟩ := Option.map_eq_some_iff.mp hPlayA
  obtain ⟨⟨pastB, b⟩, hRunB, hFactsB⟩ := Option.map_eq_some_iff.mp hPlayB
  simp only [Prod.mk.injEq] at hFactsA hFactsB
  obtain ⟨hWritten, hLimit⟩ := hFactsA
  obtain ⟨hArrived, hHeard, hLive, hOpen⟩ := hFactsB
  have runA := Execution.refl.play hRunA
  have runB := Execution.refl.play hRunB
  rw [List.nil_append] at runA runB
  have hPipe : Wire.sourceBytes pastB.arrived <+: (written pastA a).flatMap Link.Written.data := by
    rw [hArrived, hWritten]
    exact ⟨[], rfl⟩
  have hLess : (Wire.sourceBytes pastB.arrived).length < Wire.limit pastA.encoded := by
    rw [hArrived, hLimit]
    decide
  have hLasts : Lasts pastB b := by
    refine ⟨by rw [hArrived]; rfl, fun i hIntake => ?_⟩
    rw [hIntake] at hOpen
    exact Option.some.inj hOpen
  obtain ⟨_, _, _, _, n, _, _, hBelow, _⟩ := written_read_until_too_long runA runB hPipe
  exact ⟨pastA, a, pastB, b, runA, runB, hPipe, hLess, hLive, hLasts, (hBelow hLess hLive).1 hLasts,
    congrArg List.length hArrived, hHeard⟩

/-- A call without a name, and with this value. -/
def callOf (value : Bytes) : Envelope :=
  .request { id := 0, method := "", payload := ⟨"", value⟩, isStream := false }

theorem body_callOf (value : Bytes) : Wire.body (callOf value) = .ok ([0, 0, 0, 0] ++ value) := by
  have hEmpty : ∀ field, Wire.putString field "" = .ok [0, 0] := fun field =>
    Wire.putString_of_le (by decide +kernel)
  rw [callOf, Wire.body, hEmpty, Wire.putPayload, hEmpty]
  rfl

/-- A call that has a packet is written. -/
theorem exists_written {value data : Bytes} (hEncode : Wire.encode (callOf value) = .ok data) :
    ∃ (past : History Unit Unit) (l : Linked Unit Unit),
      Execution (new (Host.new false) Registry.empty none 8 (.framed (.new 8))) past l ∧
      written past l = [⟨0, data⟩] ∧ l.isEnded = false := by
  let start : Linked Unit Unit := new (Host.new false) Registry.empty none 8 (.framed (.new 8))
  have hPlay : (start.play [.act (.call "" ⟨"", value⟩ none none), .act (.advance 0)]).map
      (fun x => (x.2.transport, x.2.isEnded, x.2.takeOutbound?.map Prod.fst, x.1.looked)) =
        some (.framed (.new 8), false, some (callOf value), []) := by with_unfolding_all rfl
  obtain ⟨⟨past, l⟩, hRun, hFacts⟩ := Option.map_eq_some_iff.mp hPlay
  simp only [Prod.mk.injEq] at hFacts
  obtain ⟨hFramed, hLive, hNext, hLooked⟩ := hFacts
  obtain ⟨⟨e, m⟩, hTake, rfl⟩ := Option.map_eq_some_iff.mp hNext
  have hFirst := step?_write_of_ok hFramed rfl hLive hTake hEncode
  obtain ⟨rest, _, rfl⟩ := Machine.takeOutbound?_eq_some hTake
  have run := (Execution.refl.play hRun).step hFirst
  refine ⟨_, _, run.step (step?_write_of_ready rfl rfl rfl), ?_, hLive⟩
  rw [written_eq rfl, History.looked_append, History.looked_append, List.nil_append, hLooked]
  rfl

/-- A call with a body that is one byte too long for a stream. -/
def longCall : Envelope :=
  callOf (List.replicate (Wire.maxStreamBody - 3) 0)

/-- The call is sent and written, and the session that wrote it goes on. The first nine bytes of its packet
make the reader at the other end report an error, and they end the session there. -/
theorem ended_by_long_packet : ∃ (data : Bytes) (pastA : History Unit Unit) (a : Linked Unit Unit)
    (pastB : History Unit Unit) (b : Linked Unit Unit), Wire.encode longCall = .ok data ∧
      Execution (new (Host.new false) Registry.empty none 8 (.framed (.new 8))) pastA a ∧
      written pastA a = [⟨0, data⟩] ∧ a.isEnded = false ∧
      Execution (new (Host.new false) Registry.empty none 8 (.framed (.new 8))) pastB b ∧
      pastB.map Prod.snd = [.outside (.source (.chunk (data.take 9))), .read, .consume] ∧
      b.journal = [.envelopeNotRead] ∧ b.isEnded = true := by
  obtain ⟨data, hEncode, hFront⟩ : ∃ data, Wire.encode longCall = .ok data ∧
      data.take 9 = [1, 4, 0, 0, 1, 0, 0, 0, 0] := by
    have hLength : ([0, 0, 0, 0] ++ List.replicate (Wire.maxStreamBody - 3) (0 : UInt8)).length =
        Wire.maxStreamBody + 1 := by
      rw [List.length_append, List.length_replicate]
      rfl
    refine ⟨_, Wire.encode_of_body (body_callOf _) (by rw [hLength]; decide), ?_⟩
    rw [hLength]
    exact (List.take_left' (Wire.Header.length_build _)).trans (by decide +kernel)
  obtain ⟨pastA, a, runA, hWritten, hLiveA⟩ := exists_written hEncode
  let start : Linked Unit Unit := new (Host.new false) Registry.empty none 8 (.framed (.new 8))
  have hPlay : (start.play [.outside (.source (.chunk [1, 4, 0, 0, 1, 0, 0, 0, 0])), .read, .consume]).map
      (fun x => (x.2.journal, x.2.isEnded)) = some ([.envelopeNotRead], true) := by decide +kernel
  obtain ⟨⟨pastB, b⟩, hRunB, hFacts⟩ := Option.map_eq_some_iff.mp hPlay
  obtain ⟨hJournal, hEnded⟩ := Prod.mk.inj hFacts
  have runB := Execution.refl.play hRunB
  rw [List.nil_append] at runB
  refine ⟨data, pastA, a, pastB, b, hEncode, runA, hWritten, hLiveA, runB, ?_, hJournal, hEnded⟩
  rw [play_actions hRunB, hFront]

end Linked

end PeerLink

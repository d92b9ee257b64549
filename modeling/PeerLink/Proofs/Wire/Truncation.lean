import PeerLink.Proofs.Wire.Chunking
import PeerLink.Proofs.Wire.RoundTrip

/-! Packets that stand one behind another and break off somewhere. A stream reads every packet that lies
before the cut, and it tells a cut between two packets from one inside a packet, be that in a header or in
a body. So what was cut off is not taken for the whole, and nothing complete is lost with it. -/
namespace PeerLink.Wire

/-- The packet of an envelope, with a body that a stream accepts. -/
structure Streamable (e : Envelope) (packet : Bytes) : Prop where
  encoded : encode e = .ok packet
  small : ∀ bytes, body e = .ok bytes → bytes.length ≤ maxStreamBody

/-- Where the first `n` packets end. -/
def boundary (packets : List Bytes) (n : Nat) : Nat :=
  (packets.take n).flatten.length

/-- Behind so many bytes there ends a packet, or nothing has begun. -/
def IsBoundary (packets : List Bytes) (k : Nat) : Prop :=
  ∃ n ≤ packets.length, boundary packets n = k

instance (packets : List Bytes) (k : Nat) : Decidable (IsBoundary packets k) :=
  inferInstanceAs (Decidable (∃ n, n ≤ packets.length ∧ _))

@[simp] theorem boundary_zero (packets : List Bytes) : boundary packets 0 = 0 := rfl

@[simp] theorem boundary_cons_succ (packet : Bytes) (packets : List Bytes) (n : Nat) :
    boundary (packet :: packets) (n + 1) = packet.length + boundary packets n := by
  simp [boundary]

theorem boundary_mono (packets : List Bytes) {i n : Nat} (h : i ≤ n) :
    boundary packets i ≤ boundary packets n := by
  obtain ⟨rest, hRest⟩ := List.take_prefix_take_left (l := packets) h
  rw [boundary, boundary, ← hRest, List.flatten_append, List.length_append]
  exact Nat.le_add_right _ _

section OnePacket

variable {e : Envelope} {packet : Bytes}

/-- Such a packet is a header that can be read and the body that it announces. -/
theorem Streamable.parts (h : Streamable e packet) : ∃ header bytes, packet = header.build ++ bytes ∧
    header.bodyLength.toNat = bytes.length ∧ ¬ header.bodyLength.toNat > maxStreamBody ∧
      parse header bytes = .ok (delivered e) := by
  have hEncoded := h.encoded
  cases hBody : body e with
  | error fault =>
      rw [encode_of_error hBody] at hEncoded
      cases hEncoded
  | ok bytes =>
      have hSmall := h.small bytes hBody
      have hFits : bytes.length ≤ maxBody := Nat.le_trans hSmall (by decide)
      have hWord : bytes.length.toUInt32.toNat = bytes.length :=
        UInt32.toNat_ofNat_of_lt' (Nat.lt_succ_of_le hFits)
      rw [encode_of_body hBody hFits] at hEncoded
      refine ⟨headerOf e bytes.length, bytes, (Except.ok.inj hEncoded).symm, hWord, ?_,
        parse_body hBody bytes.length⟩
      exact Nat.not_lt.mpr (Nat.le_trans (Nat.le_of_eq hWord) hSmall)

/-- The packet is read as its envelope, whatever stands behind it. -/
theorem Streamable.firstItem? (h : Streamable e packet) (more : Bytes) :
    firstItem? (packet ++ more) = some (.ok (delivered e), more) := by
  obtain ⟨header, bytes, rfl, hLength, hSmall, hParse⟩ := h.parts
  rw [List.append_assoc, PacketReader.firstItem?_ok (Header.length_build header)
    (Header.parse_build header), if_neg hSmall, hLength, if_neg (by simp), List.take_left,
    List.drop_left, PacketReader.item, hParse]
  rfl

/-- A part of the packet is read as nothing yet. -/
theorem Streamable.firstItem?_take (h : Streamable e packet) {k : Nat} (hk : k < packet.length) :
    Wire.firstItem? (packet.take k) = none := by
  obtain ⟨header, bytes, rfl, hLength, hSmall, -⟩ := h.parts
  have hSize := Header.length_build header
  rw [List.length_append, hSize] at hk
  by_cases hShort : k < Header.size
  · rw [Wire.firstItem?, if_pos]
    rw [List.length_take]
    omega
  · have hLong := Nat.le_of_not_lt hShort
    rw [List.take_append, List.take_of_length_le (by omega),
      PacketReader.firstItem?_ok hSize (Header.parse_build header), if_neg hSmall, if_pos]
    rw [List.length_take, hLength, hSize]
    omega

theorem Streamable.length_pos (h : Streamable e packet) : 0 < packet.length := by
  obtain ⟨header, bytes, rfl, -⟩ := h.parts
  rw [List.length_append, Header.length_build]
  exact Nat.lt_of_lt_of_le (by decide) (Nat.le_add_right Header.size bytes.length)

end OnePacket

/-- The items of the first `k` bytes of some packets: `n` packets are complete by then, and what is behind
them is nothing, or a part of the next one. -/
theorem decodeAll_take {es : List Envelope} {packets : List Bytes}
    (hPackets : List.Forall₂ Streamable es packets) {k : Nat} (hCut : k ≤ packets.flatten.length) :
    ∃ n ≤ packets.length, (∀ i ≤ packets.length, boundary packets i ≤ k ↔ i ≤ n) ∧
      decodeAll (packets.flatten.take k) = (es.take n).map (fun e => .ok (delivered e)) ++
        if boundary packets n = k then [] else [.error .unexpectedEnd] := by
  induction hPackets generalizing k with
  | nil =>
      obtain rfl : k = 0 := Nat.le_zero.mp hCut
      refine ⟨0, Nat.le_refl 0, fun i hi => ?_, decodeAll_of_none rfl⟩
      rw [Nat.le_zero.mp hi]
      exact Iff.rfl
  | @cons e packet es packets hPacket _ ih =>
      rw [List.flatten_cons, List.length_append] at hCut
      by_cases hInside : k < packet.length
      · -- The cut is inside the first packet.
        refine ⟨0, Nat.zero_le _, fun i _ => ?_, ?_⟩
        · cases i with
          | zero => simp
          | succ i =>
              rw [boundary_cons_succ]
              omega
        · rw [List.flatten_cons, List.take_append_of_le_length (Nat.le_of_lt hInside),
            decodeAll_of_none (hPacket.firstItem?_take hInside), List.take_zero, List.map_nil,
            List.nil_append, boundary_zero]
          have hPositive := hPacket.length_pos
          refine if_congr ?_ rfl rfl
          rw [List.isEmpty_iff, List.take_eq_nil_iff, ← List.length_eq_zero_iff]
          omega
      · have hBehind := Nat.le_of_not_lt hInside
        obtain ⟨n, hn, hComplete, hItems⟩ := ih (k := k - packet.length) (by omega)
        refine ⟨n + 1, Nat.succ_le_succ hn, fun i hi => ?_, ?_⟩
        · cases i with
          | zero => simp
          | succ i =>
              have hRest := hComplete i (Nat.le_of_succ_le_succ hi)
              rw [boundary_cons_succ]
              omega
        · rw [List.flatten_cons, List.take_append, List.take_of_length_le hBehind,
            decodeAll_of_some (hPacket.firstItem? _), hItems, List.take_succ_cons, List.map_cons,
            List.cons_append, boundary_cons_succ]
          congr 2
          refine if_congr ?_ rfl rfl
          omega

/-- A transmission that breaks off. The stream yields exactly the envelopes whose packets lie completely
before the cut, in order, with empty fields of errors filled in. Then it ends, if the cut is where a packet
ends, and otherwise it says that the end was not expected. How the bytes are cut into chunks does not
matter. -/
theorem items_of_cut_transmission {es : List Envelope} {packets : List Bytes}
    (hPackets : List.Forall₂ Streamable es packets) {k : Nat} (hCut : k ≤ packets.flatten.length)
    {events : List SourceEvent} (hQuiet : events.filterMap SourceEvent.failure? = [])
    (hBytes : sourceBytes events = packets.flatten.take k) :
    ∃ n ≤ packets.length, (∀ i ≤ packets.length, boundary packets i ≤ k ↔ i ≤ n) ∧
      (IsBoundary packets k →
        PacketStream.new.items events = (es.take n).map fun e => .ok (delivered e)) ∧
      (¬ IsBoundary packets k → PacketStream.new.items events =
        (es.take n).map (fun e => .ok (delivered e)) ++ [.error .unexpectedEnd]) := by
  obtain ⟨n, hn, hComplete, hItems⟩ := decodeAll_take hPackets hCut
  rw [PacketStream.items_of_quiet hQuiet, hBytes, hItems]
  have hLast : boundary packets n = k ↔ IsBoundary packets k := by
    refine ⟨fun h => ⟨n, hn, h⟩, ?_⟩
    rintro ⟨i, hi, rfl⟩
    -- The last boundary before the cut is not behind it, and not before any other.
    have hEnds := (hComplete i hi).mp (Nat.le_refl _)
    refine Nat.le_antisymm ((hComplete n hn).mpr (Nat.le_refl n)) ?_
    exact boundary_mono packets hEnds
  refine ⟨n, hn, hComplete, fun h => ?_, fun h => ?_⟩
  · rw [if_pos (hLast.mpr h), List.append_nil]
  · rw [if_neg (fun he => h (hLast.mp he))]

/-- The second packet breaks off right behind its header, before any of the ten bytes of its body. -/
theorem items_of_cut_request :
    let message : Request := { id := 1, method := "A.b", payload := .ofValue [1, 2, 3], isStream := true }
    let packets : List Bytes := [[0x06, 0, 0, 0, 0, 0, 0, 0, 9],
      [0x81, 0, 0, 0, 10, 0, 0, 0, 1, 0, 3, 0x41, 0x2E, 0x62, 0, 0, 1, 2, 3]]
    List.Forall₂ Streamable [.streamClose 9, .request message] packets ∧
      PacketStream.new.items
          [.chunk [0x06, 0, 0], .chunk [0, 0, 0, 0, 0, 9, 0x81, 0, 0], .chunk [0, 10, 0, 0, 0, 1]] =
        [.ok (.streamClose 9), .error .unexpectedEnd] := by
  intro message packets
  have hPackets : List.Forall₂ Streamable [.streamClose 9, .request message] packets := by
    refine .cons ⟨by decide, fun bytes h => ?_⟩ (.cons ⟨by decide +kernel, fun bytes h => ?_⟩ .nil)
    · cases h
      decide
    · have hBody : body (.request message) = .ok [0, 3, 0x41, 0x2E, 0x62, 0, 0, 1, 2, 3] := by
        decide +kernel
      rw [hBody] at h
      cases h
      decide
  refine ⟨hPackets, ?_⟩
  have hCut : 18 ≤ packets.flatten.length := by decide
  have hBytes : sourceBytes [.chunk [0x06, 0, 0], .chunk [0, 0, 0, 0, 0, 9, 0x81, 0, 0],
      .chunk [0, 10, 0, 0, 0, 1]] = packets.flatten.take 18 := rfl
  obtain ⟨n, -, hComplete, -, hInside⟩ := items_of_cut_transmission hPackets hCut rfl hBytes
  have hFirst := (hComplete 1 (by decide)).mp (by decide)
  have hSecond := mt (hComplete 2 (by decide)).mpr (by decide)
  obtain rfl : n = 1 := by omega
  exact hInside (by decide)

end PeerLink.Wire

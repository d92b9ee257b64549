import Mathlib.Data.List.TakeWhile
import PeerLink.Proofs.Wire.Truncation

/-! The two limits on the length of a body. A packet is written for every body whose length fits into the
four bytes that the header has for it, but a stream reads no body that is longer than `maxStreamBody`. So
of some packets in a row a stream reads those before the first that is too long, and for that one it yields
an error as soon as its header is there. -/
namespace PeerLink.Wire

/-- A stream accepts the body of the envelope. -/
def isShort (e : Envelope) : Bool :=
  match body e with
  | .ok bytes => decide (bytes.length ≤ maxStreamBody)
  | .error _ => true

section OnePacket

variable {e : Envelope} {packet : Bytes}

theorem body_of_encode (h : encode e = .ok packet) : ∃ bytes, body e = .ok bytes ∧
    bytes.length ≤ maxBody ∧ packet = (headerOf e bytes.length).build ++ bytes := by
  cases hBody : body e with
  | error fault =>
      rw [encode_of_error hBody] at h
      cases h
  | ok bytes =>
      by_cases hFits : bytes.length ≤ maxBody
      · rw [encode_of_body hBody hFits] at h
        exact ⟨bytes, rfl, hFits, (Except.ok.inj h).symm⟩
      · have hTooLong : encode e = .error (.bodyTooLong bytes.length) := by
          rw [encode, hBody]
          exact if_neg hFits
        rw [hTooLong] at h
        cases h

theorem streamable_of_isShort (h : encode e = .ok packet) (hShort : isShort e = true) :
    Streamable e packet := by
  refine ⟨h, fun bytes hBody => ?_⟩
  rw [isShort, hBody] at hShort
  exact of_decide_eq_true hShort

/-- The header of a packet that is too long is enough for an error. -/
theorem firstItem?_of_not_isShort (h : encode e = .ok packet) (hLong : isShort e = false)
    {data more : Bytes} (hData : data <+: packet ++ more) (hHeader : Header.size ≤ data.length) :
    ∃ length rest, firstItem? data = some (.error (.bodyTooLarge length), rest) := by
  obtain ⟨bytes, hBody, hFits, rfl⟩ := body_of_encode h
  rw [isShort, hBody] at hLong
  have hWord : (headerOf e bytes.length).bodyLength.toNat = bytes.length :=
    UInt32.toNat_ofNat_of_lt' (Nat.lt_succ_of_le hFits)
  have hSize := Header.length_build (headerOf e bytes.length)
  have hFront := List.prefix_iff_eq_take.mp hData
  rw [List.append_assoc, List.take_append, List.take_of_length_le (hSize ▸ hHeader)] at hFront
  rw [hFront, PacketReader.firstItem?_ok hSize (Header.parse_build _), if_pos]
  · exact ⟨_, _, rfl⟩
  · rw [hWord]
    exact Nat.lt_of_not_le (of_decide_eq_false hLong)

end OnePacket

/-- The envelopes, each with its packet, before the first whose body no stream accepts. -/
def readable (packets : List (Envelope × Bytes)) : List (Envelope × Bytes) :=
  packets.takeWhile fun x => isShort x.1

/-- What the first `n` of these packets are read as. -/
def deliveries (packets : List (Envelope × Bytes)) (n : Nat) : List Envelope :=
  ((readable packets).take n).map fun x => delivered x.1

/-- Where the header ends behind the last of the packets that can be read. -/
def limit (packets : List (Envelope × Bytes)) : Nat :=
  boundary (packets.map Prod.snd) (readable packets).length + Header.size

/-- If all of the packets can be read, their bytes stay below the limit. -/
theorem lt_limit {packets : List (Envelope × Bytes)} (hShort : ∀ x ∈ packets, isShort x.1 = true)
    {data : Bytes} (hData : data <+: (packets.map Prod.snd).flatten) : data.length < limit packets := by
  have hReadable : readable packets = packets := List.takeWhile_eq_self_iff.mpr hShort
  have hAll : boundary (packets.map Prod.snd) packets.length = (packets.map Prod.snd).flatten.length := by
    rw [boundary, List.take_of_length_le (List.length_map _).le]
  have hLength := hData.length_le
  rw [limit, hReadable, hAll, Header.size]
  omega

/-- So many bytes complete exactly `n` of the packets that can be read. -/
def Completes (packets : List (Envelope × Bytes)) (count n : Nat) : Prop :=
  n ≤ (readable packets).length ∧ ∀ i ≤ (readable packets).length,
    boundary (packets.map Prod.snd) i ≤ count ↔ i ≤ n

theorem completed_of_none {data : Bytes} (h : firstItem? data = none) : completed data = [] := by
  rw [completed, splitItems_of_none h]

theorem completed_of_some {data rest : Bytes} {item : Item} (h : firstItem? data = some (item, rest)) :
    completed data = item :: completed rest := by
  rw [completed, splitItems_of_some h, completed]

/-- The items of these bytes, which complete `n` of the packets. -/
structure ReadsAs (packets : List (Envelope × Bytes)) (data : Bytes) (n : Nat) : Prop where
  completes : Completes packets data.length n
  below : data.length < limit packets → completed data = (deliveries packets n).map .ok
  beyond : limit packets ≤ data.length → ∃ length later, completed data =
    (deliveries packets n).map .ok ++ .error (.bodyTooLarge length) :: later

theorem readsAs_nil : ReadsAs [] [] 0 where
  completes := ⟨Nat.le_refl 0, fun i hi => by simp [Nat.le_zero.mp hi]⟩
  below _ := completed_of_none rfl
  beyond h := absurd h (by decide)

section FirstPacket

variable {x : Envelope × Bytes} {packets : List (Envelope × Bytes)} {data rest : Bytes} {n : Nat}

theorem readable_cons_long (hLong : isShort x.1 = false) : readable (x :: packets) = [] :=
  List.takeWhile_cons_of_neg (by simp [hLong])

theorem readable_cons_short (hShort : isShort x.1 = true) :
    readable (x :: packets) = x :: readable packets :=
  List.takeWhile_cons_of_pos hShort

theorem limit_cons_long (hLong : isShort x.1 = false) : limit (x :: packets) = Header.size := by
  rw [limit, readable_cons_long hLong]
  exact Nat.zero_add _

theorem limit_cons_short (hShort : isShort x.1 = true) :
    limit (x :: packets) = x.2.length + limit packets := by
  rw [limit, readable_cons_short hShort, List.length_cons, List.map_cons, boundary_cons_succ, limit]
  omega

theorem deliveries_cons_short (hShort : isShort x.1 = true) :
    deliveries (x :: packets) (n + 1) = delivered x.1 :: deliveries packets n := by
  rw [deliveries, readable_cons_short hShort, List.take_succ_cons, List.map_cons, deliveries]

theorem readsAs_long (hFirst : encode x.1 = .ok x.2) (hLong : isShort x.1 = false)
    (hData : data <+: x.2 ++ rest) : ReadsAs (x :: packets) data 0 where
  completes := by
    refine ⟨Nat.zero_le _, fun i hi => ?_⟩
    rw [readable_cons_long hLong] at hi
    simp [Nat.le_zero.mp hi]
  below hLess := by
    rw [limit_cons_long hLong] at hLess
    exact completed_of_none (by rw [firstItem?, if_pos hLess])
  beyond hMore := by
    rw [limit_cons_long hLong] at hMore
    obtain ⟨length, rest, hError⟩ := firstItem?_of_not_isShort hFirst hLong hData hMore
    rw [completed_of_some hError]
    exact ⟨length, completed rest, rfl⟩

/-- Bytes that end inside of the first packet. -/
theorem readsAs_inside (hFirst : encode x.1 = .ok x.2) (hShort : isShort x.1 = true)
    (hData : data <+: x.2 ++ rest) (hInside : data.length < x.2.length) :
    ReadsAs (x :: packets) data 0 where
  completes := by
    refine ⟨Nat.zero_le _, fun i _ => ?_⟩
    cases i with
    | zero => simp
    | succ i =>
        rw [List.map_cons, boundary_cons_succ]
        omega
  below _ := by
    have hTake := List.prefix_iff_eq_take.mp hData
    rw [List.take_append_of_le_length (Nat.le_of_lt hInside)] at hTake
    rw [hTake]
    exact completed_of_none ((streamable_of_isShort hFirst hShort).firstItem?_take hInside)
  beyond hMore := by
    rw [limit_cons_short hShort] at hMore
    omega

/-- One more packet in front. -/
theorem ReadsAs.cons (hReads : ReadsAs packets rest n) (hFirst : encode x.1 = .ok x.2)
    (hShort : isShort x.1 = true) : ReadsAs (x :: packets) (x.2 ++ rest) (n + 1) := by
  have hNext : completed (x.2 ++ rest) = .ok (delivered x.1) :: completed rest :=
    completed_of_some ((streamable_of_isShort hFirst hShort).firstItem? rest)
  have hLimit : limit (x :: packets) = x.2.length + limit packets := limit_cons_short hShort
  have hLength : (x.2 ++ rest).length = x.2.length + rest.length := List.length_append
  obtain ⟨⟨hn, hComplete⟩, hBelow, hBeyond⟩ := hReads
  refine ⟨⟨?_, fun i hi => ?_⟩, fun hLess => ?_, fun hMore => ?_⟩
  · rw [readable_cons_short hShort]
    exact Nat.succ_le_succ hn
  · rw [readable_cons_short hShort] at hi
    cases i with
    | zero => simp
    | succ i =>
        have hSame := hComplete i (Nat.le_of_succ_le_succ hi)
        rw [List.map_cons, boundary_cons_succ]
        omega
  · rw [hNext, hBelow (by omega), deliveries_cons_short hShort, List.map_cons]
  · obtain ⟨length, later, hItems⟩ := hBeyond (by omega)
    refine ⟨length, later, ?_⟩
    rw [hNext, hItems, deliveries_cons_short hShort, List.map_cons, List.cons_append]

end FirstPacket

/-- The items of the first bytes of some packets. -/
theorem readsAs_of_prefix {packets : List (Envelope × Bytes)}
    (hPackets : ∀ x ∈ packets, encode x.1 = .ok x.2) {data : Bytes}
    (hData : data <+: (packets.map Prod.snd).flatten) : ∃ n, ReadsAs packets data n := by
  induction packets generalizing data with
  | nil =>
      have hEmpty : data = [] := List.prefix_nil.mp hData
      subst hEmpty
      exact ⟨0, readsAs_nil⟩
  | cons x packets ih =>
      have hFirst := hPackets x List.mem_cons_self
      rw [List.map_cons, List.flatten_cons] at hData
      cases hShort : isShort x.1 with
      | false => exact ⟨0, readsAs_long hFirst hShort hData⟩
      | true =>
          by_cases hInside : data.length < x.2.length
          · exact ⟨0, readsAs_inside hFirst hShort hData hInside⟩
          · have hTake := List.prefix_iff_eq_take.mp hData
            rw [List.take_append, List.take_of_length_le (Nat.le_of_not_lt hInside)] at hTake
            obtain ⟨n, hReads⟩ := ih (fun y hy => hPackets y (List.mem_cons_of_mem _ hy))
              (List.take_prefix (data.length - x.2.length) _)
            rw [hTake]
            exact ⟨n + 1, hReads.cons hFirst hShort⟩

/-! ### Packets that are read as what they were written for -/

/-- A stream reads the packet as the envelope. -/
structure Carries (e : Envelope) (packet : Bytes) : Prop extends Streamable e packet where
  delivered : delivered e = e

theorem Carries.decode {e : Envelope} {packet : Bytes} (h : Carries e packet) :
    decode packet = .ok e := by
  obtain ⟨bytes, hBody, hFits, rfl⟩ := body_of_encode h.encoded
  rw [decode_build hBody hFits, h.delivered]

/-- The envelopes whose packets end within the first `count` bytes. -/
def whole : List (Envelope × Bytes) → Nat → List Envelope
  | [], _ => []
  | x :: packets, count =>
    if x.2.length ≤ count then x.1 :: whole packets (count - x.2.length) else []

theorem whole_prefix (packets : List (Envelope × Bytes)) {count more : Nat} (h : count ≤ more) :
    whole packets count <+: whole packets more := by
  induction packets generalizing count more with
  | nil => exact List.nil_prefix
  | cons x packets ih =>
      rw [whole, whole]
      split
      · next hFits =>
          rw [if_pos (Nat.le_trans hFits h)]
          exact List.cons_prefix_cons.mpr ⟨rfl, ih (Nat.sub_le_sub_right h _)⟩
      · exact List.nil_prefix

theorem whole_first (packets : List (Envelope × Bytes)) (count : Nat) :
    whole packets count <+: packets.map Prod.fst := by
  induction packets generalizing count with
  | nil => exact List.nil_prefix
  | cons x packets ih =>
      rw [whole]
      split
      · exact (List.prefix_cons_inj x.1).mpr (ih _)
      · exact List.nil_prefix

theorem whole_zero {packets : List (Envelope × Bytes)} (hPackets : ∀ x ∈ packets, Carries x.1 x.2) :
    whole packets 0 = [] := by
  cases packets with
  | nil => rfl
  | cons x packets =>
      rw [whole, if_neg (Nat.not_le.mpr (hPackets x List.mem_cons_self).toStreamable.length_pos)]

theorem whole_flatten (packets : List (Envelope × Bytes)) :
    whole packets (packets.map Prod.snd).flatten.length = packets.map Prod.fst := by
  induction packets with
  | nil => rfl
  | cons x packets ih =>
      rw [List.map_cons, List.flatten_cons, List.length_append, whole, if_pos (Nat.le_add_right _ _),
        Nat.add_sub_cancel_left, ih, List.map_cons]

theorem completed_of_packets {packets : List (Envelope × Bytes)}
    (hPackets : ∀ x ∈ packets, Carries x.1 x.2) {data : Bytes}
    (hData : data <+: (packets.map Prod.snd).flatten) :
    completed data = (whole packets data.length).map .ok := by
  induction packets generalizing data with
  | nil =>
      rw [List.prefix_nil.mp hData]
      exact completed_of_none rfl
  | cons x packets ih =>
      have hFirst := hPackets x List.mem_cons_self
      rw [List.map_cons, List.flatten_cons] at hData
      by_cases hInside : data.length < x.2.length
      · have hTake := List.prefix_iff_eq_take.mp hData
        rw [List.take_append_of_le_length (Nat.le_of_lt hInside)] at hTake
        rw [whole, if_neg (Nat.not_le.mpr hInside), hTake]
        exact completed_of_none (hFirst.firstItem?_take hInside)
      · have hTake := List.prefix_iff_eq_take.mp hData
        rw [List.take_append, List.take_of_length_le (Nat.le_of_not_lt hInside)] at hTake
        have hRest := ih (fun y hy => hPackets y (List.mem_cons_of_mem _ hy))
          (List.take_prefix (data.length - x.2.length) _)
        rw [hTake, completed_of_some (hFirst.firstItem? _), hRest, hFirst.delivered, List.length_append,
          whole, if_pos (Nat.le_add_right _ _), Nat.add_sub_cancel_left, List.map_cons]

end PeerLink.Wire

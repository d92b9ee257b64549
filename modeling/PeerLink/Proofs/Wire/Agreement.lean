import PeerLink.Proofs.Wire.Chunking

/-! One format, two readers. `decode` wants a byte string that is exactly one packet; a stream of packets
takes the bytes as they come. Given the same bytes they find the same envelope or the same fault. They
look at header, length and body in different orders, which shows in two places only: a stream reads on
behind a fault of the header, and it cannot know that more bytes than the header announces are too many. -/
namespace PeerLink.Wire

variable {data : Bytes}

/-- What `decode` makes of a byte string, against what a stream yields that gets just these bytes. The
body is what stands behind the header. -/
inductive Agree (data : Bytes) : Except DecodeError Envelope → List Item → Prop where
  | nothing (empty : data = []) : Agree data (.error .missingHeader) []
  | short (nonempty : data ≠ []) : Agree data (.error .missingHeader) [.error .unexpectedEnd]
  | badHeader (cause : HeaderError) (later : List Item) :
      Agree data (.error (.header cause)) (.error (.invalidHeader cause) :: later)
  | cutOff (expected : UInt32) (actual : Nat) (less : actual < expected.toNat) :
      Agree data (.error (.bodyLength expected actual)) [.error .unexpectedEnd]
  /-- The stream takes what the header announces for a packet, and reads on. -/
  | tooLong (h : Header) (actual : Nat) (more : h.bodyLength.toNat < actual)
      (parsed : Header.parse (data.take Header.size) = .ok h) (next : Item) (later : List Item) :
      Agree data (.error (.bodyLength h.bodyLength actual))
        ((parse h ((data.drop Header.size).take h.bodyLength.toNat)).mapError .packet :: next :: later)
  | envelope (e : Envelope) : Agree data (.ok e) [.ok e]
  | badBody (cause : PacketError) :
      Agree data (.error (.packet cause)) [.error (.packet cause)]

/-- Bytes are never read as nothing at all. -/
theorem decodeAll_eq_cons (h : data ≠ []) : ∃ item items, decodeAll data = item :: items := by
  cases hFirst : firstItem? data with
  | some found => exact ⟨_, _, decodeAll_of_some hFirst⟩
  | none =>
      rw [decodeAll_of_none hFirst, if_neg (by rwa [List.isEmpty_iff])]
      exact ⟨_, _, rfl⟩

/-- A byte string whose header can be read, and announces no more than a stream accepts. -/
theorem agree_of_header {h : Header} (hLong : Header.size ≤ data.length)
    (hParse : Header.parse (data.take Header.size) = .ok h)
    (hSmall : h.bodyLength.toNat ≤ maxStreamBody) : Agree data (decode data) (decodeAll data) := by
  have hFirst := PacketReader.firstItem?_ok (List.length_take_of_le hLong) hParse (data.drop Header.size)
  rw [List.take_append_drop, if_neg (Nat.not_lt.mpr hSmall)] at hFirst
  have hDecode : decode data =
      if h.bodyLength.toNat ≠ (data.drop Header.size).length then
        .error (.bodyLength h.bodyLength (data.drop Header.size).length)
      else (parse h (data.drop Header.size)).mapError .packet := by
    rw [decode, if_neg (Nat.not_lt.mpr hLong), hParse]
  rw [hDecode]
  rcases Nat.lt_trichotomy (data.drop Header.size).length h.bodyLength.toNat with hLess | hSame | hMore
  · have hSome : data.isEmpty = false := by
      cases data with
      | nil => cases hLong
      | cons b rest => rfl
    rw [if_pos hLess] at hFirst
    rw [if_pos (Nat.ne_of_gt hLess), decodeAll_of_none hFirst, hSome]
    exact .cutOff h.bodyLength _ hLess
  · rw [if_neg (Nat.not_lt.mpr (Nat.le_of_eq hSame.symm)), List.take_of_length_le (Nat.le_of_eq hSame),
      List.drop_of_length_le (Nat.le_of_eq hSame)] at hFirst
    have hBehind : decodeAll [] = [] := decodeAll_of_none rfl
    rw [if_neg (not_not_intro hSame.symm), decodeAll_of_some hFirst, hBehind, PacketReader.item]
    cases parse h (data.drop Header.size) with
    | ok e => exact .envelope e
    | error cause => exact .badBody cause
  · have hBehind : (data.drop Header.size).drop h.bodyLength.toNat ≠ [] := fun hNil => by
      have hNone := congrArg List.length hNil
      rw [List.length_drop, List.length_nil] at hNone
      omega
    obtain ⟨next, later, hLater⟩ := decodeAll_eq_cons hBehind
    rw [if_neg (Nat.not_lt.mpr (Nat.le_of_lt hMore))] at hFirst
    rw [if_pos (Nat.ne_of_lt hMore), decodeAll_of_some hFirst, hLater]
    exact .tooLong h _ hMore hParse next later

/-- What one reader makes of a byte string tells what the other makes of it. -/
theorem agree (hSmall : Header.size ≤ data.length →
      ∀ h, Header.parse (data.take Header.size) = .ok h → h.bodyLength.toNat ≤ maxStreamBody) :
    Agree data (decode data) (decodeAll data) := by
  by_cases hShort : data.length < Header.size
  · have hFirst : firstItem? data = none := by rw [firstItem?, if_pos hShort]
    rw [decode, if_pos hShort, decodeAll_of_none hFirst]
    cases data with
    | nil => exact .nothing rfl
    | cons b rest => exact .short (List.cons_ne_nil b rest)
  · have hLong := Nat.le_of_not_lt hShort
    cases hParse : Header.parse (data.take Header.size) with
    | ok h => exact agree_of_header hLong hParse (hSmall hLong h hParse)
    | error cause =>
        have hFirst := PacketReader.firstItem?_error (List.length_take_of_le hLong) hParse
          (data.drop Header.size)
        rw [List.take_append_drop] at hFirst
        rw [decode, if_neg hShort, hParse, decodeAll_of_some hFirst]
        exact .badHeader cause _

/-- The two readers agree on every byte string whose header, if there is one, announces no more than a
stream accepts, however the bytes are cut for the stream. The stream yields exactly one envelope and ends
if and only if the bytes are the packet of that envelope. A header that cannot be read is its first item;
a body that cannot be read, and bytes that end too soon, are its only item. Where more bytes follow than
the header announces, the stream takes what is announced for a packet and does not end with it. -/
theorem stream_agrees_with_decode {events : List SourceEvent}
    (hQuiet : events.filterMap SourceEvent.failure? = []) (hBytes : sourceBytes events = data)
    (hSmall : Header.size ≤ data.length →
      ∀ h, Header.parse (data.take Header.size) = .ok h → h.bodyLength.toNat ≤ maxStreamBody) :
    (∀ e, decode data = .ok e ↔ PacketStream.new.items events = [.ok e]) ∧
    (∀ cause, decode data = .error (.header cause) →
      ∃ later, PacketStream.new.items events = .error (.invalidHeader cause) :: later) ∧
    (∀ cause, decode data = .error (.packet cause) →
      PacketStream.new.items events = [.error (.packet cause)]) ∧
    (∀ expected actual, decode data = .error (.bodyLength expected actual) → actual < expected.toNat →
      PacketStream.new.items events = [.error .unexpectedEnd]) ∧
    (decode data = .error .missingHeader → PacketStream.new.items events =
      if data = [] then [] else [.error .unexpectedEnd]) ∧
    (∀ expected actual, decode data = .error (.bodyLength expected actual) → expected.toNat < actual →
      ∃ h next later, Header.parse (data.take Header.size) = .ok h ∧ h.bodyLength = expected ∧
        PacketStream.new.items events =
          (parse h ((data.drop Header.size).take expected.toNat)).mapError .packet :: next :: later) := by
  have hAgree := agree hSmall
  rw [PacketStream.items_of_quiet hQuiet, hBytes]
  generalize decode data = outcome at hAgree ⊢
  generalize decodeAll data = items at hAgree ⊢
  refine ⟨fun e => ⟨?_, ?_⟩, fun cause => ?_, fun cause => ?_, fun expected actual => ?_, ?_,
    fun expected actual => ?_⟩
  · rintro rfl
    cases hAgree
    rfl
  · intro h
    cases hAgree with
    | envelope e' =>
        cases h
        rfl
    | tooLong _ _ _ _ next later => exact absurd (congrArg List.length h) (by simp)
    | _ => cases h
  · rintro rfl
    cases hAgree with
    | badHeader _ later => exact ⟨later, rfl⟩
  · rintro rfl
    cases hAgree
    rfl
  · rintro rfl hLess
    cases hAgree with
    | cutOff => rfl
    | tooLong h _ more => omega
  · rintro rfl
    cases hAgree with
    | nothing hNil => rw [if_pos hNil]
    | short hSome => rw [if_neg hSome]
  · rintro rfl hMore
    cases hAgree with
    | cutOff _ _ less => omega
    | tooLong h _ _ parsed next later => exact ⟨h, next, later, parsed, rfl, rfl⟩

/-- A byte follows the end mark of a stream. Read whole these are no packet; in pieces they are the end
mark, and a packet that was cut off. -/
theorem stream_agrees_of_trailing_byte :
    decode [0x06, 0, 0, 0, 0, 0, 0, 0, 9, 1] = .error (.bodyLength 0 1) ∧
      ∃ next later, PacketStream.new.items
          [.chunk [0x06, 0, 0], .notReady, .chunk [], .chunk [0, 0, 0, 0, 0, 9, 1]] =
        .ok (.streamClose 9) :: next :: later := by
  have hDecode : decode [0x06, 0, 0, 0, 0, 0, 0, 0, 9, 1] = .error (.bodyLength 0 1) := rfl
  have hBytes : sourceBytes [.chunk [0x06, 0, 0], .notReady, .chunk [], .chunk [0, 0, 0, 0, 0, 9, 1]] =
      [0x06, 0, 0, 0, 0, 0, 0, 0, 9, 1] := rfl
  obtain ⟨-, -, -, -, -, hLonger⟩ := stream_agrees_with_decode rfl hBytes fun _ h hParse => by
    cases hParse
    decide
  obtain ⟨h, next, later, hParse, -, hItems⟩ := hLonger 0 1 hDecode (by decide)
  cases hParse
  exact ⟨hDecode, next, later, hItems⟩

end PeerLink.Wire

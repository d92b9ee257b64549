import Mathlib.Data.Nat.Bitwise
import PeerLink.Wire.Packet
import PeerLink.Proofs.Bytes
import PeerLink.Proofs.RemoteError

/-! Writing and reading packets undo each other. An envelope whose strings fit behind their length
prefixes has a packet, and the packet is read as the envelope, with empty fields of an error filled in
(`envelope_round_trip`). What is read as an envelope is the packet of that envelope, except for the bits
and words of the header that mean nothing for its kind, and for the way an error is written in JSON
(`packet_round_trip`). -/
namespace PeerLink.Wire

open Text

/-- The envelope as it arrives: empty fields of an error are filled in. -/
def delivered : Envelope → Envelope
  | .response ⟨id, .error e⟩ => .response ⟨id, .error e.normalized⟩
  | e => e

/-- The strings with a length prefix in the body of an envelope, in order. -/
def strings : Envelope → List (StringField × String)
  | .request r => [(.method, r.method), (.typeUrl, r.payload.typeUrl)]
  | .response ⟨_, .payload p⟩ => [(.typeUrl, p.typeUrl)]
  | _ => []

section Strings

theorem putString_of_le {field : StringField} {s : String} (hFits : Utf8.size s ≤ maxString) :
    putString field s = .ok (Bytes.ofNat 2 (Utf8.size s) ++ Utf8.encode s) := by
  have hWord : (Utf8.size s).toUInt16.toNat = Utf8.size s :=
    UInt16.toNat_ofNat_of_lt' (Nat.lt_succ_of_le hFits)
  rw [putString]
  change (if Utf8.size s ≤ maxString then _ else _) = _
  rw [if_pos hFits, Bytes.ofWord16]
  change Except.ok (Bytes.ofNat 2 (Utf8.size s).toUInt16.toNat ++ _) = _
  rw [hWord]

theorem putString_of_lt {field : StringField} {s : String} (hLong : maxString < Utf8.size s) :
    putString field s = .error (.fieldTooLong field (Utf8.size s)) :=
  if_neg (Nat.not_le.2 hLong)

theorem putString_eq_ok {field : StringField} {s : String} {bytes : Bytes}
    (h : putString field s = .ok bytes) :
    Utf8.size s ≤ maxString ∧ bytes = Bytes.ofNat 2 (Utf8.size s) ++ Utf8.encode s := by
  by_cases hFits : Utf8.size s ≤ maxString
  · rw [putString_of_le hFits] at h
    cases h
    exact ⟨hFits, rfl⟩
  · rw [putString_of_lt (Nat.lt_of_not_le hFits)] at h
    cases h

/-- A written string is read back, whatever stands behind it. -/
theorem readString_putString {kind : Kind} {field : StringField} {s : String} {bytes : Bytes}
    (h : putString field s = .ok bytes) (rest : Bytes) :
    readString kind field (bytes ++ rest) = .ok (s, rest) := by
  obtain ⟨hFits, rfl⟩ := putString_eq_ok h
  have hLength : Bytes.toNat (Bytes.ofNat 2 (Utf8.size s)) = (Utf8.encode s).length :=
    Bytes.toNat_ofNat (Nat.lt_succ_of_le hFits)
  have hDecode := Utf8.decode_encode s
  change Bytes.toNat [_, _] = _ at hLength
  change readString kind field (_ :: _ :: (Utf8.encode s ++ rest)) = _
  simp only [readString, hLength, List.length_append, List.take_left, List.drop_left, hDecode]
  rw [if_neg (by omega)]

/-- A string that is read has been written in front. -/
theorem putString_of_readString {kind : Kind} {field : StringField} {s rest : Bytes} {text : String}
    (h : readString kind field s = .ok (text, rest)) :
    ∃ bytes, putString field text = .ok bytes ∧ s = bytes ++ rest := by
  rw [readString.eq_def] at h
  split at h
  · next a b behind =>
      dsimp only at h
      split at h
      · cases h
      · next hFits =>
          split at h
          · next text' hDecode =>
              cases h
              have hBytes := Utf8.encode_of_decode hDecode
              have hSmall := Bytes.toNat_lt [a, b]
              simp only [List.length_cons, List.length_nil] at hSmall
              have hSize : Utf8.size text = Bytes.toNat [a, b] := by
                rw [Utf8.size, hBytes, List.length_take]
                omega
              refine ⟨_, putString_of_le (by rw [hSize, maxString]; omega), ?_⟩
              rw [hSize, hBytes, List.append_assoc, List.take_append_drop]
              exact congrArg (· ++ behind) (Bytes.ofNat_toNat [a, b]).symm
          · cases h
  · cases h

theorem putPayload_eq_ok {p : Payload} {bytes : Bytes} (h : putPayload p = .ok bytes) :
    ∃ typeUrl, putString .typeUrl p.typeUrl = .ok typeUrl ∧ bytes = typeUrl ++ p.value := by
  rw [putPayload] at h
  cases hString : putString .typeUrl p.typeUrl with
  | error fault => rw [hString] at h; cases h
  | ok typeUrl => rw [hString] at h; cases h; exact ⟨typeUrl, rfl, rfl⟩

theorem readPayload_putPayload {kind : Kind} {p : Payload} {bytes : Bytes}
    (h : putPayload p = .ok bytes) : readPayload kind bytes = .ok p := by
  obtain ⟨typeUrl, hString, rfl⟩ := putPayload_eq_ok h
  rw [readPayload, readString_putString hString]
  rfl

theorem putPayload_of_readPayload {kind : Kind} {p : Payload} {bytes : Bytes}
    (h : readPayload kind bytes = .ok p) : putPayload p = .ok bytes := by
  rw [readPayload] at h
  cases hRead : readString kind .typeUrl bytes with
  | error fault => rw [hRead] at h; cases h
  | ok read =>
      rw [hRead] at h
      cases h
      obtain ⟨typeUrl, hString, rfl⟩ := putString_of_readString hRead
      rw [putPayload, hString]
      rfl

end Strings

section Bodies

/-- The body of a request is its method and its payload. -/
theorem body_request_eq_ok {r : Request} {bytes : Bytes} (h : body (.request r) = .ok bytes) :
    ∃ method payload, putString .method r.method = .ok method ∧ putPayload r.payload = .ok payload ∧
      bytes = method ++ payload := by
  rw [body] at h
  cases hMethod : putString .method r.method with
  | error fault => rw [hMethod] at h; cases h
  | ok method =>
      cases hPayload : putPayload r.payload with
      | error fault => rw [hMethod, hPayload] at h; cases h
      | ok payload =>
          rw [hMethod, hPayload] at h
          cases h
          exact ⟨method, payload, rfl, rfl, rfl⟩

/-- The header of the packet of an envelope with a body of this length. -/
def headerOf (e : Envelope) (bodyLength : Nat) : Header :=
  { kind := (headerFields e).1, flag := (headerFields e).2.1
    bodyLength := bodyLength.toUInt32, id := (headerFields e).2.2 }

/-- A body is read as the envelope that it was written for. -/
theorem parse_body {e : Envelope} {bytes : Bytes} (h : body e = .ok bytes) (length : Nat) :
    parse (headerOf e length) bytes = .ok (delivered e) := by
  cases e with
  | request r =>
      obtain ⟨method, payload, hMethod, hPayload, rfl⟩ := body_request_eq_ok h
      simp only [parse, headerOf, headerFields, readString_putString hMethod]
      change (do let p ← readPayload _ payload; _) = _
      rw [readPayload_putPayload hPayload]
      rfl
  | response r =>
      obtain ⟨id, content⟩ := r
      cases content with
      | payload p =>
          simp only [parse, headerOf, headerFields, readPayload_putPayload h]
          rfl
      | error e =>
          obtain rfl : Text.Utf8.encode e.toJson = bytes := Except.ok.inj h
          simp only [parse, headerOf, headerFields, RemoteError.ofJson_toJson]
          rfl
      | close b => cases h; rfl
      | ready b => cases h; rfl
  | streamClose id => cases h; rfl
  | bye => cases h; rfl
  | opening b => cases h; rfl
  | openingAck b => cases h; rfl

/-- The first string that does not fit behind its length prefix. -/
def tooLong? (e : Envelope) : Option (StringField × String) :=
  (strings e).find? fun s => maxString < Utf8.size s.2

theorem tooLong?_eq_none_iff {e : Envelope} :
    tooLong? e = none ↔ ∀ s ∈ strings e, Utf8.size s.2 ≤ maxString := by
  simp [tooLong?]

theorem body_of_fits {e : Envelope} (hFits : ∀ s ∈ strings e, Utf8.size s.2 ≤ maxString) :
    ∃ bytes, body e = .ok bytes := by
  cases e with
  | request r =>
      simp only [strings, List.forall_mem_cons] at hFits
      rw [body, putPayload, putString_of_le hFits.1, putString_of_le hFits.2.1]
      exact ⟨_, rfl⟩
  | response r =>
      obtain ⟨id, content⟩ := r
      cases content with
      | payload p =>
          simp only [strings, List.forall_mem_cons] at hFits
          simp only [body, putPayload, putString_of_le hFits.1]
          exact ⟨_, rfl⟩
      | error e => exact ⟨_, rfl⟩
      | close b => exact ⟨_, rfl⟩
      | ready b => exact ⟨_, rfl⟩
  | streamClose id => exact ⟨_, rfl⟩
  | bye => exact ⟨_, rfl⟩
  | opening b => exact ⟨_, rfl⟩
  | openingAck b => exact ⟨_, rfl⟩

theorem body_of_tooLong {e : Envelope} {s : StringField × String} (hLong : tooLong? e = some s) :
    body e = .error (.fieldTooLong s.1 (Utf8.size s.2)) := by
  cases e with
  | request r =>
      rw [tooLong?, strings, List.find?_cons] at hLong
      split at hLong
      · next hMethod =>
          cases hLong
          rw [body, putString_of_lt (of_decide_eq_true hMethod)]
          rfl
      · next hMethod =>
          rw [List.find?_singleton] at hLong
          split at hLong
          · next hTypeUrl =>
              cases hLong
              rw [body, putString_of_le (Nat.le_of_not_lt (of_decide_eq_false hMethod)), putPayload,
                putString_of_lt (of_decide_eq_true hTypeUrl)]
              rfl
          · cases hLong
  | response r =>
      obtain ⟨id, content⟩ := r
      cases content with
      | payload p =>
          rw [tooLong?, strings, List.find?_singleton] at hLong
          split at hLong
          · next hTypeUrl =>
              cases hLong
              simp only [body, putPayload, putString_of_lt (of_decide_eq_true hTypeUrl)]
              rfl
          · cases hLong
      | error e => cases hLong
      | close b => cases hLong
      | ready b => cases hLong
  | streamClose id => cases hLong
  | bye => cases hLong
  | opening b => cases hLong
  | openingAck b => cases hLong

end Bodies

section Packets

theorem encode_of_body {e : Envelope} {bytes : Bytes} (hBody : body e = .ok bytes)
    (hFits : bytes.length ≤ maxBody) :
    encode e = .ok ((headerOf e bytes.length).build ++ bytes) := by
  rw [encode, hBody]
  exact if_pos hFits

theorem encode_of_error {e : Envelope} {fault : EncodeError} (hBody : body e = .error fault) :
    encode e = .error fault := by
  rw [encode, hBody]
  rfl

/-- The packet of an envelope is read as what is delivered of it. -/
theorem decode_build {e : Envelope} {bytes : Bytes} (hBody : body e = .ok bytes)
    (hFits : bytes.length ≤ maxBody) :
    decode ((headerOf e bytes.length).build ++ bytes) = .ok (delivered e) := by
  have hSize := Header.length_build (headerOf e bytes.length)
  have hWord : bytes.length.toUInt32.toNat = bytes.length :=
    UInt32.toNat_ofNat_of_lt' (Nat.lt_succ_of_le hFits)
  rw [decode, if_neg (by rw [List.length_append, hSize]; omega), List.take_left' hSize,
    List.drop_left' hSize, Header.parse_build]
  dsimp only
  rw [if_neg (not_not.2 (by exact hWord)), parse_body hBody]
  rfl

theorem delivered_of_complete {e : Envelope}
    (hError : ∀ id error, e = .response ⟨id, .error error⟩ →
      error.name ≠ "" ∧ error.message ≠ "") : delivered e = e := by
  rw [delivered.eq_def]
  split
  · next id error =>
      obtain ⟨hName, hMessage⟩ := hError id error rfl
      rw [RemoteError.normalized_of_ne hName hMessage]
  · rfl

/-- Reading undoes writing. An envelope whose body is not too long has a packet exactly if its
strings fit behind their length prefixes, and is refused for the first one that does not. Its packet is
read as the envelope; only empty fields of an error are not empty any more. -/
theorem envelope_round_trip {e : Envelope}
    (hBody : ∀ bytes, body e = .ok bytes → bytes.length ≤ maxBody) :
    ((∃ packet, encode e = .ok packet) ↔ ∀ s ∈ strings e, Utf8.size s.2 ≤ maxString) ∧
    (∀ fault, encode e = .error fault ↔
      ∃ s, tooLong? e = some s ∧ fault = .fieldTooLong s.1 (Utf8.size s.2)) ∧
    (∀ packet, encode e = .ok packet → decode packet = .ok (delivered e)) ∧
    ((∀ id error, e = .response ⟨id, .error error⟩ → error.name ≠ "" ∧ error.message ≠ "") →
      delivered e = e) := by
  rw [← tooLong?_eq_none_iff]
  cases hLong : tooLong? e with
  | none =>
      obtain ⟨bytes, hBytes⟩ := body_of_fits (tooLong?_eq_none_iff.1 hLong)
      have hFits := hBody bytes hBytes
      have hEncode := encode_of_body hBytes hFits
      refine ⟨iff_of_true ⟨_, hEncode⟩ rfl, fun fault => ?_, fun packet hPacket => ?_,
        delivered_of_complete⟩
      · rw [hEncode]
        exact ⟨nofun, nofun⟩
      · rw [hEncode] at hPacket
        cases hPacket
        exact decode_build hBytes hFits
  | some s =>
      have hEncode := encode_of_error (body_of_tooLong hLong)
      rw [hEncode]
      refine ⟨iff_of_false nofun nofun, fun fault => ?_, nofun, delivered_of_complete⟩
      constructor
      · intro h
        cases h
        exact ⟨s, rfl, rfl⟩
      · rintro ⟨_, hSome, rfl⟩
        cases hSome
        rfl

/-- An error whose text needs escapes, and whose message is empty. -/
theorem packet_of_empty_message :
    ∃ packet, encode (.response ⟨-5, .error ⟨"Größe \"0\"\n", ""⟩⟩) = .ok packet ∧
      decode packet = .ok (.response ⟨-5, .error ⟨"Größe \"0\"\n", "unknown error"⟩⟩) := by
  obtain ⟨hOk, -, hDecode, -⟩ :=
    envelope_round_trip (e := .response ⟨-5, .error ⟨"Größe \"0\"\n", ""⟩⟩) fun bytes h => by
      cases h
      decide +kernel
  obtain ⟨packet, hPacket⟩ := hOk.2 nofun
  exact ⟨packet, hPacket, hDecode packet hPacket⟩

end Packets

/-- The flag says something for this kind. -/
def Kind.usesFlag : Kind → Bool
  | .responsePayload | .responseError | .streamClose | .bye => false
  | _ => true

/-- The id says something for this kind. -/
def Kind.usesId : Kind → Bool
  | .bye | .opening | .openingAck => false
  | _ => true

section Reading

theorem expectEmpty_eq_ok {kind : Kind} {bytes : Bytes} {expected e : Envelope}
    (h : expectEmpty kind bytes expected = .ok e) : bytes = [] ∧ e = expected := by
  rw [expectEmpty] at h
  split at h
  · next hEmpty =>
      cases h
      exact ⟨List.isEmpty_iff.1 hEmpty, rfl⟩
  · cases h

theorem body_of_readStrings {kind : Kind} {bytes rest : Bytes} {r : Request}
    (hMethod : readString kind .method bytes = .ok (r.method, rest))
    (hPayload : readPayload kind rest = .ok r.payload) : body (.request r) = .ok bytes := by
  obtain ⟨method, hPut, rfl⟩ := putString_of_readString hMethod
  rw [body, hPut, putPayload_of_readPayload hPayload]
  rfl

/-- What is read from a body is the envelope of that body. Errors are excepted, because the JSON that
is read need not be the JSON that would be written. -/
theorem parse_eq_ok {h : Header} {bytes : Bytes} {e : Envelope} (hParse : parse h bytes = .ok e) :
    headerFields e =
        (h.kind, h.kind.usesFlag && h.flag, if h.kind.usesId then h.id else 0) ∧
      delivered e = e ∧ (∃ bytes, body e = .ok bytes) ∧
      (h.kind ≠ .responseError → body e = .ok bytes) := by
  obtain ⟨kind, flag, length, id⟩ := h
  cases kind with
  | request =>
      simp only [parse] at hParse
      cases hMethod : readString .request .method bytes with
      | error fault => rw [hMethod] at hParse; cases hParse
      | ok read =>
          rw [hMethod] at hParse
          change (do let p ← readPayload .request read.2; _) = _ at hParse
          cases hPayload : readPayload .request read.2 with
          | error fault => rw [hPayload] at hParse; cases hParse
          | ok p =>
              rw [hPayload] at hParse
              cases hParse
              have hBody := body_of_readStrings (r := ⟨id, read.1, p, flag⟩) hMethod hPayload
              exact ⟨rfl, rfl, ⟨bytes, hBody⟩, fun _ => hBody⟩
  | responsePayload =>
      simp only [parse] at hParse
      cases hPayload : readPayload .responsePayload bytes with
      | error fault => rw [hPayload] at hParse; cases hParse
      | ok p =>
          rw [hPayload] at hParse
          cases hParse
          have hBody := putPayload_of_readPayload hPayload
          exact ⟨rfl, rfl, ⟨bytes, hBody⟩, fun _ => hBody⟩
  | responseError =>
      simp only [parse] at hParse
      split at hParse
      · next error _ =>
          cases hParse
          refine ⟨rfl, ?_, ⟨_, rfl⟩, fun h => absurd rfl h⟩
          rw [delivered, RemoteError.normalized_normalized]
      · cases hParse
  | responseClose =>
      obtain ⟨rfl, rfl⟩ := expectEmpty_eq_ok hParse
      exact ⟨rfl, rfl, ⟨_, rfl⟩, fun _ => rfl⟩
  | responseReady =>
      obtain ⟨rfl, rfl⟩ := expectEmpty_eq_ok hParse
      exact ⟨rfl, rfl, ⟨_, rfl⟩, fun _ => rfl⟩
  | streamClose =>
      obtain ⟨rfl, rfl⟩ := expectEmpty_eq_ok hParse
      exact ⟨rfl, rfl, ⟨_, rfl⟩, fun _ => rfl⟩
  | bye =>
      obtain ⟨rfl, rfl⟩ := expectEmpty_eq_ok hParse
      exact ⟨rfl, rfl, ⟨_, rfl⟩, fun _ => rfl⟩
  | opening =>
      obtain ⟨rfl, rfl⟩ := expectEmpty_eq_ok hParse
      exact ⟨rfl, rfl, ⟨_, rfl⟩, fun _ => rfl⟩
  | openingAck =>
      obtain ⟨rfl, rfl⟩ := expectEmpty_eq_ok hParse
      exact ⟨rfl, rfl, ⟨_, rfl⟩, fun _ => rfl⟩

theorem decode_eq_ok {packet : Bytes} {e : Envelope} (h : decode packet = .ok e) :
    Header.size ≤ packet.length ∧ ∃ header, Header.parse (packet.take Header.size) = .ok header ∧
      header.bodyLength.toNat = (packet.drop Header.size).length ∧
      parse header (packet.drop Header.size) = .ok e := by
  rw [decode] at h
  split at h
  · cases h
  · next hLong =>
      split at h
      · cases h
      · next header hHeader =>
          dsimp only at h
          split at h
          · cases h
          · next hLength =>
              cases hParse : parse header (packet.drop Header.size) with
              | error fault => rw [hParse] at h; cases h
              | ok e' =>
                  rw [hParse] at h
                  cases h
                  exact ⟨Nat.le_of_not_lt hLong, header, hHeader, not_not.1 hLength, hParse⟩

/-- The first byte of a packet of a kind, without the bits that mean nothing. -/
def Kind.meaning (kind : Kind) (first : UInt8) : UInt8 :=
  first &&& (if kind.usesFlag then 0x8F else 0x0F)

theorem Kind.code_of_ofCode? {code : UInt8} {kind : Kind} (h : Kind.ofCode? code = some kind) :
    kind.code = code := by
  rw [Kind.ofCode?] at h
  have hFound := List.find?_some h
  exact eq_of_beq hFound

theorem high_bit (b : UInt8) : b &&& 0x80 = 0 ∨ b &&& 0x80 = 0x80 := by
  have hBit : b.toNat &&& 0x80 = (b.toNat.testBit 7).toNat * 0x80 := Nat.and_two_pow b.toNat 7
  simp only [← UInt8.toNat_inj, UInt8.toNat_and, UInt8.reduceToNat, hBit]
  cases b.toNat.testBit 7
  · exact .inl rfl
  · exact .inr rfl

/-- The first byte that is written for a kind and a flag that were read. -/
theorem first_flagOf {kind : Kind} {first : UInt8}
    (hKind : Kind.ofCode? (Header.kindCode first) = some kind) :
    Header.first kind (kind.usesFlag && Header.flagOf first) = kind.meaning first := by
  have hCode : kind.code = first &&& 0x0F := Kind.code_of_ofCode? hKind
  have hSplit : first &&& 0x8F = first &&& 0x0F ||| first &&& 0x80 := by
    apply UInt8.toNat_inj.1
    simp only [UInt8.toNat_and, UInt8.toNat_or]
    exact Nat.and_or_distrib_left first.toNat 0x0F 0x80
  rw [Header.first, Kind.meaning, hCode, Header.flagOf]
  cases kind.usesFlag with
  | false => rfl
  | true =>
      rw [Bool.true_and, if_pos rfl, hSplit]
      obtain hBit | hBit := high_bit first
      · rw [hBit, UInt8.or_zero]
        rfl
      · rw [hBit]
        rfl

/-- The packet without the bits and words of its header that mean nothing for its kind. -/
def canonical (kind : Kind) (packet : Bytes) : Bytes :=
  kind.meaning (packet.headD 0) ::
    ((packet.drop 1).take 4 ++ (if kind.usesId then (packet.drop 5).take 4 else [0, 0, 0, 0]) ++
      packet.drop Header.size)

/-- A header that is read is written again in its canonical form. -/
theorem build_of_parse {packet : Bytes} {h : Header} (hLong : Header.size ≤ packet.length)
    (hParse : Header.parse (packet.take Header.size) = .ok h) :
    Kind.ofCode? (Header.kindCode (packet.headD 0)) = some h.kind ∧
      (⟨h.kind, h.kind.usesFlag && h.flag, h.bodyLength, if h.kind.usesId then h.id else 0⟩ :
          Header).build ++ packet.drop Header.size = canonical h.kind packet := by
  have hHead : (packet.take Header.size).headD 0 = packet.headD 0 := by
    cases packet <;> rfl
  have hSlice (n : Nat) (hIn : n + 4 ≤ Header.size) :
      ((packet.take Header.size).drop n).take 4 = (packet.drop n).take 4 := by
    rw [List.drop_take, List.take_take, Nat.min_eq_left (by omega)]
  have hFour (n : Nat) (hIn : n + 4 ≤ Header.size) : ((packet.drop n).take 4).length = 4 := by
    rw [List.length_take, List.length_drop]
    omega
  rw [Header.parse, hHead, hSlice 1 (by decide), hSlice 5 (by decide)] at hParse
  split at hParse
  · cases hParse
  · next kind hKind =>
      cases hParse
      refine ⟨hKind, ?_⟩
      rw [Header.build, first_flagOf hKind, Bytes.ofWord32_toNat (hFour 1 (by decide)), canonical]
      dsimp only
      split
      · rw [UInt32.toUInt32_toInt32, Bytes.ofWord32_toNat (hFour 5 (by decide))]
        rfl
      · rfl

theorem length_canonical {kind : Kind} {packet : Bytes} (hLong : Header.size ≤ packet.length) :
    (canonical kind packet).length = packet.length := by
  rw [Header.size] at hLong
  simp only [canonical, Header.size, List.length_cons, List.length_append, List.length_take,
    List.length_drop]
  split <;> simp <;> omega

/-- Writing undoes reading. What is read can be written again and is then read as the same. Unless
it is an error, the new packet is the canonical form of the old one: the same bytes except for the bits
of the first byte and the id bytes that mean nothing for its kind, which are zero. -/
theorem packet_round_trip {packet : Bytes} {e : Envelope} (hDecode : decode packet = .ok e)
    (hBody : ∀ bytes, body e = .ok bytes → bytes.length ≤ maxBody) :
    ∃ written, encode e = .ok written ∧ decode written = .ok e ∧
      ∀ kind, Kind.ofCode? (Header.kindCode (packet.headD 0)) = some kind → kind ≠ .responseError →
        written.length = packet.length ∧ written = canonical kind packet := by
  obtain ⟨hLong, header, hHeader, hLength, hParse⟩ := decode_eq_ok hDecode
  obtain ⟨hFields, hDelivered, ⟨bytes, hBytes⟩, hSame⟩ := parse_eq_ok hParse
  obtain ⟨hKind, hBuild⟩ := build_of_parse hLong hHeader
  have hFits := hBody bytes hBytes
  have hRead := decode_build hBytes hFits
  rw [hDelivered] at hRead
  refine ⟨_, encode_of_body hBytes hFits, hRead, fun kind hOf hNoError => ?_⟩
  rw [hKind] at hOf
  cases hOf
  have hBytes : bytes = packet.drop Header.size :=
    Except.ok.inj (hBytes.symm.trans (hSame hNoError))
  have hWritten : (headerOf e bytes.length).build ++ bytes = canonical header.kind packet := by
    rw [← hBuild, headerOf, hFields, hBytes, ← hLength]
    simp only [Nat.toUInt32, UInt32.ofNat_toNat]
  rw [hWritten]
  exact ⟨length_canonical hLong, rfl⟩

/-- A packet with a flag and bits that mean nothing, which the end of a stream does not need. -/
theorem packet_of_flagged_close :
    decode [0xF6, 0, 0, 0, 0, 0, 0, 0, 9] = .ok (.streamClose 9) ∧
      ∃ written, encode (.streamClose 9) = .ok written ∧ decode written = .ok (.streamClose 9) ∧
        written = [0x06, 0, 0, 0, 0, 0, 0, 0, 9] := by
  have hDecode : decode [0xF6, 0, 0, 0, 0, 0, 0, 0, 9] = .ok (.streamClose 9) := by decide
  obtain ⟨written, hEncode, hRead, hSame⟩ := packet_round_trip hDecode fun bytes h => by
    cases h
    decide
  exact ⟨hDecode, written, hEncode, hRead, (hSame .streamClose (by decide) (by decide)).2⟩

end Reading

end PeerLink.Wire

import PeerLink.Proofs.Wire.RoundTrip

/-! The byte strings that are packets. `Framed` and `Reads` say what a packet looks like, piece by piece and
without reading anything; `Defect` says what is wrong with the first piece of a body that is not as it
should be. Every byte string falls under exactly one heading, and `decode` finds it (`decode_classified`).
Reading takes bytes off the front only where they are known to be there (`Strict.decode_eq`). -/
namespace PeerLink.Wire

open Text

/-! ### The form of a packet -/

/-- Nine bytes with the fields of the header, and then the body. The kind is in the low half of the first
byte and the flag is its high bit; what is between them means nothing. -/
inductive Framed : Bytes → Header → Bytes → Prop where
  | intro {first : UInt8} {length id : Bytes} {h : Header} (body : Bytes)
      (kind : first.toNat % 16 = h.kind.code.toNat) (flag : h.flag = decide (128 ≤ first.toNat))
      (fourLength : length.length = 4) (bodyLength : h.bodyLength.toNat = Bytes.toNat length)
      (fourId : id.length = 4) (idWord : h.id.toUInt32.toNat = Bytes.toNat id) :
      Framed (first :: (length ++ id ++ body)) h body

/-- A text in UTF-8 behind its length in two bytes, and then `rest`. -/
def Prefixed (text : String) (s rest : Bytes) : Prop :=
  ∃ a b : UInt8, a.toNat * 256 + b.toNat = (Utf8.encode text).length ∧
    s = a :: b :: (Utf8.encode text ++ rest)

/-- The body, with what its header says, is that of the envelope. -/
inductive Reads (h : Header) : Bytes → Envelope → Prop where
  | request {s rest value : Bytes} {method typeUrl : String} (kind : h.kind = .request)
      (first : Prefixed method s rest) (second : Prefixed typeUrl rest value) :
      Reads h s (.request { id := h.id, method, payload := { typeUrl, value }, isStream := h.flag })
  | payload {s value : Bytes} {typeUrl : String} (kind : h.kind = .responsePayload)
      (first : Prefixed typeUrl s value) : Reads h s (.response ⟨h.id, .payload { typeUrl, value }⟩)
  /-- A JSON text that is accepted as an error. -/
  | error {s : Bytes} {e : RemoteError} (kind : h.kind = .responseError)
      (accepted : RemoteError.ofJson s = .ok e) : Reads h s (.response ⟨h.id, .error e.normalized⟩)
  | close (kind : h.kind = .responseClose) : Reads h [] (.response ⟨h.id, .close h.flag⟩)
  | ready (kind : h.kind = .responseReady) : Reads h [] (.response ⟨h.id, .ready h.flag⟩)
  | streamClose (kind : h.kind = .streamClose) : Reads h [] (.streamClose h.id)
  | bye (kind : h.kind = .bye) : Reads h [] .bye
  | opening (kind : h.kind = .opening) : Reads h [] (.opening h.flag)
  | openingAck (kind : h.kind = .openingAck) : Reads h [] (.openingAck h.flag)

/-- Why no text with its length stands in front. -/
inductive StringDefect (kind : Kind) (field : StringField) : Bytes → PacketError → Prop where
  | cutPrefix {s : Bytes} (short : s.length < 2) : StringDefect kind field s (.truncated kind s.length)
  | cutString {a b : UInt8} {rest : Bytes} (short : rest.length < a.toNat * 256 + b.toNat) :
      StringDefect kind field (a :: b :: rest) (.truncated kind (rest.length + 2))
  | notText {a b : UInt8} {s rest : Bytes} {cause : Utf8.Error}
      (length : a.toNat * 256 + b.toNat = s.length) (noText : ∀ text, Utf8.encode text ≠ s)
      (why : Utf8.decode s = .error cause) :
      StringDefect kind field (a :: b :: (s ++ rest)) (.stringEncoding field cause)

/-- The kinds whose body is empty. -/
def Kind.isPlain : Kind → Bool
  | .request | .responsePayload | .responseError => false
  | _ => true

/-- The first thing from the left that is wrong with a body. -/
inductive Defect (kind : Kind) : Bytes → PacketError → Prop where
  | method {s : Bytes} {cause : PacketError} (isRequest : kind = .request)
      (first : StringDefect kind .method s cause) : Defect kind s cause
  | typeUrl {s rest : Bytes} {method : String} {cause : PacketError} (isRequest : kind = .request)
      (first : Prefixed method s rest) (second : StringDefect kind .typeUrl rest cause) :
      Defect kind s cause
  | payload {s : Bytes} {cause : PacketError} (isPayload : kind = .responsePayload)
      (first : StringDefect kind .typeUrl s cause) : Defect kind s cause
  | error {s : Bytes} {cause : Json.Error} (isError : kind = .responseError)
      (refused : RemoteError.ofJson s = .error cause) : Defect kind s (.errorBody s cause)
  | unexpected {s : Bytes} (plain : kind.isPlain = true) (more : s ≠ []) :
      Defect kind s (.unexpectedBody kind)

/-! ### Strings -/

theorem toNat_pair (a b : UInt8) : Bytes.toNat [a, b] = a.toNat * 256 + b.toNat := by
  simp [Bytes.toNat]

theorem decode_eq_ok_iff {s : Bytes} {text : String} : Utf8.decode s = .ok text ↔ Utf8.encode text = s :=
  ⟨Utf8.encode_of_decode, fun h => h ▸ Utf8.decode_encode text⟩

variable {kind : Kind} {field : StringField} {s rest : Bytes} {text : String} {cause : PacketError}

theorem readString_of_prefixed (h : Prefixed text s rest) :
    readString kind field s = .ok (text, rest) := by
  obtain ⟨a, b, hLength, rfl⟩ := h
  have hFits : ¬ (Utf8.encode text ++ rest).length < Bytes.toNat [a, b] := by
    rw [toNat_pair, hLength, List.length_append]
    omega
  rw [readString, if_neg hFits, toNat_pair, hLength, List.take_left, List.drop_left, Utf8.decode_encode]

theorem readString_of_defect (h : StringDefect kind field s cause) :
    readString kind field s = .error cause := by
  cases h with
  | cutPrefix short =>
      match s with
      | [] => rfl
      | [_] => rfl
      | _ :: _ :: _ => exact absurd short (by simp)
  | @cutString a b rest short =>
      rw [readString, if_pos (by rwa [toNat_pair])]
      rfl
  | @notText a b bytes rest cause length _ why =>
      have hFits : ¬ (bytes ++ rest).length < Bytes.toNat [a, b] := by
        rw [toNat_pair, length, List.length_append]
        omega
      rw [readString, if_neg hFits, toNat_pair, length, List.take_left, why]

/-- Either a text stands in front, or something is wrong. -/
theorem prefixed_or_defect (kind : Kind) (field : StringField) (s : Bytes) :
    (∃ text rest, Prefixed text s rest) ∨ ∃ cause, StringDefect kind field s cause := by
  match s with
  | [] => exact .inr ⟨_, .cutPrefix (by simp)⟩
  | [_] => exact .inr ⟨_, .cutPrefix (by simp)⟩
  | a :: b :: behind =>
      by_cases hShort : behind.length < a.toNat * 256 + b.toNat
      · exact .inr ⟨_, .cutString hShort⟩
      have hLength : (behind.take (a.toNat * 256 + b.toNat)).length = a.toNat * 256 + b.toNat :=
        List.length_take_of_le (Nat.le_of_not_lt hShort)
      rw [← List.take_append_drop (a.toNat * 256 + b.toNat) behind]
      cases hText : Utf8.decode (behind.take (a.toNat * 256 + b.toNat)) with
      | ok text =>
          rw [decode_eq_ok_iff] at hText
          rw [← hText] at hLength ⊢
          exact .inl ⟨text, _, a, b, hLength.symm, rfl⟩
      | error cause =>
          refine .inr ⟨_, .notText hLength.symm (fun text h => ?_) hText⟩
          rw [decode_eq_ok_iff.mpr h] at hText
          cases hText

theorem readString_eq_ok_iff : readString kind field s = .ok (text, rest) ↔ Prefixed text s rest := by
  refine ⟨fun h => ?_, readString_of_prefixed⟩
  obtain ⟨text', rest', hPrefixed⟩ | ⟨cause, hDefect⟩ := prefixed_or_defect kind field s
  · rw [readString_of_prefixed hPrefixed] at h
    cases h
    exact hPrefixed
  · rw [readString_of_defect hDefect] at h
    cases h

theorem readString_eq_error_iff : readString kind field s = .error cause ↔
    StringDefect kind field s cause := by
  refine ⟨fun h => ?_, readString_of_defect⟩
  obtain ⟨text, rest, hPrefixed⟩ | ⟨cause', hDefect⟩ := prefixed_or_defect kind field s
  · rw [readString_of_prefixed hPrefixed] at h
    cases h
  · rw [readString_of_defect hDefect] at h
    cases h
    exact hDefect

/-! ### Bodies -/

theorem readPayload_of_prefixed {value : Bytes} (h : Prefixed text s value) :
    readPayload kind s = .ok ⟨text, value⟩ := by
  rw [readPayload, readString_of_prefixed h]
  rfl

theorem readPayload_of_defect (h : StringDefect kind .typeUrl s cause) :
    readPayload kind s = .error cause := by
  rw [readPayload, readString_of_defect h]
  rfl

theorem parse_of_reads {h : Header} {e : Envelope} (hReads : Reads h s e) : parse h s = .ok e := by
  cases hReads with
  | request kind first second =>
      rw [parse, kind]
      dsimp only
      rw [readString_of_prefixed first]
      change (do let p ← readPayload _ _; _) = _
      rw [readPayload_of_prefixed second]
      rfl
  | payload kind first =>
      rw [parse, kind]
      dsimp only
      rw [readPayload_of_prefixed first]
      rfl
  | error kind accepted =>
      rw [parse, kind]
      dsimp only
      rw [accepted]
  | close kind | ready kind | streamClose kind | bye kind | opening kind | openingAck kind =>
      rw [parse, kind]
      rfl

theorem parse_of_defect {h : Header} (hDefect : Defect h.kind s cause) : parse h s = .error cause := by
  cases hDefect with
  | method isRequest first =>
      rw [isRequest] at first
      rw [parse, isRequest]
      dsimp only
      rw [readString_of_defect first]
      rfl
  | typeUrl isRequest first second =>
      rw [isRequest] at second
      rw [parse, isRequest]
      dsimp only
      rw [readString_of_prefixed first]
      change (do let p ← readPayload _ _; _) = _
      rw [readPayload_of_defect second]
      rfl
  | payload isPayload first =>
      rw [isPayload] at first
      rw [parse, isPayload]
      dsimp only
      rw [readPayload_of_defect first]
      rfl
  | error isError refused =>
      rw [parse, isError]
      dsimp only
      rw [refused]
  | unexpected plain more =>
      have hSome : s.isEmpty = false := by simpa using more
      obtain ⟨kind, flag, length, id⟩ := h
      cases kind with
      | request | responsePayload | responseError => cases plain
      | _ => simp [parse, expectEmpty, hSome]

/-- Either the body has the form that its header asks for, or something is wrong. -/
theorem reads_or_defect (h : Header) (s : Bytes) :
    (∃ e, Reads h s e) ∨ ∃ cause, Defect h.kind s cause := by
  have hPlain : h.kind.isPlain = true → (∀ s, s = [] → ∃ e, Reads h s e) →
      (∃ e, Reads h s e) ∨ ∃ cause, Defect h.kind s cause := fun plain reads => by
    by_cases hEmpty : s = []
    · exact .inl (reads s hEmpty)
    · exact .inr ⟨_, .unexpected plain hEmpty⟩
  cases hKind : h.kind with
  | request =>
      obtain ⟨method, rest, first⟩ | ⟨cause, hDefect⟩ := prefixed_or_defect .request .method s
      · obtain ⟨typeUrl, value, second⟩ | ⟨cause, hDefect⟩ := prefixed_or_defect .request .typeUrl rest
        · exact .inl ⟨_, .request hKind first second⟩
        · exact .inr ⟨cause, .typeUrl rfl first hDefect⟩
      · exact .inr ⟨cause, .method rfl hDefect⟩
  | responsePayload =>
      obtain ⟨typeUrl, value, first⟩ | ⟨cause, hDefect⟩ :=
        prefixed_or_defect .responsePayload .typeUrl s
      · exact .inl ⟨_, .payload hKind first⟩
      · exact .inr ⟨cause, .payload rfl hDefect⟩
  | responseError =>
      cases hRead : RemoteError.ofJson s with
      | ok e => exact .inl ⟨_, .error hKind hRead⟩
      | error cause => exact .inr ⟨_, .error rfl hRead⟩
  | responseClose => exact hKind ▸ hPlain (by rw [hKind]; rfl) fun _ h => h ▸ ⟨_, .close hKind⟩
  | responseReady => exact hKind ▸ hPlain (by rw [hKind]; rfl) fun _ h => h ▸ ⟨_, .ready hKind⟩
  | streamClose => exact hKind ▸ hPlain (by rw [hKind]; rfl) fun _ h => h ▸ ⟨_, .streamClose hKind⟩
  | bye => exact hKind ▸ hPlain (by rw [hKind]; rfl) fun _ h => h ▸ ⟨_, .bye hKind⟩
  | opening => exact hKind ▸ hPlain (by rw [hKind]; rfl) fun _ h => h ▸ ⟨_, .opening hKind⟩
  | openingAck => exact hKind ▸ hPlain (by rw [hKind]; rfl) fun _ h => h ▸ ⟨_, .openingAck hKind⟩

theorem parse_eq_ok_iff {h : Header} {e : Envelope} : parse h s = .ok e ↔ Reads h s e := by
  refine ⟨fun hParse => ?_, parse_of_reads⟩
  obtain ⟨e', hReads⟩ | ⟨cause, hDefect⟩ := reads_or_defect h s
  · rw [parse_of_reads hReads] at hParse
    cases hParse
    exact hReads
  · rw [parse_of_defect hDefect] at hParse
    cases hParse

theorem parse_eq_error_iff {h : Header} : parse h s = .error cause ↔ Defect h.kind s cause := by
  refine ⟨fun hParse => ?_, parse_of_defect⟩
  obtain ⟨e, hReads⟩ | ⟨cause', hDefect⟩ := reads_or_defect h s
  · rw [parse_of_reads hReads] at hParse
    cases hParse
  · rw [parse_of_defect hDefect] at hParse
    cases hParse
    exact hDefect

/-! ### Headers -/

theorem kindCode_toNat (first : UInt8) : (Header.kindCode first).toNat = first.toNat % 16 := by
  rw [Header.kindCode, UInt8.toNat_and]
  exact Nat.and_two_pow_sub_one_eq_mod first.toNat 4

theorem flagOf_eq (first : UInt8) : Header.flagOf first = decide (128 ≤ first.toNat) := by
  have hByte := first.toNat_lt
  have hBit : (first &&& 0x80).toNat = (first.toNat.testBit 7).toNat * 128 := by
    rw [UInt8.toNat_and]
    exact Nat.and_two_pow first.toNat 7
  rw [Header.flagOf, Bool.eq_iff_iff, bne_iff_ne, ne_eq, ← UInt8.toNat_inj, hBit,
    Nat.testBit_eq_decide_div_mod_eq, decide_eq_true_eq]
  by_cases hHigh : 128 ≤ first.toNat
  · have hOne : first.toNat / 128 % 2 = 1 := by omega
    simp [hOne, hHigh]
  · have hZero : first.toNat / 128 % 2 = 0 := by omega
    simp [hZero, hHigh]

theorem Kind.ofCode?_eq_some_iff {code : UInt8} : ofCode? code = some kind ↔ kind.code = code := by
  refine ⟨code_of_ofCode?, fun h => ?_⟩
  rw [← h, ofCode?_code]

/-- The numbers of the kinds are those from one to nine. -/
theorem Kind.ofCode?_eq_none_iff {code : UInt8} :
    ofCode? code = none ↔ ¬ (1 ≤ code.toNat ∧ code.toNat ≤ 9) := by
  rw [ofCode?, List.find?_eq_none]
  simp only [all, List.mem_cons, List.not_mem_nil, or_false, forall_eq_or_imp, forall_eq, beq_iff_eq,
    Kind.code, ← UInt8.toNat_inj, UInt8.reduceToNat]
  omega

/-- Nine bytes and more, cut where the fields of a header end. -/
theorem exists_pieces {data : Bytes} (hLong : Header.size ≤ data.length) :
    ∃ (first : UInt8) (length id body : Bytes), data = first :: (length ++ id ++ body) ∧
      length.length = 4 ∧ id.length = 4 := by
  cases data with
  | nil => cases hLong
  | cons first rest =>
      simp only [Header.size, List.length_cons] at hLong
      refine ⟨first, rest.take 4, (rest.drop 4).take 4, (rest.drop 4).drop 4, ?_, ?_, ?_⟩
      · rw [List.append_assoc, List.take_append_drop, List.take_append_drop]
      · rw [List.length_take]
        omega
      · rw [List.length_take, List.length_drop]
        omega

section Pieces

variable {first : UInt8} {length id : Bytes} (hLength : length.length = 4) (hId : id.length = 4)
  (body : Bytes)

include hLength hId

theorem length_pieces : Header.size ≤ (first :: (length ++ id ++ body)).length := by
  simp only [Header.size, List.length_cons, List.length_append, hLength, hId]
  omega

theorem drop_pieces : (first :: (length ++ id ++ body)).drop Header.size = body := by
  rw [Header.size, List.drop_succ_cons, List.drop_left' (by simp [hLength, hId])]

/-- The fields of a header, piece by piece. -/
theorem parse_pieces : Header.parse ((first :: (length ++ id ++ body)).take Header.size) =
    match Kind.ofCode? (Header.kindCode first) with
    | none => .error (.invalidKind (Header.kindCode first))
    | some kind =>
      .ok { kind, flag := Header.flagOf first, bodyLength := UInt32.ofNat (Bytes.toNat length)
            id := (UInt32.ofNat (Bytes.toNat id)).toInt32 } := by
  have hTake : (first :: (length ++ id ++ body)).take Header.size = first :: (length ++ id) := by
    rw [Header.size, List.take_succ_cons, List.take_left' (by simp [hLength, hId])]
  have hFirst : ((first :: (length ++ id)).drop 1).take 4 = length := by
    rw [List.drop_succ_cons, List.drop_zero, List.take_left' hLength]
  have hSecond : ((first :: (length ++ id)).drop 5).take 4 = id := by
    rw [List.drop_succ_cons, List.drop_left' hLength, List.take_of_length_le (Nat.le_of_eq hId)]
  rw [hTake, Header.parse, hFirst, hSecond]
  rfl

end Pieces

theorem word_toNat {s : Bytes} (hFour : s.length = 4) :
    (UInt32.ofNat (Bytes.toNat s)).toNat = Bytes.toNat s := by
  have hSmall := Bytes.toNat_lt s
  rw [hFour] at hSmall
  exact UInt32.toNat_ofNat_of_lt' hSmall

theorem framed_iff {data body : Bytes} {h : Header} : Framed data h body ↔
    Header.size ≤ data.length ∧ Header.parse (data.take Header.size) = .ok h ∧
      data.drop Header.size = body := by
  constructor
  · rintro ⟨body, kind, flag, fourLength, bodyLength, fourId, idWord⟩
    rename_i first length id
    refine ⟨length_pieces fourLength fourId body, ?_, drop_pieces fourLength fourId body⟩
    have hKind : Kind.ofCode? (Header.kindCode first) = some h.kind := by
      rw [Kind.ofCode?_eq_some_iff, ← UInt8.toNat_inj, kindCode_toNat, kind]
    have hWord : UInt32.ofNat (Bytes.toNat length) = h.bodyLength := by
      rw [← UInt32.toNat_inj, word_toNat fourLength, bodyLength]
    have hId : UInt32.ofNat (Bytes.toNat id) = h.id.toUInt32 := by
      rw [← UInt32.toNat_inj, word_toNat fourId, idWord]
    rw [parse_pieces fourLength fourId, hKind, hWord, hId, flagOf_eq, ← flag, Int32.toInt32_toUInt32]
  · rintro ⟨hLong, hParse, rfl⟩
    obtain ⟨first, length, id, body, rfl, hLength, hId⟩ := exists_pieces hLong
    rw [parse_pieces hLength hId] at hParse
    rw [drop_pieces hLength hId]
    cases hKind : Kind.ofCode? (Header.kindCode first) with
    | none => rw [hKind] at hParse; cases hParse
    | some kind =>
        rw [hKind] at hParse
        cases hParse
        refine .intro body ?_ (flagOf_eq first) hLength (word_toNat hLength) hId ?_
        · rw [← kindCode_toNat, Kind.code_of_ofCode? hKind]
        · rw [UInt32.toUInt32_toInt32, word_toNat hId]

/-! ### Whole packets -/

/-- What a byte string is: no packet for one of four reasons, of which the first that applies counts, or
the packet of an envelope. -/
inductive Verdict : Bytes → Except DecodeError Envelope → Prop where
  | missingHeader {data : Bytes} (short : data.length < 9) : Verdict data (.error .missingHeader)
  | invalidKind {first value : UInt8} {rest : Bytes} (room : 8 ≤ rest.length)
      (low : value.toNat = first.toNat % 16) (unknown : ¬ (1 ≤ value.toNat ∧ value.toNat ≤ 9)) :
      Verdict (first :: rest) (.error (.header (.invalidKind value)))
  | bodyLength {data body : Bytes} {h : Header} (framed : Framed data h body)
      (other : h.bodyLength.toNat ≠ body.length) :
      Verdict data (.error (.bodyLength h.bodyLength body.length))
  | packet {data body : Bytes} {h : Header} {cause : PacketError} (framed : Framed data h body)
      (same : h.bodyLength.toNat = body.length) (defect : Defect h.kind body cause) :
      Verdict data (.error (.packet cause))
  | envelope {data body : Bytes} {h : Header} {e : Envelope} (framed : Framed data h body)
      (same : h.bodyLength.toNat = body.length) (reads : Reads h body e) : Verdict data (.ok e)

theorem decode_of_framed {data body : Bytes} {h : Header} (framed : Framed data h body) :
    decode data = if h.bodyLength.toNat ≠ body.length then .error (.bodyLength h.bodyLength body.length)
      else (parse h body).mapError .packet := by
  obtain ⟨hLong, hParse, rfl⟩ := framed_iff.mp framed
  rw [decode, if_neg (Nat.not_lt.mpr hLong), hParse]

theorem decode_of_unknown {first : UInt8} {rest : Bytes} (room : 8 ≤ rest.length)
    (unknown : Kind.ofCode? (Header.kindCode first) = none) :
    decode (first :: rest) = .error (.header (.invalidKind (Header.kindCode first))) := by
  have hLong : Header.size ≤ (first :: rest).length := Nat.succ_le_succ room
  obtain ⟨_, length, id, body, hPieces, hLength, hId⟩ := exists_pieces hLong
  obtain ⟨rfl, rfl⟩ := List.cons.inj hPieces
  rw [decode, if_neg (Nat.not_lt.mpr hLong), parse_pieces hLength hId, unknown]

theorem decode_of_verdict {data : Bytes} {r : Except DecodeError Envelope} (h : Verdict data r) :
    decode data = r := by
  cases h with
  | missingHeader short => rw [decode, if_pos (show data.length < Header.size from short)]
  | @invalidKind first value rest room low unknown =>
      have hCode : Header.kindCode first = value := by
        rw [← UInt8.toNat_inj, kindCode_toNat, low]
      rw [decode_of_unknown room (by rwa [Kind.ofCode?_eq_none_iff, hCode]), hCode]
  | bodyLength framed other => rw [decode_of_framed framed, if_pos other]
  | packet framed same defect =>
      rw [decode_of_framed framed, if_neg (not_not.mpr same), parse_of_defect defect]
      rfl
  | envelope framed same reads =>
      rw [decode_of_framed framed, if_neg (not_not.mpr same), parse_of_reads reads]
      rfl

/-- There is a verdict on every byte string. -/
theorem exists_verdict (data : Bytes) : ∃ r, Verdict data r := by
  by_cases hShort : data.length < 9
  · exact ⟨_, .missingHeader hShort⟩
  obtain ⟨first, length, id, body, rfl, hLength, hId⟩ := exists_pieces (Nat.le_of_not_lt hShort)
  cases hKind : Kind.ofCode? (Header.kindCode first) with
  | none =>
      refine ⟨_, .invalidKind ?_ (kindCode_toNat first) (Kind.ofCode?_eq_none_iff.mp hKind)⟩
      simp only [List.length_append, hLength, hId]
      omega
  | some kind =>
      have hParse := @parse_pieces first _ _ hLength hId body
      rw [hKind] at hParse
      have framed := framed_iff.mpr ⟨length_pieces hLength hId body, hParse, drop_pieces hLength hId body⟩
      by_cases hSame : (UInt32.ofNat (Bytes.toNat length)).toNat = body.length
      · obtain ⟨e, hReads⟩ | ⟨cause, hDefect⟩ := reads_or_defect _ body
        · exact ⟨_, .envelope framed hSame hReads⟩
        · exact ⟨_, .packet framed hSame hDefect⟩
      · exact ⟨_, .bodyLength framed hSame⟩

/-! ### Reading within bounds

Readers that take bytes off the front without a second thought. They look at lengths where `decode` does;
where they take bytes that are not there, the result is `none`. -/
namespace Strict

/-- The first `n` bytes and those behind them. To take more than there are is out of bounds. -/
def take (n : Nat) (s : Bytes) : Option (Bytes × Bytes) :=
  if n ≤ s.length then some (s.take n, s.drop n) else none

def header (data : Bytes) : Option (Except HeaderError Header) := do
  let (first, rest) ← take 1 data
  let code := Header.kindCode (first.headD 0)
  match Kind.ofCode? code with
  | none => return .error (.invalidKind code)
  | some kind =>
    let (length, rest) ← take 4 rest
    let (id, _) ← take 4 rest
    return .ok { kind, flag := Header.flagOf (first.headD 0)
                 bodyLength := UInt32.ofNat (Bytes.toNat length)
                 id := (UInt32.ofNat (Bytes.toNat id)).toInt32 }

def string (kind : Kind) (field : StringField) (s : Bytes) :
    Option (Except PacketError (String × Bytes)) :=
  if s.length < 2 then some (.error (.truncated kind s.length))
  else do
    let (digits, rest) ← take 2 s
    if rest.length < Bytes.toNat digits then return .error (.truncated kind s.length)
    let (bytes, rest) ← take (Bytes.toNat digits) rest
    match Utf8.decode bytes with
    | .ok text => return .ok (text, rest)
    | .error cause => return .error (.stringEncoding field cause)

/-- The envelope of a body. Only strings are taken off the front. -/
def body (h : Header) (s : Bytes) : Option (Except PacketError Envelope) :=
  match h.kind with
  | .request => do
    match ← string h.kind .method s with
    | .error cause => return .error cause
    | .ok (method, rest) =>
      match ← string h.kind .typeUrl rest with
      | .error cause => return .error cause
      | .ok (typeUrl, value) =>
        return .ok (.request { id := h.id, method, payload := { typeUrl, value }, isStream := h.flag })
  | .responsePayload => do
    match ← string h.kind .typeUrl s with
    | .error cause => return .error cause
    | .ok (typeUrl, value) => return .ok (.response ⟨h.id, .payload { typeUrl, value }⟩)
  | _ => some (parse h s)

def decode (data : Bytes) : Option (Except DecodeError Envelope) :=
  if data.length < Header.size then some (.error .missingHeader)
  else do
    let (first, rest) ← take Header.size data
    match ← header first with
    | .error cause => return .error (.header cause)
    | .ok h =>
      if h.bodyLength.toNat ≠ rest.length then return .error (.bodyLength h.bodyLength rest.length)
      else return (← body h rest).mapError .packet

theorem take_append {n : Nat} {s : Bytes} (h : s.length = n) (rest : Bytes) :
    take n (s ++ rest) = some (s, rest) := by
  rw [take, if_pos (by rw [List.length_append]; omega), List.take_left' h, List.drop_left' h]

theorem header_eq {data : Bytes} (h : data.length = Header.size) :
    header data = some (Header.parse data) := by
  obtain ⟨first, length, id, body, rfl, hLength, hId⟩ := exists_pieces (Nat.le_of_eq h.symm)
  obtain rfl : body = [] := by
    rw [← @drop_pieces first _ _ hLength hId body, List.drop_of_length_le (Nat.le_of_eq h)]
  have hParse := @parse_pieces first _ _ hLength hId []
  rw [List.take_of_length_le (Nat.le_of_eq h)] at hParse
  have hFirst : take 1 (first :: (length ++ id ++ [])) = some ([first], length ++ (id ++ [])) := by
    rw [List.append_assoc]
    exact take_append (n := 1) (s := [first]) rfl _
  simp only [header, hFirst, Option.bind_eq_bind, Option.bind_some, List.headD_cons, hParse]
  cases Kind.ofCode? (Header.kindCode first) with
  | none => rfl
  | some kind => simp only [take_append hLength, take_append hId, Option.bind_some]; rfl

theorem string_eq (kind : Kind) (field : StringField) (s : Bytes) :
    string kind field s = some (readString kind field s) := by
  match s with
  | [] => rfl
  | [_] => rfl
  | a :: b :: behind =>
      have hTwo : take 2 (a :: b :: behind) = some ([a, b], behind) :=
        take_append (s := [a, b]) rfl behind
      have hLong : ¬ (a :: b :: behind).length < 2 := by simp
      rw [string, if_neg hLong, readString]
      simp only [hTwo, Option.bind_eq_bind, Option.bind_some]
      by_cases hShort : behind.length < Bytes.toNat [a, b]
      · rw [if_pos hShort, if_pos hShort]
        rfl
      · rw [if_neg hShort, if_neg hShort, take, if_pos (Nat.le_of_not_lt hShort)]
        simp only [Option.bind_some]
        cases Utf8.decode (behind.take (Bytes.toNat [a, b])) <;> rfl

theorem body_eq (h : Header) (s : Bytes) : body h s = some (parse h s) := by
  obtain ⟨kind, flag, length, id⟩ := h
  cases kind with
  | request =>
      simp only [body, string_eq, parse, readPayload, Option.bind_eq_bind, Option.bind_some]
      cases readString .request .method s with
      | error cause => rfl
      | ok first =>
          obtain ⟨method, rest⟩ := first
          dsimp only
          change _ = some (do let p ← (do let x ← readString _ _ rest; _); _)
          cases readString .request .typeUrl rest <;> rfl
  | responsePayload =>
      simp only [body, string_eq, parse, readPayload, Option.bind_eq_bind, Option.bind_some]
      cases readString .responsePayload .typeUrl s <;> rfl
  | _ => rfl

/-- Nothing is ever taken out of bounds. -/
theorem decode_eq (data : Bytes) : decode data = some (Wire.decode data) := by
  rw [decode, Wire.decode]
  by_cases hShort : data.length < Header.size
  · rw [if_pos hShort, if_pos hShort]
  · have hLong := Nat.le_of_not_lt hShort
    rw [if_neg hShort, if_neg hShort, take, if_pos hLong]
    simp only [Option.bind_eq_bind, Option.bind_some, header_eq (List.length_take_of_le hLong)]
    cases Header.parse (data.take Header.size) with
    | error cause => rfl
    | ok h =>
        dsimp only
        split
        · rfl
        · rw [body_eq]
          rfl

end Strict

/-- Reading a byte string gives the one verdict there is on it: it is read as an envelope exactly if it
has the form of a packet, with the fields that stand there and empty fields of an error filled in, and
otherwise refused for the first thing that is wrong with it. No byte is taken that is not there. -/
theorem decode_classified (data : Bytes) :
    (∀ r, decode data = r ↔ Verdict data r) ∧ Strict.decode data = some (decode data) := by
  refine ⟨fun r => ⟨fun h => ?_, decode_of_verdict⟩, Strict.decode_eq data⟩
  obtain ⟨r', hVerdict⟩ := exists_verdict data
  rw [← h, decode_of_verdict hVerdict]
  exact hVerdict

/-- An error whose fields are empty is accepted as it stands, and read as another one. -/
theorem empty_error_read_as_other :
    Framed ([0x03, 0, 0, 0, 24, 0, 0, 0, 5] ++ Utf8.encode "\x7b\"name\":\"\",\"message\":\"\"\x7d")
        ⟨.responseError, false, 24, 5⟩ (Utf8.encode "\x7b\"name\":\"\",\"message\":\"\"\x7d") ∧
      (Utf8.encode "\x7b\"name\":\"\",\"message\":\"\"\x7d").length = 24 ∧
      RemoteError.ofJson (Utf8.encode "\x7b\"name\":\"\",\"message\":\"\"\x7d") = .ok ⟨"", ""⟩ ∧
      decode ([0x03, 0, 0, 0, 24, 0, 0, 0, 5] ++ Utf8.encode "\x7b\"name\":\"\",\"message\":\"\"\x7d") =
        .ok (.response ⟨5, .error ⟨"HandlerFailed", "unknown error"⟩⟩) ∧
      decode ([0x03, 0, 0, 0, 24, 0, 0, 0, 5] ++ Utf8.encode "\x7b\"name\":\"\",\"message\":\"\"\x7d") ≠
        .ok (.response ⟨5, .error ⟨"", ""⟩⟩) := by
  have hFramed : Framed
      ([0x03, 0, 0, 0, 24, 0, 0, 0, 5] ++ Utf8.encode "\x7b\"name\":\"\",\"message\":\"\"\x7d")
      ⟨.responseError, false, 24, 5⟩ (Utf8.encode "\x7b\"name\":\"\",\"message\":\"\"\x7d") :=
    @Framed.intro 3 [0, 0, 0, 24] [0, 0, 0, 5] _ _ rfl rfl rfl rfl rfl rfl
  have hLength : (Utf8.encode "\x7b\"name\":\"\",\"message\":\"\"\x7d").length = 24 := by decide
  have hAccepted := RemoteError.ofJson_toJson ⟨"", ""⟩
  have hRead := decode_of_verdict (.envelope hFramed hLength.symm (.error rfl hAccepted))
  refine ⟨hFramed, hLength, hAccepted, hRead, ?_⟩
  rw [hRead]
  decide

end PeerLink.Wire

import PeerLink.Proofs.Json.Integer
import PeerLink.Proofs.Message

/-! Messages there and back. What `encode` writes is read as the message by `decode`, for every type that the
message has; an integer has those in whose range it lies, and as any other it is refused with the type tag of
its payload. -/
namespace PeerLink.Message

open Text Json

/-- The types as which a message is decoded once it is encoded. -/
inductive HasType : Message → MessageType → Prop where
  | echo (text : String) : HasType (.echo text) .echo
  | text (value : String) : HasType (.text value) .text
  | unit : HasType .unit .unit
  | bool (value : Bool) : HasType (.bool value) .bool
  | int32 {n : Int} (low : -2147483648 ≤ n) (high : n ≤ 2147483647) : HasType (.int n) .int32
  | word8 {n : Int} (low : 0 ≤ n) (high : n ≤ 255) : HasType (.int n) .word8
  | texts (values : List String) : HasType (.texts values) .texts
  | optionalText (value : Option String) : HasType (.optionalText value) .optionalText

theorem decode_of_fault {type : MessageType} {value : Bytes} {f : Fault}
    (hFault : readShape type.shape value = .error f) (typeUrl : String) :
    ∃ cause, decode type ⟨typeUrl, value⟩ = .error (.decode typeUrl cause) := by
  have hRead : Json.read type.shape value = .error (f.locate value) := by
    simp [Json.read, hFault, bind, Except.bind, Except.mapError]
  exact ⟨f.locate value, by rw [decode, hRead]⟩

/-! ### Texts and words -/

theorem readItem_quote (optional : Bool) (text : String) :
    Json.read (.item ⟨.text, optional⟩) (Utf8.encode (quote text)) = .ok (.item (.text text)) := by
  have hItem := readItem_literal blank_nil (literal_quote text) optional []
  rw [List.nil_append, List.append_nil] at hItem
  refine read_of_readShape ?_ blank_nil
  rw [readShape, hItem]
  rfl

theorem read_null : Json.read (.item ⟨.unit, false⟩) (Utf8.encode "null") = .ok (.item .unit) := by
  have hText : Utf8.encode "null" = ascii "null" := by decide
  rw [hText]
  rfl

theorem read_absent :
    Json.read (.item ⟨.text, true⟩) (Utf8.encode "null") = .ok (.item .absent) := by
  have hText : Utf8.encode "null" = ascii "null" := by decide
  rw [hText]
  rfl

theorem read_bool (value : Bool) :
    Json.read (.item ⟨.bool, false⟩) (Utf8.encode (Text.bool value)) =
      .ok (.item (.bool value)) := by
  have hText : Utf8.encode (Text.bool value) = ascii (Text.bool value) := by
    cases value <;> decide
  rw [hText]
  cases value <;> rfl

theorem encode_texts (values : List String) :
    Utf8.encode ("[" ++ ",".intercalate (values.map quote) ++ "]") =
      byte '[' :: (separated true (values.map quotedBytes) ++ [byte ']']) := by
  have hOpen : Utf8.encode "[" = [byte '['] := by decide
  have hClose : Utf8.encode "]" = [byte ']'] := by decide
  have hComma : Utf8.encode "," = [byte ','] := by decide
  have hItems : Utf8.encode (",".intercalate (values.map quote)) =
      separated true (values.map quotedBytes) := by
    induction values with
    | nil => rfl
    | cons text values ih =>
        cases values with
        | nil =>
            rw [List.map_singleton, String.intercalate_singleton, List.map_singleton,
              separated_singleton, quotedBytes]
        | cons next values =>
            rw [List.map_cons, List.map_cons, String.intercalate_cons_cons, Utf8.encode_append,
              Utf8.encode_append, hComma, ← List.map_cons, ih, List.append_assoc, List.singleton_append]
            exact (separated_cons_cons (quotedBytes text) (quotedBytes next) _).symm
  rw [Utf8.encode_append, Utf8.encode_append, hOpen, hClose, hItems, List.append_assoc]
  rfl

theorem textOf_texts (values : List String) :
    (values.map Scalar.text).mapM textOf? = some values := by
  induction values with
  | nil => rfl
  | cons text values ih => simp [List.mapM_cons, ih, textOf?]

theorem decode_texts (values : List String) (typeUrl : String) :
    decode .texts ⟨typeUrl, Utf8.encode ("[" ++ ",".intercalate (values.map quote) ++ "]")⟩ =
      .ok (.texts values) := by
  refine decode_of_read .texts (v := .list (values.map .text)) ?_ ?_ typeUrl
  · rw [encode_texts]
    exact read_of_readShape (readShape_texts values) blank_nil
  · rw [ofValue?, textOf_texts]
    rfl

/-! ### Integers -/

theorem int32Kind_fits : MessageType.int32Kind.Fits :=
  ⟨by decide, by decide, by decide, by decide⟩

theorem word8Kind_fits : MessageType.word8Kind.Fits :=
  ⟨by decide, by decide, by decide, by decide⟩

/-- An integer is decoded as a type of integers if it is in range, and refused otherwise. -/
theorem decode_integer (type : MessageType) {kind : IntKind} (n : Int) (hKind : kind.Fits)
    (hShape : type.shape = .item ⟨.int kind, false⟩)
    (hValue : ofValue? type (.item (.int n)) = some (.int n)) (typeUrl : String) :
    if kind.low ≤ n ∧ n ≤ kind.high then
      decode type ⟨typeUrl, Utf8.encode (toString n)⟩ = .ok (.int n)
    else ∃ cause, decode type ⟨typeUrl, Utf8.encode (toString n)⟩ =
      .error (.decode typeUrl cause) := by
  have hDecides := readScalar_integer hKind n ends_nil
  rw [List.append_nil, integerText, ← readItem_required] at hDecides
  split
  · next hIn =>
      refine decode_of_read type ?_ hValue typeUrl
      rw [hShape]
      refine read_of_readShape ?_ blank_nil
      rw [readShape, hDecides.1 hIn]
      rfl
  · next hOut =>
      obtain ⟨f, hFault⟩ := hDecides.2 hOut
      refine decode_of_fault (f := f) ?_ typeUrl
      rw [hShape, readShape, hFault]
      rfl

/-! ### There and back -/

theorem encode_of_toJson? {m : Message} {s : String} (h : m.toJson? = some s) :
    encode m = .ok ⟨"", Utf8.encode s⟩ := by
  rw [encode, h]
  rfl

theorem decode_encode_of_hasType {m : Message} {type : MessageType} (h : HasType m type) :
    ∃ s, m.toJson? = some s ∧ decode type ⟨"", Utf8.encode s⟩ = .ok m := by
  cases h with
  | echo text => exact ⟨_, rfl, decode_echoText (echoText_encode text) ""⟩
  | text value => exact ⟨quote value, rfl, decode_of_read .text (readItem_quote false value) rfl ""⟩
  | unit => exact ⟨"null", rfl, decode_of_read .unit read_null rfl ""⟩
  | bool value => exact ⟨Text.bool value, rfl, decode_of_read .bool (read_bool value) rfl ""⟩
  | @int32 n low high =>
      have hDecode := decode_integer .int32 n int32Kind_fits rfl rfl ""
      rw [if_pos ⟨low, high⟩] at hDecode
      exact ⟨toString n, rfl, hDecode⟩
  | @word8 n low high =>
      have hDecode := decode_integer .word8 n word8Kind_fits rfl rfl ""
      rw [if_pos ⟨low, high⟩] at hDecode
      exact ⟨toString n, rfl, hDecode⟩
  | texts values => exact ⟨_, rfl, decode_texts values ""⟩
  | optionalText value =>
      cases value with
      | none => exact ⟨"null", rfl, decode_of_read .optionalText read_absent rfl ""⟩
      | some text => exact ⟨quote text, rfl, decode_of_read .optionalText (readItem_quote true text) rfl ""⟩

/-- Messages survive their encoding. Each is decoded as itself from a payload without a type tag; an integer
is decoded as a type of integers just if it is in range, and refused with the tag of the payload otherwise;
and an echo message is decoded as the same from its compact form and from every other form that adds blanks
and members of other names. -/
theorem json_round_trip :
    (∀ m type, HasType m type →
      ∃ value, encode m = .ok ⟨"", value⟩ ∧ decode type ⟨"", value⟩ = .ok m) ∧
    (∀ n : Int, ∃ value, encode (.int n) = .ok ⟨"", value⟩ ∧ ∀ typeUrl,
      (if -2147483648 ≤ n ∧ n ≤ 2147483647 then
        decode .int32 ⟨typeUrl, value⟩ = .ok (.int n)
      else ∃ cause, decode .int32 ⟨typeUrl, value⟩ = .error (.decode typeUrl cause)) ∧
      (if 0 ≤ n ∧ n ≤ 255 then decode .word8 ⟨typeUrl, value⟩ = .ok (.int n)
      else ∃ cause, decode .word8 ⟨typeUrl, value⟩ = .error (.decode typeUrl cause))) ∧
    (∀ text, ∃ literal, Literal text literal ∧
      encode (.echo text) = .ok ⟨"", ascii "\x7b\"data\":" ++ literal ++ ascii "\x7d"⟩ ∧
      EchoText text (ascii "\x7b\"data\":" ++ literal ++ ascii "\x7d")) ∧
    ∀ text value, EchoText text value →
      ∀ typeUrl, decode .echo ⟨typeUrl, value⟩ = .ok (.echo text) := by
  refine ⟨fun m type h => ?_, fun n => ⟨_, encode_of_toJson? rfl, fun typeUrl => ?_⟩,
    fun text => ?_, fun text value h => decode_echoText h⟩
  · obtain ⟨s, hText, hDecode⟩ := decode_encode_of_hasType h
    exact ⟨_, encode_of_toJson? hText, hDecode⟩
  · exact ⟨decode_integer .int32 n int32Kind_fits rfl rfl typeUrl,
      decode_integer .word8 n word8Kind_fits rfl rfl typeUrl⟩
  · refine ⟨_, literal_quote text, ?_, ?_⟩
    · rw [← encode_echo]
      exact encode_of_toJson? rfl
    · rw [← encode_echo]
      exact echoText_encode text

/-- A list of texts comes back, and an echo message with a nested member beside its own and with blanks is
read as if it stood alone. -/
theorem json_round_trip_of_padded_echo :
    (∃ value, encode (.texts ["a\"", "\\"]) = .ok ⟨"", value⟩ ∧
      decode .texts ⟨"", value⟩ = .ok (.texts ["a\"", "\\"])) ∧
    decode .echo ⟨"tag", ascii " \x7b\"n\":[null,\x7b\x7d],\"data\" : \"hi\" \x7d "⟩ =
      .ok (.echo "hi") := by
  refine ⟨json_round_trip.1 _ _ (.texts _), json_round_trip.2.2.2 "hi" _ ?_ "tag"⟩
  have hSpace : Blank [byte ' '] := by
    intro b hb
    rw [List.mem_singleton.mp hb]
    rfl
  have hInside : WellFormed (.inside .list) (ascii "null,\x7b\x7d") :=
    .more blank_nil (.element (.scalar .null)) blank_nil
      (.last blank_nil (.element (@WellFormed.empty .object [] blank_nil)) blank_nil)
  have hOther : Member "n" (WellFormed .value) (ascii "\"n\":[null,\x7b\x7d]") :=
    .parts blank_nil (literal_quote "n") blank_nil blank_nil (WellFormed.nested hInside) blank_nil
  have hData : Member "data" (Literal "hi") (ascii "\"data\" : \"hi\" ") :=
    .parts blank_nil (literal_quote "data") hSpace hSpace (literal_quote "hi") hSpace
  have hNone : ∀ m ∈ [], Foreign m := nofun
  exact .object hSpace (List.forall_mem_singleton.mpr ⟨"n", by decide, hOther⟩) hData hNone hSpace

end PeerLink.Message

import PeerLink.Message
import PeerLink.Proofs.Json.Members
import PeerLink.Proofs.Json.Reading

/-! Echo messages as payloads. A message may be written with blanks and with members of other names
(`EchoText`), and all that is read as the same message (`decode_echoText`). One that was decoded can be
encoded again, which gives its compact form; that is not much longer than the payload from which the message
came (`length_encode_of_decode`). -/
namespace PeerLink

open Text

namespace Message

open Json

/-- The text of an echo message fits into the payload from which it was decoded. -/
theorem length_of_decode {p : Payload} {text : String} (h : decode .echo p = .ok (.echo text)) :
    (Utf8.encode text).length ≤ p.value.length := by
  have hRead : read MessageType.echo.shape p.value = .ok (.record [.text text]) := by
    unfold decode at h
    split at h
    · cases h
    · next value hRead =>
        split at h
        · next message hValue =>
            cases h
            unfold ofValue? at hValue
            split at hValue <;> simp_all
        · cases h
  have hTexts : ∀ f ∈ MessageType.echoKind.fields, f.IsText := by
    intro f hf
    rw [List.mem_singleton.mp hf]
    exact ⟨rfl, rfl⟩
  exact size_of_read hTexts hRead _ List.mem_cons_self

theorem length_encode_of_decode {p q : Payload} {text : String}
    (h : decode .echo p = .ok (.echo text)) (hEncode : encode (.echo text) = .ok q) :
    q.value.length ≤ 6 * p.value.length + 11 := by
  cases hEncode
  have hText := length_of_decode h
  have hQuoted := length_encode_quote text
  have hOpen : (Utf8.encode "\x7b\"data\":").length = 8 := by decide
  have hClose : (Utf8.encode "\x7d").length = 1 := by decide
  rw [Payload.ofValue, Utf8.encode_append, Utf8.encode_append, List.length_append, List.length_append,
    hOpen, hClose]
  omega

/-- A member of an echo message that is not its text. -/
def Foreign (m : Bytes) : Prop :=
  ∃ name ≠ "data", Member name (WellFormed .value) m

/-- An echo message in JSON: an object with a member for the text and with any others around it. -/
inductive EchoText (text : String) : Bytes → Prop where
  | object {w v data : Bytes} {before after : List Bytes} (leading : Blank w)
      (hBefore : ∀ m ∈ before, Foreign m) (hData : Member "data" (Literal text) data)
      (hAfter : ∀ m ∈ after, Foreign m) (trailing : Blank v) :
      EchoText text (w ++ byte '\x7b' ::
        ([byte ','].intercalate (before ++ data :: after) ++ byte '\x7d' :: v))

theorem decode_of_read (type : MessageType) {value : Bytes} {v : Value} {m : Message}
    (hRead : Json.read type.shape value = .ok v) (hValue : ofValue? type v = some m)
    (typeUrl : String) : decode type ⟨typeUrl, value⟩ = .ok m := by
  rw [decode, hRead]
  dsimp only
  rw [hValue]

theorem takesAll_foreign {known : Known} {ms : List Bytes} (h : ∀ m ∈ ms, Foreign m) :
    TakesAll MessageType.echoKind known ms known := by
  induction ms with
  | nil => exact .nil
  | cons m ms ih =>
      obtain ⟨⟨name, hName, member⟩, hLater⟩ := List.forall_mem_cons.mp h
      refine .cons (.other ?_ member) (ih hLater)
      exact List.find?_eq_none.mpr fun f hf => by
        rw [List.mem_singleton.mp hf]
        simpa using hName.symm

theorem decode_echoText {text : String} {value : Bytes} (h : EchoText text value)
    (typeUrl : String) : decode .echo ⟨typeUrl, value⟩ = .ok (.echo text) := by
  obtain @⟨w, v, data, before, after, leading, hBefore, hData, hAfter, trailing⟩ := h
  have hField : MessageType.echoKind.fields.find? (fun f => f.name == "data") =
      some ⟨"data", ⟨.text, false⟩, none⟩ := by decide
  have hTakes : TakesAll MessageType.echoKind [] (before ++ data :: after)
      [("data", .text text)] :=
    (takesAll_foreign hBefore).append
      (.cons (.text hField rfl rfl hData) (takesAll_foreign hAfter))
  refine decode_of_read .echo (v := .record [.text text]) ?_ rfl typeUrl
  rw [← separated_true]
  exact read_of_readShape (readShape_object hTakes rfl leading) trailing

/-- The compact form of an echo message. -/
theorem encode_echo (text : String) :
    Utf8.encode ("\x7b\"data\":" ++ quote text ++ "\x7d") =
      ascii "\x7b\"data\":" ++ Utf8.encode (quote text) ++ ascii "\x7d" := by
  rw [Utf8.encode_append, Utf8.encode_append]
  rfl

theorem echoText_encode (text : String) :
    EchoText text (Utf8.encode ("\x7b\"data\":" ++ quote text ++ "\x7d")) := by
  have hData : Member "data" (Literal text)
      (ascii "\"data\":" ++ Utf8.encode (quote text)) := by
    have hKey : Literal "data" (ascii "\"data\"") := literal_quote "data"
    have hMember := Member.parts blank_nil hKey blank_nil blank_nil (literal_quote text) blank_nil
    rwa [List.append_nil] at hMember
  have hAlone : ∀ m ∈ [], Foreign m := nofun
  have hObject := EchoText.object blank_nil hAlone hData hAlone blank_nil
  rw [encode_echo, List.append_assoc]
  rwa [List.nil_append, List.nil_append, List.intercalate_singleton, List.append_assoc] at hObject

/-- The compact form of an echo message is read as the message. -/
theorem decode_encode_echo (text : String) {p : Payload} (h : encode (.echo text) = .ok p) :
    decode .echo p = .ok (.echo text) := by
  cases h
  exact decode_echoText (echoText_encode text) ""

end Message

end PeerLink

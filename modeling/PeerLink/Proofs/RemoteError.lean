import PeerLink.RemoteError
import PeerLink.Proofs.Json.Members

/-! Errors in JSON. A written error is an object of two members with text values, and is read back as
it was (`ofJson_toJson`), empty fields included. Filling empty fields in changes nothing else. -/
namespace PeerLink

open Text Json

namespace RemoteError

theorem encode_toJson (e : RemoteError) :
    Utf8.encode e.toJson =
      byte '\x7b' :: (separated true [textMember "name" e.name, textMember "message" e.message] ++
        [byte '\x7d']) := by
  have hOpen : Utf8.encode "\x7b\"name\":" =
      byte '\x7b' :: (Utf8.encode (quote "name") ++ [byte ':']) := by decide
  have hNext : Utf8.encode ",\"message\":" =
      byte ',' :: (Utf8.encode (quote "message") ++ [byte ':']) := by decide
  have hClose : Utf8.encode "\x7d" = [byte '\x7d'] := by decide
  rw [separated_cons_cons, separated_singleton]
  simp only [toJson, Utf8.encode_append, hOpen, hNext, hClose, textMember]
  simp

/-- A written error is read back. -/
theorem ofJson_toJson (e : RemoteError) : ofJson (Utf8.encode e.toJson) = .ok e := by
  have hName : kind.fields.find? (fun f => f.name == "name") =
      some ⟨"name", ⟨.text, false⟩, none⟩ := by decide
  have hMessage : kind.fields.find? (fun f => f.name == "message") =
      some ⟨"message", ⟨.text, false⟩, none⟩ := by decide
  have hTakes : TakesAll kind [] [textMember "name" e.name, textMember "message" e.message]
      [("message", .text e.message), ("name", .text e.name)] :=
    .cons (.text hName rfl rfl (member_textMember _ _))
      (.cons (.text hMessage rfl rfl (member_textMember _ _)) .nil)
  have hComplete : completeFields [("message", .text e.message), ("name", .text e.name)] kind.fields =
      .ok [.text e.name, .text e.message] := rfl
  have hRead : Json.read (.record kind) (Utf8.encode e.toJson) =
      .ok (.record [.text e.name, .text e.message]) := by
    rw [encode_toJson]
    exact read_of_readShape (readShape_object hTakes hComplete blank_nil) blank_nil
  rw [ofJson, hRead]
  rfl

/-- An error with both fields is complete. -/
theorem normalized_of_ne {e : RemoteError} (hName : e.name ≠ "") (hMessage : e.message ≠ "") :
    e.normalized = e := by
  have hName : e.name.isEmpty = false := by simpa using hName
  have hMessage : e.message.isEmpty = false := by simpa using hMessage
  simp [normalized, new, hName, hMessage]

theorem normalized_normalized (e : RemoteError) : e.normalized.normalized = e.normalized :=
  normalized_of_ne (new_name_ne _ _) (new_message_ne _ _)

end RemoteError

end PeerLink

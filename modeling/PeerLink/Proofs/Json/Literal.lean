import PeerLink.Json.Literal
import PeerLink.Proofs.Text.Utf8

/-! The bytes of string literals. A character that is not escaped has no byte that ends a literal or starts an
escape (`plain_encodeChar`), and so its bytes are read one by one as they are. An escape stands for some
bytes of its own. -/
namespace PeerLink.Json

open Text

/-- A byte that stands for itself in a literal: no quote, backslash or control character. -/
def Plain (b : UInt8) : Prop :=
  b.toNat ≠ 0x22 ∧ b.toNat ≠ 0x5C ∧ 0x20 ≤ b.toNat

theorem readTextBytes_plain {b : UInt8} (hPlain : Plain b) (before s : Bytes) :
    readTextBytes before (b :: s) = readTextBytes (b :: before) s := by
  obtain ⟨hQuote, hBackslash, hControl⟩ := hPlain
  rw [readTextBytes, if_neg fun h => hQuote (by rw [h]; rfl),
    if_neg fun h => hBackslash (by rw [h]; rfl),
    if_neg fun h => Nat.not_lt.2 hControl (UInt8.lt_iff_toNat_lt.1 h)]

theorem readTextBytes_plains {bytes : Bytes} (hPlain : ∀ b ∈ bytes, Plain b) (before s : Bytes) :
    readTextBytes before (bytes ++ s) = readTextBytes (bytes.reverse ++ before) s := by
  induction bytes generalizing before with
  | nil => rfl
  | cons b bytes ih =>
      obtain ⟨hHead, hTail⟩ := List.forall_mem_cons.1 hPlain
      rw [List.cons_append, readTextBytes_plain hHead, ih hTail, List.reverse_cons,
        List.append_assoc, List.singleton_append]

theorem readTextBytes_escape {s rest out : Bytes} (hEscape : readEscape s = .ok (out, rest))
    (before : Bytes) :
    readTextBytes before (byte '\\' :: s) = readTextBytes (out.reverse ++ before) rest := by
  rw [readTextBytes, if_neg (by decide), if_pos rfl]
  split
  · next h => rw [hEscape] at h; cases h; rfl
  · next h => rw [hEscape] at h; cases h

theorem readTextBytes_close (before s : Bytes) :
    readTextBytes before (byte '"' :: s) = .ok (before.reverse, s) := by
  rw [readTextBytes, if_pos rfl]

/-- An ASCII character is one byte, and the bytes of any other character are above ASCII. -/
theorem encodeChar_ascii_or (c : Char) :
    c.toNat < 0x80 ∧ String.utf8EncodeChar c = [UInt8.ofNat c.toNat] ∨
      ∀ b ∈ String.utf8EncodeChar c, 0x80 ≤ b.toNat := by
  have hValid : c.toNat.isValidChar := c.valid
  rw [← Char.ofNat_toNat c, Utf8.encodeChar_ofNat hValid, Char.ofNat_toNat]
  split
  · next hAscii => exact .inl ⟨Nat.lt_succ_of_le hAscii, rfl⟩
  · right
    split
    · simp; omega
    · split <;> simp <;> omega

theorem toNat_ne {c d : Char} (h : c ≠ d) : c.toNat ≠ d.toNat :=
  fun hEq => h (Char.toNat_inj.1 hEq)

theorem plain_encodeChar {c : Char} (hQuote : c ≠ '"') (hBackslash : c ≠ '\\')
    (hControl : ¬ c.toNat < 0x20) : ∀ b ∈ String.utf8EncodeChar c, Plain b := by
  intro b hb
  obtain ⟨hAscii, hBytes⟩ | hHigh := encodeChar_ascii_or c
  · rw [hBytes, List.mem_singleton] at hb
    have hb : b.toNat = c.toNat := by
      rw [hb]
      exact UInt8.toNat_ofNat_of_lt' (by change _ < 256; omega)
    rw [Plain, hb]
    exact ⟨toNat_ne hQuote, toNat_ne hBackslash, Nat.le_of_not_lt hControl⟩
  · have := hHigh b hb
    rw [Plain]
    omega

theorem hexDigit?_digitChar : ∀ d < 16, hexDigit? (byte (Nat.digitChar d)) = some d := by
  decide

theorem encodeChar_digitChar :
    ∀ d < 16, String.utf8EncodeChar (Nat.digitChar d) = [byte (Nat.digitChar d)] := by
  decide

theorem encode_control {n : Nat} (h : n < 0x20) :
    Utf8.encode ("\\u00" ++ String.ofList [Nat.digitChar (n / 16), Nat.digitChar (n % 16)]) =
      byte '\\' :: [byte 'u', byte '0', byte '0', byte (Nat.digitChar (n / 16)),
        byte (Nat.digitChar (n % 16))] := by
  have hPrefix : Utf8.encode "\\u00" = [byte '\\', byte 'u', byte '0', byte '0'] := by decide
  rw [Utf8.encode_append, hPrefix, Utf8.encode_ofList, List.flatMap_cons, List.flatMap_singleton,
    encodeChar_digitChar _ (by omega), encodeChar_digitChar _ (by omega)]
  rfl

theorem encode_quote (text : String) :
    Utf8.encode (quote text) =
      byte '"' :: (text.toList.flatMap (fun c => Utf8.encode (quoteChar c)) ++ [byte '"']) := by
  have hQuote : Utf8.encode "\"" = [byte '"'] := by decide
  rw [quote, Utf8.encode_append, Utf8.encode_append, hQuote, Utf8.encode, String.toList_join,
    List.flatMap_map, List.flatMap_assoc]
  rfl

end PeerLink.Json

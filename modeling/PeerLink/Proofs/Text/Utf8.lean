import PeerLink.Text.Utf8
import Mathlib.Data.List.Basic
import Mathlib.Tactic.SplitIfs

/-! Reading UTF-8 against writing it. A character is read exactly where its encoding stands
(`head_encodeChar`, `encodeChar_of_head`). So the bytes of a text are read as that text
(`decode_encode`), and whatever is read as a text is that text's bytes (`encode_of_decode`): no two
byte strings are read as the same text. -/
namespace PeerLink.Text.Utf8

/-- The number that further bytes of a character make out of the bits before them. -/
def joined (bits : Nat) (following : Bytes) : Nat :=
  following.foldl (fun n b => n * 64 + b.toNat % 64) bits

theorem tail_eq_char_iff {n bits used : Nat} {s rest : Bytes} {c : Char} :
    tail n bits used s = .char c rest ↔
      ∃ following : Bytes, following.length = n ∧
        (∀ b ∈ following, 0x80 ≤ b.toNat ∧ b.toNat ≤ 0xBF) ∧ s = following ++ rest ∧
        c = Char.ofNat (joined bits following) := by
  fun_induction tail n bits used s with
  | case1 bits used s => simp [joined, eq_comm, and_comm]
  | case2 =>
      constructor
      · rintro ⟨⟩
      · rintro ⟨_ | _, hLength, -, hSplit, -⟩
        · cases hLength
        · cases hSplit
  | case3 bits used n b s hIn ih =>
      rw [ih]
      constructor
      · rintro ⟨following, hLength, hAll, rfl, rfl⟩
        exact ⟨b :: following, congrArg (· + 1) hLength, List.forall_mem_cons.2 ⟨hIn, hAll⟩,
          rfl, rfl⟩
      · rintro ⟨_ | ⟨_, following⟩, hLength, hAll, hSplit, rfl⟩
        · cases hLength
        · cases hSplit
          exact ⟨following, Nat.succ.inj hLength, (List.forall_mem_cons.1 hAll).2, rfl, rfl⟩
  | case4 bits used n b s hOut =>
      constructor
      · rintro ⟨⟩
      · rintro ⟨_ | ⟨_, following⟩, hLength, hAll, hSplit, -⟩
        · cases hLength
        · cases hSplit
          exact absurd (hAll _ List.mem_cons_self) hOut

/-- The first two bytes of a character that has `n` bytes behind the first. -/
def Opens (n : Nat) (b second : UInt8) : Prop :=
  0x80 ≤ second.toNat ∧ second.toNat ≤ 0xBF ∧
    (n = 1 ∧ 0xC2 ≤ b.toNat ∧ b.toNat < 0xE0 ∨
      n = 2 ∧ 0xE0 ≤ b.toNat ∧ b.toNat < 0xF0 ∧
        (b.toNat = 0xE0 → 0xA0 ≤ second.toNat) ∧ (b.toNat = 0xED → second.toNat ≤ 0x9F) ∨
      n = 3 ∧ 0xF0 ≤ b.toNat ∧ b.toNat ≤ 0xF4 ∧
        (b.toNat = 0xF0 → 0x90 ≤ second.toNat) ∧ (b.toNat = 0xF4 → second.toNat ≤ 0x8F))

theorem opens_iff {n : Nat} {b second : UInt8} :
    Opens n b second ↔
      ∃ low high, leads b = some (n, low, high) ∧ low ≤ second ∧ second ≤ high := by
  unfold Opens leads
  simp only [UInt8.lt_iff_toNat_lt, UInt8.le_iff_toNat_le, ← UInt8.toNat_inj]
  split_ifs <;>
    simp only [Option.some.injEq, Prod.mk.injEq, and_assoc, exists_and_left, exists_eq_left',
      false_and, exists_const, iff_false, UInt8.reduceToNat] at * <;>
    omega

theorem Opens.pos {n : Nat} {b second : UInt8} (h : Opens n b second) : n - 1 + 1 = n := by
  obtain ⟨-, -, h | h | h⟩ := h <;> omega

/-- A character that starts with no ASCII byte. -/
theorem head_eq_char_iff_of_long {b : UInt8} {s rest : Bytes} {c : Char} (hLong : 0x80 ≤ b.toNat) :
    head b s = .char c rest ↔
      ∃ second following, Opens (following.length + 1) b second ∧
        (∀ b ∈ following, 0x80 ≤ b.toNat ∧ b.toNat ≤ 0xBF) ∧ s = second :: following ++ rest ∧
        c = Char.ofNat (joined (leadBits (following.length + 1) b) (second :: following)) := by
  rw [head, if_neg (by rw [UInt8.lt_iff_toNat_lt]; exact Nat.not_lt.2 hLong)]
  constructor
  · intro h
    split at h
    · cases h
    · next n low high hLead =>
        split at h
        · cases h
        · next second s =>
            split at h
            · next hIn =>
                have hOpens := opens_iff.2 ⟨low, high, hLead, hIn⟩
                obtain ⟨following, hLength, hAll, rfl, rfl⟩ := tail_eq_char_iff.1 h
                rw [← hOpens.pos, ← hLength] at hOpens
                refine ⟨second, following, hOpens, hAll, rfl, ?_⟩
                rw [hLength, (opens_iff.2 ⟨low, high, hLead, hIn⟩).pos]
                rfl
            · cases h
  · rintro ⟨second, following, hOpens, hAll, rfl, rfl⟩
    obtain ⟨low, high, hLead, hIn⟩ := opens_iff.1 hOpens
    rw [hLead]
    exact (if_pos hIn).trans (tail_eq_char_iff.2 ⟨following, rfl, hAll, rfl, rfl⟩)

theorem encodeChar_ofNat {v : Nat} (hValid : v.isValidChar) :
    String.utf8EncodeChar (Char.ofNat v) =
      if v ≤ 127 then [UInt8.ofNat v]
      else if v ≤ 2047 then [UInt8.ofNat (v / 64 % 32 + 192), UInt8.ofNat (v % 64 + 128)]
      else if v ≤ 65535 then
        [UInt8.ofNat (v / 4096 % 16 + 224), UInt8.ofNat (v / 64 % 64 + 128),
          UInt8.ofNat (v % 64 + 128)]
      else
        [UInt8.ofNat (v / 262144 % 8 + 240), UInt8.ofNat (v / 4096 % 64 + 128),
          UInt8.ofNat (v / 64 % 64 + 128), UInt8.ofNat (v % 64 + 128)] := by
  have hVal : (Char.ofNat v).val.toNat = v := by
    rw [Char.ofNat, dif_pos hValid]
    exact UInt32.toNat_ofNatLT
  rw [String.utf8EncodeChar, hVal]

theorem isValidChar_iff {v : Nat} : v.isValidChar ↔ v < 0xD800 ∨ 0xDFFF < v ∧ v < 0x110000 :=
  Iff.rfl

/-- The encoding of a character is read as that character. -/
theorem head_encodeChar (c : Char) (rest : Bytes) :
    ∃ b s, String.utf8EncodeChar c ++ rest = b :: s ∧ head b s = .char c rest := by
  have hValid := isValidChar_iff.1 c.valid
  rw [← Char.ofNat_toNat c]
  change c.toNat < _ ∨ _ < c.toNat ∧ c.toNat < _ at hValid
  generalize c.toNat = v at hValid ⊢
  rw [encodeChar_ofNat hValid]
  split_ifs with hOne hTwo hThree
  all_goals refine ⟨_, _, rfl, ?_⟩
  · have hv : (UInt8.ofNat v).toNat = v := UInt8.toNat_ofNat_of_lt' (by change v < 256; omega)
    rw [head, if_pos (by rw [UInt8.lt_iff_toNat_lt, hv]; exact Nat.lt_succ_of_le hOne), hv]
    rfl
  · rw [head_eq_char_iff_of_long (by simp; omega)]
    refine ⟨_, [], by simp [Opens]; omega, nofun, rfl, congrArg Char.ofNat ?_⟩
    simp [joined, leadBits]
    omega
  · rw [head_eq_char_iff_of_long (by simp; omega)]
    refine ⟨_, [_], by simp [Opens]; omega, by simp; omega, rfl, congrArg Char.ofNat ?_⟩
    simp [joined, leadBits]
    omega
  · rw [head_eq_char_iff_of_long (by simp; omega)]
    refine ⟨_, [_, _], by simp [Opens]; omega, by simp; omega, rfl, congrArg Char.ofNat ?_⟩
    simp [joined, leadBits]
    omega

/-- A character that is read has its encoding in front. -/
theorem encodeChar_of_head {b : UInt8} {s rest : Bytes} {c : Char} (h : head b s = .char c rest) :
    b :: s = String.utf8EncodeChar c ++ rest := by
  have hByte := b.toNat_lt
  by_cases hAscii : b.toNat < 0x80
  · rw [head, if_pos (UInt8.lt_iff_toNat_lt.2 hAscii)] at h
    cases h
    rw [encodeChar_ofNat (.inl (by omega)), if_pos (Nat.le_of_lt_succ hAscii), UInt8.ofNat_toNat]
    rfl
  rw [head_eq_char_iff_of_long (Nat.le_of_not_lt hAscii)] at h
  obtain ⟨second, following, ⟨hLow, hHigh, hLead⟩, hAll, rfl, rfl⟩ := h
  obtain ⟨hLength, hLead⟩ | ⟨hLength, hLead⟩ | ⟨hLength, hLead⟩ := hLead
  · obtain rfl := List.eq_nil_of_length_eq_zero (Nat.succ.inj hLength)
    change _ = String.utf8EncodeChar (Char.ofNat (b.toNat % 32 * 64 + second.toNat % 64)) ++ _
    rw [encodeChar_ofNat (isValidChar_iff.2 (by omega)), if_neg (by omega), if_pos (by omega)]
    simp [← UInt8.toNat_inj]
    omega
  · obtain ⟨third, rfl⟩ := List.length_eq_one_iff.1 (Nat.succ.inj hLength)
    have hThird := hAll third List.mem_cons_self
    change _ = String.utf8EncodeChar
      (Char.ofNat ((b.toNat % 16 * 64 + second.toNat % 64) * 64 + third.toNat % 64)) ++ _
    rw [encodeChar_ofNat (isValidChar_iff.2 (by omega)), if_neg (by omega), if_neg (by omega),
      if_pos (by omega)]
    simp [← UInt8.toNat_inj]
    omega
  · obtain ⟨third, fourth, rfl⟩ := List.length_eq_two.1 (Nat.succ.inj hLength)
    have hThird := hAll third List.mem_cons_self
    have hFourth := hAll fourth (List.mem_cons_of_mem _ List.mem_cons_self)
    change _ = String.utf8EncodeChar
      (Char.ofNat (((b.toNat % 8 * 64 + second.toNat % 64) * 64 + third.toNat % 64) * 64 +
        fourth.toNat % 64)) ++ _
    rw [encodeChar_ofNat (isValidChar_iff.2 (by omega)), if_neg (by omega), if_neg (by omega),
      if_neg (by omega)]
    simp [← UInt8.toNat_inj]
    omega

theorem encode_ofList (l : List Char) :
    encode (String.ofList l) = l.flatMap String.utf8EncodeChar := by
  rw [encode, String.toList_ofList]

theorem encode_append (s t : String) : encode (s ++ t) = encode s ++ encode t := by
  rw [encode, String.toList_append, List.flatMap_append, encode, encode]

theorem decodeFrom_encode (index : Nat) (before l : List Char) :
    decodeFrom index before (l.flatMap String.utf8EncodeChar) =
      .ok (String.ofList (before.reverse ++ l)) := by
  induction l generalizing index before with
  | nil => rw [List.flatMap_nil, decodeFrom, List.append_nil]
  | cons c l ih =>
      obtain ⟨b, s, hSplit, hHead⟩ := head_encodeChar c (l.flatMap String.utf8EncodeChar)
      rw [List.flatMap_cons, hSplit, decodeFrom]
      split
      · next hChar =>
          rw [hHead] at hChar
          cases hChar
          rw [ih, List.reverse_cons, List.append_assoc, List.singleton_append]
      · next hInvalid => rw [hHead] at hInvalid; cases hInvalid
      · next hIncomplete => rw [hHead] at hIncomplete; cases hIncomplete

/-- The bytes of a text are read as the text. -/
theorem decode_encode (s : String) : decode (encode s) = .ok s := by
  rw [decode, encode, decodeFrom_encode, List.reverse_nil, List.nil_append, String.ofList_toList]

theorem encode_of_decodeFrom {index : Nat} {before : List Char} {s : Bytes} {text : String}
    (h : decodeFrom index before s = .ok text) :
    encode text = before.reverse.flatMap String.utf8EncodeChar ++ s := by
  fun_induction decodeFrom index before s with
  | case1 index before =>
      cases h
      rw [encode_ofList, List.append_nil]
  | case2 index before b s c rest hHead ih =>
      rw [ih h, encodeChar_of_head hHead, List.reverse_cons, List.flatMap_append,
        List.flatMap_singleton, List.append_assoc]
  | case3 => cases h
  | case4 => cases h

/-- Bytes that are read as a text are the bytes of that text. -/
theorem encode_of_decode {s : Bytes} {text : String} (h : decode s = .ok text) : encode text = s :=
  encode_of_decodeFrom h

end PeerLink.Text.Utf8

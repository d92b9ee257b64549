import PeerLink.Proofs.Json.Literal

/-! The string literals of JSON. A text has many spellings: a character stands for itself or is escaped, by a
letter or by its number, and one above `FFFF` by the two numbers of a surrogate pair. Each spelling is read as
the text (`readText_of_spells`), and the one that `quote` writes is among them (`spells_quote`). Passing over
a literal asks for less, since the numbers of escapes do not matter there (`skipText_of_inside`). -/
namespace PeerLink.Json

open Text

/-- The letters of the short escapes, with the characters that they stand for. -/
def shortEscapes : List (Char × Char) :=
  [('"', '"'), ('\\', '\\'), ('/', '/'), ('b', '\x08'), ('f', '\x0c'), ('n', '\n'), ('r', '\r'),
    ('t', '\t')]

/-- A hexadecimal digit, in lower or upper case. -/
def IsHexDigit (b : UInt8) (d : Nat) : Prop :=
  d < 16 ∧ (b = byte (Nat.digitChar d) ∨ b = byte (Nat.digitChar d).toUpper)

/-- Four hexadecimal digits, with their number. -/
inductive Hex4 : Bytes → Nat → Prop where
  | digits {a b c d : UInt8} {i j k l : Nat} (ha : IsHexDigit a i) (hb : IsHexDigit b j)
      (hc : IsHexDigit c k) (hd : IsHexDigit d l) :
      Hex4 [a, b, c, d] (((i * 16 + j) * 16 + k) * 16 + l)

/-- A character that may stand for itself in a literal. -/
def Unescaped (c : Char) : Prop :=
  c ≠ '"' ∧ c ≠ '\\' ∧ ¬ c.toNat < 0x20

/-- Between its quotes, a literal that stands for these characters. -/
inductive Spells : Bytes → List Char → Prop where
  | nil : Spells [] []
  | plain {c : Char} {s : Bytes} {cs : List Char} (plain : Unescaped c) (rest : Spells s cs) :
      Spells (String.utf8EncodeChar c ++ s) (c :: cs)
  | short {letter c : Char} {s : Bytes} {cs : List Char} (escape : (letter, c) ∈ shortEscapes)
      (rest : Spells s cs) : Spells (byte '\\' :: byte letter :: s) (c :: cs)
  | numeric {c : Char} {digits s : Bytes} {cs : List Char} (number : Hex4 digits c.toNat)
      (rest : Spells s cs) : Spells (byte '\\' :: byte 'u' :: digits ++ s) (c :: cs)
  | pair {c : Char} {high low s : Bytes} {cs : List Char} (above : 0x10000 ≤ c.toNat)
      (first : Hex4 high (0xD800 + (c.toNat - 0x10000) / 0x400))
      (second : Hex4 low (0xDC00 + (c.toNat - 0x10000) % 0x400)) (rest : Spells s cs) :
      Spells (byte '\\' :: byte 'u' :: high ++ (byte '\\' :: byte 'u' :: low ++ s)) (c :: cs)

/-- Between its quotes, any literal. The number of an escape may be half of a surrogate pair. -/
inductive Inside : Bytes → Prop where
  | nil : Inside []
  | plain {c : Char} {s : Bytes} (plain : Unescaped c) (rest : Inside s) :
      Inside (String.utf8EncodeChar c ++ s)
  | short {letter c : Char} {s : Bytes} (escape : (letter, c) ∈ shortEscapes) (rest : Inside s) :
      Inside (byte '\\' :: byte letter :: s)
  | numeric {n : Nat} {digits s : Bytes} (number : Hex4 digits n) (rest : Inside s) :
      Inside (byte '\\' :: byte 'u' :: digits ++ s)

theorem Spells.inside {s : Bytes} {cs : List Char} (h : Spells s cs) : Inside s := by
  induction h with
  | nil => exact .nil
  | plain plain _ ih => exact .plain plain ih
  | short escape _ ih => exact .short escape ih
  | numeric number _ ih => exact .numeric number ih
  | pair _ first second _ ih => exact .numeric first (.numeric second ih)

/-! ### Escapes -/

theorem hexDigit?_of_isHexDigit {b : UInt8} {d : Nat} (h : IsHexDigit b d) :
    hexDigit? b = some d := by
  have hLower : ∀ d < 16, hexDigit? (byte (Nat.digitChar d)) = some d := hexDigit?_digitChar
  have hUpper : ∀ d < 16, hexDigit? (byte (Nat.digitChar d).toUpper) = some d := by decide
  obtain ⟨hDigit, rfl | rfl⟩ := h
  · exact hLower d hDigit
  · exact hUpper d hDigit

theorem readHex4_of_hex4 {digits : Bytes} {n : Nat} (h : Hex4 digits n) (rest : Bytes) :
    readHex4 (digits ++ rest) = .ok (n, rest) := by
  cases h with
  | digits ha hb hc hd =>
      simp only [List.cons_append, List.nil_append, readHex4, hexDigit?_of_isHexDigit ha,
        hexDigit?_of_isHexDigit hb, hexDigit?_of_isHexDigit hc, hexDigit?_of_isHexDigit hd]

theorem plainEscape?_of_mem {letter c : Char} (h : (letter, c) ∈ shortEscapes) :
    ∃ b, plainEscape? (byte letter) = some b ∧ String.utf8EncodeChar c = [b] := by
  have hAll : ∀ x ∈ shortEscapes, plainEscape? (byte x.1) = some (byte x.2) ∧
      String.utf8EncodeChar x.2 = [byte x.2] := by decide
  exact ⟨byte c, hAll _ h⟩

theorem plainEscape?_u : plainEscape? (byte 'u') = none := by decide

theorem readEscape_short {letter c : Char} (h : (letter, c) ∈ shortEscapes) (rest : Bytes) :
    readEscape (byte letter :: rest) = .ok (String.utf8EncodeChar c, rest) := by
  obtain ⟨b, hEscape, hBytes⟩ := plainEscape?_of_mem h
  rw [readEscape, hEscape, hBytes]

theorem readEscape_of_codePoint {s rest : Bytes} {c : Char} (h : readCodePoint s = .ok (c, rest)) :
    readEscape (byte 'u' :: s) = .ok (String.utf8EncodeChar c, rest) := by
  simp [readEscape, plainEscape?_u, h, bind, Except.bind, pure, Except.pure]

/-- A character is no half of a surrogate pair. -/
theorem not_surrogate (c : Char) :
    isLowSurrogate c.toNat = false ∧ isHighSurrogate c.toNat = false := by
  have hValid := Utf8.isValidChar_iff.1 c.valid
  change c.toNat < _ ∨ _ < c.toNat ∧ c.toNat < _ at hValid
  simp [isLowSurrogate, isHighSurrogate]
  omega

theorem readEscape_numeric {c : Char} {digits : Bytes} (h : Hex4 digits c.toNat) (rest : Bytes) :
    readEscape (byte 'u' :: (digits ++ rest)) = .ok (String.utf8EncodeChar c, rest) := by
  obtain ⟨hLow, hHigh⟩ := not_surrogate c
  refine readEscape_of_codePoint ?_
  simp [readCodePoint, readHex4_of_hex4 h, hLow, hHigh, Char.ofNat_toNat, bind, Except.bind, pure,
    Except.pure]

theorem readEscape_pair {c : Char} {high low : Bytes} (above : 0x10000 ≤ c.toNat)
    (first : Hex4 high (0xD800 + (c.toNat - 0x10000) / 0x400))
    (second : Hex4 low (0xDC00 + (c.toNat - 0x10000) % 0x400)) (rest : Bytes) :
    readEscape (byte 'u' :: (high ++ (byte '\\' :: byte 'u' :: (low ++ rest)))) =
      .ok (String.utf8EncodeChar c, rest) := by
  have hValid := Utf8.isValidChar_iff.1 c.valid
  change c.toNat < _ ∨ _ < c.toNat ∧ c.toNat < _ at hValid
  have hNumber : 0x10000 + (0xD800 + (c.toNat - 0x10000) / 0x400 - 0xD800) * 0x400 +
      (0xDC00 + (c.toNat - 0x10000) % 0x400 - 0xDC00) = c.toNat := by omega
  generalize hFirst : 0xD800 + (c.toNat - 0x10000) / 0x400 = i at first hNumber
  generalize hSecond : 0xDC00 + (c.toNat - 0x10000) % 0x400 = j at second hNumber
  have hLow : isLowSurrogate i = false := by simp [isLowSurrogate]; omega
  have hHigh : isHighSurrogate i = true := by simp [isHighSurrogate]; omega
  have hBehind : isLowSurrogate j = true := by simp [isLowSurrogate]; omega
  refine readEscape_of_codePoint ?_
  simp [readCodePoint, readHex4_of_hex4 first, readHex4_of_hex4 second, hLow, hHigh, hBehind,
    readEscapeByte, hNumber, Char.ofNat_toNat, bind, Except.bind, pure, Except.pure]

/-! ### Literals -/

/-- What a literal spells is what is read. -/
theorem readTextBytes_of_spells {s : Bytes} {cs : List Char} (h : Spells s cs)
    (before rest : Bytes) : readTextBytes before (s ++ byte '"' :: rest) =
      .ok (before.reverse ++ cs.flatMap String.utf8EncodeChar, rest) := by
  have hNext (before : Bytes) (c : Char) (cs : List Char) :
      ((String.utf8EncodeChar c).reverse ++ before).reverse ++ cs.flatMap String.utf8EncodeChar =
        before.reverse ++ (c :: cs).flatMap String.utf8EncodeChar := by
    rw [List.reverse_append, List.reverse_reverse, List.append_assoc, List.flatMap_cons]
  induction h generalizing before with
  | nil =>
      rw [List.nil_append, readTextBytes_close, List.flatMap_nil, List.append_nil]
  | plain plain _ ih =>
      obtain ⟨hQuote, hBackslash, hControl⟩ := plain
      rw [List.append_assoc, readTextBytes_plains (plain_encodeChar hQuote hBackslash hControl), ih,
        hNext]
  | short escape _ ih =>
      rw [List.cons_append, List.cons_append, readTextBytes_escape (readEscape_short escape _), ih,
        hNext]
  | numeric number _ ih =>
      simp only [List.cons_append, List.append_assoc]
      rw [readTextBytes_escape (readEscape_numeric number _), ih, hNext]
  | pair above first second _ ih =>
      simp only [List.cons_append, List.append_assoc]
      rw [readTextBytes_escape (readEscape_pair above first second _), ih, hNext]

theorem readText_of_spells {s : Bytes} {text : String} (h : Spells s text.toList) (rest : Bytes) :
    readText (s ++ byte '"' :: rest) = .ok (text, rest) := by
  have hText : Utf8.decode (text.toList.flatMap String.utf8EncodeChar) = .ok text :=
    Utf8.decode_encode text
  simp [readText, readTextBytes_of_spells h, hText, bind, Except.bind, pure, Except.pure]

theorem skipEscape_short {letter c : Char} (h : (letter, c) ∈ shortEscapes) (rest : Bytes) :
    skipEscape (byte letter :: rest) = .ok rest := by
  obtain ⟨b, hEscape, -⟩ := plainEscape?_of_mem h
  rw [skipEscape, hEscape]
  rfl

theorem skipEscape_numeric {n : Nat} {digits : Bytes} (h : Hex4 digits n) (rest : Bytes) :
    skipEscape (byte 'u' :: (digits ++ rest)) = .ok rest := by
  simp [skipEscape, plainEscape?_u, readHex4_of_hex4 h, bind, Except.bind, pure, Except.pure]

theorem skipText_plains {bytes : Bytes} (hPlain : ∀ b ∈ bytes, Plain b) (s : Bytes) :
    skipText (bytes ++ s) = skipText s := by
  induction bytes with
  | nil => rfl
  | cons b bytes ih =>
      obtain ⟨⟨hQuote, hBackslash, hControl⟩, hTail⟩ := List.forall_mem_cons.1 hPlain
      rw [List.cons_append, skipText, if_neg fun h => hQuote (by rw [h]; rfl),
        if_neg fun h => hBackslash (by rw [h]; rfl),
        if_neg fun h => Nat.not_lt.2 hControl (UInt8.lt_iff_toNat_lt.1 h), ih hTail]

theorem skipText_escape {s rest : Bytes} (h : skipEscape s = .ok rest) :
    skipText (byte '\\' :: s) = skipText rest := by
  rw [skipText, if_neg (by decide), if_pos rfl]
  split
  · next hRest => rw [h] at hRest; cases hRest; rfl
  · next hFault => rw [h] at hFault; cases hFault

/-- Every literal is passed over. -/
theorem skipText_of_inside {s : Bytes} (h : Inside s) (rest : Bytes) :
    skipText (s ++ byte '"' :: rest) = .ok rest := by
  induction h with
  | nil => rw [List.nil_append, skipText, if_pos rfl]
  | plain plain _ ih =>
      obtain ⟨hQuote, hBackslash, hControl⟩ := plain
      rw [List.append_assoc, skipText_plains (plain_encodeChar hQuote hBackslash hControl), ih]
  | short escape _ ih =>
      rw [List.cons_append, List.cons_append, skipText_escape (skipEscape_short escape _), ih]
  | numeric number _ ih =>
      simp only [List.cons_append, List.append_assoc]
      rw [skipText_escape (skipEscape_numeric number _), ih]

/-! ### Written literals -/

/-- A character is written as one of its spellings. -/
theorem Spells.quoteChar {s : Bytes} {cs : List Char} (c : Char) (h : Spells s cs) :
    Spells (Utf8.encode (Json.quoteChar c) ++ s) (c :: cs) := by
  have hShort (letter : Char) (hEscape : (letter, c) ∈ shortEscapes) :
      Spells (byte '\\' :: byte letter :: s) (c :: cs) := .short hEscape h
  rw [Json.quoteChar]
  split_ifs with hQuote hBackslash hBack hForm hLine hReturn hTab hControl
  · exact hShort '"' (by rw [hQuote]; decide)
  · exact hShort '\\' (by rw [hBackslash]; decide)
  · exact hShort 'b' (by rw [hBack]; decide)
  · exact hShort 'f' (by rw [hForm]; decide)
  · exact hShort 'n' (by rw [hLine]; decide)
  · exact hShort 'r' (by rw [hReturn]; decide)
  · exact hShort 't' (by rw [hTab]; decide)
  · have hDigit {d : Nat} (hd : d < 16) : IsHexDigit (byte (Nat.digitChar d)) d := ⟨hd, .inl rfl⟩
    have hHigh : c.toNat / 16 < 16 := by omega
    have hLow : c.toNat % 16 < 16 := by omega
    have hNumber := Hex4.digits (hDigit (by decide : 0 < 16)) (hDigit (by decide : 0 < 16))
      (hDigit hHigh) (hDigit hLow)
    have hValue : ((0 * 16 + 0) * 16 + c.toNat / 16) * 16 + c.toNat % 16 = c.toNat := by omega
    rw [hValue] at hNumber
    rw [encode_control hControl]
    exact .numeric hNumber h
  · have hBytes : Utf8.encode c.toString = String.utf8EncodeChar c := by
      simp [Utf8.encode, Char.toString]
    rw [hBytes]
    exact .plain ⟨hQuote, hBackslash, hControl⟩ h

/-- The literal that is written for a text. -/
theorem spells_quote (text : String) :
    ∃ s, Utf8.encode (quote text) = byte '"' :: (s ++ [byte '"']) ∧ Spells s text.toList := by
  refine ⟨_, encode_quote text, ?_⟩
  induction text.toList with
  | nil => exact .nil
  | cons c cs ih =>
      rw [List.flatMap_cons]
      exact ih.quoteChar c

end PeerLink.Json

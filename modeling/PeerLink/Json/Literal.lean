import PeerLink.Json.Cursor
import PeerLink.Text.Utf8

/-! String literals. `quote` writes a text, `readText` reads one back behind its opening quote,
`skipText` only looks for its end. -/
namespace PeerLink.Json

/-- The byte for which a one-letter escape stands. -/
def plainEscape? (b : UInt8) : Option UInt8 :=
  if b = byte '"' then some 0x22
  else if b = byte '\\' then some 0x5c
  else if b = byte '/' then some 0x2f
  else if b = byte 'b' then some 0x08
  else if b = byte 'f' then some 0x0c
  else if b = byte 'n' then some 0x0a
  else if b = byte 'r' then some 0x0d
  else if b = byte 't' then some 0x09
  else none

def hexDigit? (b : UInt8) : Option Nat :=
  if isDigit b then some (digit b)
  else if byte 'a' ≤ b ∧ b ≤ byte 'f' then some (b.toNat - 0x61 + 10)
  else if byte 'A' ≤ b ∧ b ≤ byte 'F' then some (b.toNat - 0x41 + 10)
  else none

/-- Four hexadecimal digits. -/
def readHex4 : Bytes → Except Fault (Nat × Bytes)
  | a :: b :: c :: d :: rest =>
    match hexDigit? a, hexDigit? b, hexDigit? c, hexDigit? d with
    | some a, some b, some c, some d => .ok (((a * 16 + b) * 16 + c) * 16 + d, rest)
    | _, _, _, _ => .error (.here .invalidEscape rest)
  | _ => .error (.here .endInString [])

def isHighSurrogate (n : Nat) : Bool :=
  0xD800 ≤ n && n ≤ 0xDBFF

def isLowSurrogate (n : Nat) : Bool :=
  0xDC00 ≤ n && n ≤ 0xDFFF

/-- Pass over one byte that must be there and be `expected`. -/
def readEscapeByte (expected : UInt8) : Bytes → Except Fault Bytes
  | [] => .error (.here .endInString [])
  | b :: rest =>
    if b = expected then .ok rest else .error (.here .unexpectedEndOfEscape rest)

/-- The character of a numeric escape, behind its `u`. One above `FFFF` takes two escapes. -/
def readCodePoint (rest : Bytes) : Except Fault (Char × Bytes) := do
  let (n, rest) ← readHex4 rest
  if isLowSurrogate n then throw (.here .loneSurrogate rest)
  if isHighSurrogate n then
    let rest ← readEscapeByte (byte '\\') rest
    let rest ← readEscapeByte (byte 'u') rest
    let (low, rest) ← readHex4 rest
    if isLowSurrogate low then
      return (Char.ofNat (0x10000 + (n - 0xD800) * 0x400 + (low - 0xDC00)), rest)
    else throw (.here .loneSurrogate rest)
  else return (Char.ofNat n, rest)

/-- The bytes for which an escape stands, behind its backslash. -/
def readEscape : Bytes → Except Fault (Bytes × Bytes)
  | [] => .error (.here .endInString [])
  | b :: rest =>
    match plainEscape? b with
    | some c => .ok ([c], rest)
    | none =>
      if b = byte 'u' then do
        let (c, rest) ← readCodePoint rest
        return (String.utf8EncodeChar c, rest)
      else .error (.here .invalidEscape rest)

/-- The end of an escape, behind its backslash. Surrogates need not come in pairs here. -/
def skipEscape : Bytes → Except Fault Bytes
  | [] => .error (.here .endInString [])
  | b :: rest =>
    if (plainEscape? b).isSome then .ok rest
    else if b = byte 'u' then do
      let (_, rest) ← readHex4 rest
      return rest
    else .error (.here .invalidEscape rest)

theorem readHex4_shorter {s rest : Bytes} {n : Nat} (h : readHex4 s = .ok (n, rest)) :
    rest.length ≤ s.length := by
  unfold readHex4 at h
  split at h
  · split at h
    · simp only [Except.ok.injEq, Prod.mk.injEq] at h
      simp only [List.length_cons, ← h.2]
      omega
    · simp at h
  · simp at h

theorem readEscapeByte_shorter {b : UInt8} {s rest : Bytes} (h : readEscapeByte b s = .ok rest) :
    rest.length ≤ s.length := by
  unfold readEscapeByte at h
  split at h
  · simp at h
  · split at h
    · simp only [Except.ok.injEq] at h
      simp [h]
    · simp at h

theorem readCodePoint_shorter {s rest : Bytes} {c : Char} (h : readCodePoint s = .ok (c, rest)) :
    rest.length ≤ s.length := by
  unfold readCodePoint at h
  cases h1 : readHex4 s with
  | error e => simp [h1, bind, Except.bind] at h
  | ok r =>
    obtain ⟨n, s1⟩ := r
    have l1 := readHex4_shorter h1
    simp only [h1, bind, Except.bind] at h
    split at h
    · simp [throw, throwThe, MonadExceptOf.throw] at h
    split at h
    · cases h2 : readEscapeByte (byte '\\') s1 with
      | error e => simp [h2] at h
      | ok s2 =>
        have l2 := readEscapeByte_shorter h2
        simp only [h2] at h
        cases h3 : readEscapeByte (byte 'u') s2 with
        | error e => simp [h3] at h
        | ok s3 =>
          have l3 := readEscapeByte_shorter h3
          simp only [h3] at h
          cases h4 : readHex4 s3 with
          | error e => simp [h4] at h
          | ok r =>
            obtain ⟨low, s4⟩ := r
            have l4 := readHex4_shorter h4
            simp only [h4] at h
            split at h
            · simp only [pure, Except.pure, Except.ok.injEq, Prod.mk.injEq] at h
              rw [← h.2]
              omega
            · simp [throw, throwThe, MonadExceptOf.throw] at h
    · simp only [pure, Except.pure, Except.ok.injEq, Prod.mk.injEq] at h
      rw [← h.2]
      exact l1

theorem readEscape_shorter {s rest out : Bytes} (h : readEscape s = .ok (out, rest)) :
    rest.length < s.length := by
  unfold readEscape at h
  split at h
  · simp at h
  · split at h
    · simp only [Except.ok.injEq, Prod.mk.injEq] at h
      simp [h.2]
    · split at h
      · rename_i s1 _ _ _
        cases h1 : readCodePoint s1 with
        | error e => simp [h1, bind, Except.bind] at h
        | ok r =>
          obtain ⟨c, s2⟩ := r
          simp only [h1, bind, Except.bind, pure, Except.pure, Except.ok.injEq,
            Prod.mk.injEq] at h
          have := readCodePoint_shorter h1
          simp only [List.length_cons, ← h.2]
          omega
      · simp at h

theorem skipEscape_shorter {s rest : Bytes} (h : skipEscape s = .ok rest) :
    rest.length < s.length := by
  unfold skipEscape at h
  split at h
  · simp at h
  · split at h
    · simp only [Except.ok.injEq] at h
      simp [h]
    · split at h
      · rename_i s1 _ _
        cases h1 : readHex4 s1 with
        | error e => simp [h1, bind, Except.bind] at h
        | ok r =>
          obtain ⟨c, s2⟩ := r
          simp only [h1, bind, Except.bind, pure, Except.pure, Except.ok.injEq] at h
          have := readHex4_shorter h1
          simp only [List.length_cons, ← h]
          omega
      · simp at h

/-- The bytes of a string literal up to its closing quote, given the bytes before, last one first. -/
def readTextBytes (before : Bytes) (s : Bytes) : Except Fault (Bytes × Bytes) :=
  match s with
  | [] => .error (.here .endInString [])
  | b :: s =>
    if b = byte '"' then .ok (before.reverse, s)
    else if b = byte '\\' then
      match _h : readEscape s with
      | .ok (out, rest) => readTextBytes (out.reverse ++ before) rest
      | .error f => .error f
    else if b < 0x20 then .error (.here .controlCharacter s)
    else readTextBytes (b :: before) s
termination_by s.length
decreasing_by
  · exact Nat.lt_succ_of_lt (readEscape_shorter _h)
  · exact Nat.lt_succ_self _

/-- What stands behind the first byte of a literal that belongs to no character, where `rest` stands
behind the literal. Escapes are written in one-byte characters and stand for whole characters, so they
neither break nor mend one. -/
def behindInvalid (s rest : Bytes) : Bytes :=
  match Text.Utf8.decode (s.take (s.length - rest.length)) with
  | .ok _ => rest
  | .error e => s.drop (e.validUpTo + 1)

/-- A string literal, behind its opening quote. -/
def readText (s : Bytes) : Except Fault (String × Bytes) := do
  let (bytes, rest) ← readTextBytes [] s
  match Text.Utf8.decode bytes with
  | .ok text => return (text, rest)
  | .error _ => throw (.here .invalidCodePoint (behindInvalid s rest))

/-- The bytes behind a string literal, from behind its opening quote. -/
def skipText (s : Bytes) : Except Fault Bytes :=
  match s with
  | [] => .error (.here .endInString [])
  | b :: s =>
    if b = byte '"' then .ok s
    else if b = byte '\\' then
      match _h : skipEscape s with
      | .ok rest => skipText rest
      | .error f => .error f
    else if b < 0x20 then .error (.here .controlCharacter (b :: s))
    else skipText s
termination_by s.length
decreasing_by
  · exact Nat.lt_succ_of_lt (skipEscape_shorter _h)
  · exact Nat.lt_succ_self _

/-- A character inside a written literal. -/
def quoteChar (c : Char) : String :=
  if c = '"' then "\\\""
  else if c = '\\' then "\\\\"
  else if c = '\x08' then "\\b"
  else if c = '\x0c' then "\\f"
  else if c = '\n' then "\\n"
  else if c = '\r' then "\\r"
  else if c = '\t' then "\\t"
  else if c.toNat < 0x20 then
    "\\u00" ++ String.ofList [Nat.digitChar (c.toNat / 16), Nat.digitChar (c.toNat % 16)]
  else c.toString

/-- A text as a string literal. -/
def quote (s : String) : String :=
  "\"" ++ String.join (s.toList.map quoteChar) ++ "\""

end PeerLink.Json

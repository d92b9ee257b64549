import PeerLink.Bytes

/-! UTF-8. `encode` writes a text as bytes, `decode` reads bytes as a text or says where they stop
being one, and `decodeLossy` reads any bytes, with a replacement character for each run of bytes
that belongs to no character. All three go by `head?`, which reads one character. -/
namespace PeerLink.Text.Utf8

/-- The bytes of a text. -/
def encode (s : String) : Bytes :=
  s.toList.flatMap String.utf8EncodeChar

/-- The number of bytes of a text. -/
def size (s : String) : Nat :=
  (encode s).length

/-- What stands at the front of a byte string. -/
inductive Head where
  /-- A character, and the bytes behind it. -/
  | char (c : Char) (rest : Bytes)
  /-- This many bytes that start no character. -/
  | invalid (length : Nat)
  /-- A character whose last bytes are missing. -/
  | incomplete
  deriving DecidableEq

/-- How a first byte of two or more goes on: the number of bytes that follow, and the range of the
first of them. The narrowed ranges keep out overlong forms, surrogates and numbers above `10FFFF`. -/
def leads (b : UInt8) : Option (Nat × UInt8 × UInt8) :=
  if b < 0xC2 then none
  else if b < 0xE0 then some (1, 0x80, 0xBF)
  else if b = 0xE0 then some (2, 0xA0, 0xBF)
  else if b = 0xED then some (2, 0x80, 0x9F)
  else if b < 0xF0 then some (2, 0x80, 0xBF)
  else if b = 0xF0 then some (3, 0x90, 0xBF)
  else if b < 0xF4 then some (3, 0x80, 0xBF)
  else if b = 0xF4 then some (3, 0x80, 0x8F)
  else none

/-- The payload bits of a first byte that announces `following` more bytes. -/
def leadBits (following : Nat) (b : UInt8) : Nat :=
  b.toNat % (1 <<< (6 - following))

/-- Read the remaining bytes of a character of which `used` bytes are read and whose bits so far
are `bits`. -/
def tail (following bits used : Nat) (rest : Bytes) : Head :=
  match following, rest with
  | 0, rest => .char (Char.ofNat bits) rest
  | _ + 1, [] => .incomplete
  | n + 1, b :: rest =>
    if 0x80 ≤ b ∧ b ≤ 0xBF then tail n (bits * 64 + b.toNat % 64) (used + 1) rest
    else .invalid used

/-- Read the character that starts with `b`. -/
def head (b : UInt8) (rest : Bytes) : Head :=
  if b < 0x80 then .char (Char.ofNat b.toNat) rest
  else match leads b with
    | none => .invalid 1
    | some (following, low, high) =>
      match rest with
      | [] => .incomplete
      | c :: rest =>
        if low ≤ c ∧ c ≤ high then
          tail (following - 1) (leadBits following b * 64 + c.toNat % 64) 2 rest
        else .invalid 1

theorem tail_shorter {following bits used : Nat} {s rest : Bytes} {c : Char}
    (h : tail following bits used s = .char c rest) : rest.length ≤ s.length := by
  fun_induction tail following bits used s with
  | case1 => simp_all
  | case2 => simp at h
  | case3 _ _ _ _ _ _ ih => exact Nat.le_succ_of_le (ih h)
  | case4 => simp at h

theorem head_shorter {b : UInt8} {s rest : Bytes} {c : Char}
    (h : head b s = .char c rest) : rest.length ≤ s.length := by
  unfold head at h
  split at h
  · simp_all
  · split at h
    · simp at h
    · split at h
      · simp at h
      · split at h
        · exact Nat.le_succ_of_le (tail_shorter h)
        · simp at h

/-- Where a byte string stops being UTF-8: after `validUpTo` bytes there follow `length?` bytes that
start no character, or, for `none`, a character that is cut off. -/
structure Error where
  validUpTo : Nat
  length? : Option Nat
  deriving DecidableEq, Repr

def Error.message (e : Error) : String :=
  match e.length? with
  | some n =>
    "invalid utf-8 sequence of " ++ toString n ++ " bytes from index " ++ toString e.validUpTo
  | none => "incomplete utf-8 byte sequence from index " ++ toString e.validUpTo

/-- Read all of `s`, given the characters of the `index` bytes before it, last one first. -/
def decodeFrom (index : Nat) (before : List Char) (s : Bytes) : Except Error String :=
  match s with
  | [] => .ok (String.ofList before.reverse)
  | b :: s =>
    match _h : head b s with
    | .char c rest => decodeFrom (index + c.utf8Size) (c :: before) rest
    | .invalid n => .error ⟨index, some n⟩
    | .incomplete => .error ⟨index, none⟩
termination_by s.length
decreasing_by exact Nat.lt_succ_of_le (head_shorter _h)

/-- Read a byte string as a text. -/
def decode (s : Bytes) : Except Error String :=
  decodeFrom 0 [] s

/-- The character that stands for bytes that are no text. -/
def replacement : Char := '\uFFFD'

/-- Read all of `s` with replacements, given the characters before it, last one first. -/
def decodeLossyFrom (before : List Char) (s : Bytes) : String :=
  match s with
  | [] => String.ofList before.reverse
  | b :: s =>
    match h : head b s with
    | .char c rest => decodeLossyFrom (c :: before) rest
    | .invalid n => decodeLossyFrom (replacement :: before) (s.drop (n - 1))
    | .incomplete => String.ofList (replacement :: before).reverse
termination_by s.length
decreasing_by
  · exact Nat.lt_succ_of_le (head_shorter h)
  · simp only [List.length_drop, List.length_cons]; omega

/-- Read a byte string as a text, with one replacement character for each run of bytes that belongs
to no character. -/
def decodeLossy (s : Bytes) : String :=
  decodeLossyFrom [] s

end PeerLink.Text.Utf8

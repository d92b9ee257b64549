import PeerLink.Bytes
import PeerLink.Json.Error

/-! Reading a JSON text from the front. A reader takes the bytes that are left and returns a value
with the bytes behind it, or a fault. A fault remembers its place as the number of bytes left there,
so that readers need not know the whole text; `Fault.locate` turns that into line and column. -/
namespace PeerLink.Json

/-- A cause, and how many bytes were left where it was noticed. -/
structure Fault where
  cause : Cause
  left : Nat
  deriving DecidableEq, Repr

/-- A fault at the cursor. -/
def Fault.here (cause : Cause) (rest : Bytes) : Fault :=
  ⟨cause, rest.length⟩

/-- A fault of the byte at the cursor, which lies behind that byte; at the end of the text, there. -/
def Fault.ahead (cause : Cause) (rest : Bytes) : Fault :=
  ⟨cause, rest.length - 1⟩

def isNewline (b : UInt8) : Bool :=
  b == 0x0a

/-- The place behind the bytes `before`. -/
def Position.behind (before : Bytes) : Position :=
  { line := before.countP isNewline + 1
    column := (before.reverse.takeWhile fun b => !isNewline b).length }

/-- The fault with its line and column in `text`. -/
def Fault.locate (text : Bytes) (f : Fault) : Error :=
  ⟨f.cause, some (Position.behind (text.take (text.length - f.left)))⟩

def isBlank (b : UInt8) : Bool :=
  b == 0x20 || b == 0x0a || b == 0x09 || b == 0x0d

/-- Pass over blanks. -/
def skipBlanks (rest : Bytes) : Bytes :=
  rest.dropWhile isBlank

def isDigit (b : UInt8) : Bool :=
  0x30 ≤ b && b ≤ 0x39

def digit (b : UInt8) : Nat :=
  b.toNat - 0x30

/-- The byte of an ASCII character. -/
abbrev byte (c : Char) : UInt8 :=
  c.toUInt8

/-- The bytes of an ASCII text. -/
def ascii (s : String) : Bytes :=
  s.toList.map byte

/-- Pass over the remaining bytes of a keyword. -/
def readWord (word rest : Bytes) : Except Fault Bytes :=
  match word, rest with
  | [], rest => .ok rest
  | _ :: _, [] => .error (.here .endInValue [])
  | w :: word, b :: rest =>
    if b = w then readWord word rest else .error (.here .expectedIdent rest)

end PeerLink.Json

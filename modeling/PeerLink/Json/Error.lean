import PeerLink.Text.Quoted

/-! What can be wrong with a JSON text, and where. -/
namespace PeerLink.Json

/-- What a text holds where something else was wanted. -/
inductive Found where
  | null
  | bool (value : Bool)
  | integer (value : Int)
  /-- A number with a fraction or an exponent, or one too large for a word, in written form. -/
  | float (written : String)
  | text (value : String)
  | sequence
  | map
  deriving DecidableEq, Repr

def Found.message : Found → String
  | .null => "null"
  | .bool b => "boolean `" ++ Text.bool b ++ "`"
  | .integer n => "integer `" ++ toString n ++ "`"
  | .float s => "floating point `" ++ s ++ "`"
  | .text s => "string " ++ Text.quoted s
  | .sequence => "sequence"
  | .map => "map"

inductive Cause where
  | endInValue
  | endInString
  | endInList
  | endInObject
  | expectedValue
  | expectedIdent
  | expectedColon
  | expectedCommaOrBracket
  | expectedCommaOrBrace
  | keyNotString
  | trailingComma
  | trailingCharacters
  | invalidEscape
  | invalidNumber
  | numberOutOfRange
  | invalidCodePoint
  | loneSurrogate
  | unexpectedEndOfEscape
  | controlCharacter
  | missingField (name : String)
  | duplicateField (name : String)
  | invalidLength (length : Nat) (expected : String)
  | invalidType (found : Found) (expected : String)
  | invalidValue (found : Found) (expected : String)
  deriving DecidableEq, Repr

def Cause.message : Cause → String
  | .endInValue => "EOF while parsing a value"
  | .endInString => "EOF while parsing a string"
  | .endInList => "EOF while parsing a list"
  | .endInObject => "EOF while parsing an object"
  | .expectedValue => "expected value"
  | .expectedIdent => "expected ident"
  | .expectedColon => "expected `:`"
  | .expectedCommaOrBracket => "expected `,` or `]`"
  | .expectedCommaOrBrace => "expected `,` or `\x7d`"
  | .keyNotString => "key must be a string"
  | .trailingComma => "trailing comma"
  | .trailingCharacters => "trailing characters"
  | .invalidEscape => "invalid escape"
  | .invalidNumber => "invalid number"
  | .numberOutOfRange => "number out of range"
  | .invalidCodePoint => "invalid unicode code point"
  | .loneSurrogate => "lone leading surrogate in hex escape"
  | .unexpectedEndOfEscape => "unexpected end of hex escape"
  | .controlCharacter => "control character (\\u0000-\\u001F) found while parsing a string"
  | .missingField name => "missing field `" ++ name ++ "`"
  | .duplicateField name => "duplicate field `" ++ name ++ "`"
  | .invalidLength n expected => "invalid length " ++ toString n ++ ", expected " ++ expected
  | .invalidType found expected =>
    "invalid type: " ++ found.message ++ ", expected " ++ expected
  | .invalidValue found expected =>
    "invalid value: " ++ found.message ++ ", expected " ++ expected

/-- A line of the text, counted from one, and the number of bytes of that line up to the place. -/
structure Position where
  line : Nat
  column : Nat
  deriving DecidableEq, Repr

/-- A cause and its place. A value that has no JSON form fails without a place. -/
structure Error where
  cause : Cause
  position? : Option Position
  deriving DecidableEq, Repr

def Error.message (e : Error) : String :=
  match e.position? with
  | some p =>
    e.cause.message ++ " at line " ++ toString p.line ++ " column " ++ toString p.column
  | none => e.cause.message

end PeerLink.Json

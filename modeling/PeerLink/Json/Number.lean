import PeerLink.Json.Cursor
import PeerLink.Decimal.Written

/-! Numbers. A number without fraction and exponent that fits a 64-bit word is an integer; every
other number is a float, which this library only ever shows. -/
namespace PeerLink.Json

inductive Number where
  | natural (n : Nat)
  /-- The number `-n`. -/
  | negative (n : Nat)
  /-- A float in written form. -/
  | float (written : String)
  deriving DecidableEq, Repr

def Number.found : Number → Found
  | .natural n => .integer n
  | .negative n => .integer (-n)
  | .float s => .float s

/-- The largest significand. -/
def maxWord : Nat := 0xFFFFFFFFFFFFFFFF

/-- Append digits to a significand while it fits a word. The second part counts the digits that were
taken, the third those that were not. -/
def appendDigits (significand : Nat) : (digits : Bytes) → Nat × Nat × Nat
  | [] => (significand, 0, 0)
  | d :: digits =>
    if significand * 10 + digit d ≤ maxWord then
      let (n, taken, left) := appendDigits (significand * 10 + digit d) digits
      (n, taken + 1, left)
    else (significand, 0, digits.length + 1)

/-- `x * 10 ^ exponent`, scaled as doubles are, in steps of at most `10 ^ 308`; `none` if that is too
large. Three steps bring every significand down to zero. -/
def scaleFloat : (steps : Nat) → (x : Float) → (exponent : Int) → Option Float
  | 0, x, _ => some x
  | steps + 1, x, exponent =>
    if exponent.natAbs ≤ 308 then
      if 0 ≤ exponent then
        let y := x * Float.ofScientific 1 false exponent.natAbs
        if y.isInf then none else some y
      else some (x / Float.ofScientific 1 false exponent.natAbs)
    else if x == 0.0 then some x
    else if 0 ≤ exponent then none
    else scaleFloat steps (x / Float.ofScientific 1 false 308) (exponent + 308)

def signed (positive : Bool) (x : Float) : Number :=
  .float (Decimal.floatText (if positive then x else -x))

/-- The float `significand * 10 ^ exponent`. -/
def floatOfParts (positive : Bool) (significand : Nat) (exponent : Int) (rest : Bytes) :
    Except Fault (Number × Bytes) :=
  match scaleFloat 4 significand.toUInt64.toFloat exponent with
  | some x => .ok (signed positive x, rest)
  | none => .error (.here .numberOutOfRange rest)

/-- The largest exponent. -/
def maxExponent : Nat := 0x7FFFFFFF

/-- Append digits to an exponent; `none` as soon as it is too large, with the digits not looked at. -/
def appendExponent (exponent : Nat) : (digits : Bytes) → Except Nat Nat
  | [] => .ok exponent
  | d :: digits =>
    if exponent * 10 + digit d ≤ maxExponent then appendExponent (exponent * 10 + digit d) digits
    else .error digits.length

/-- The sign of an exponent. -/
def readSign : Bytes → Bool × Bytes
  | b :: rest =>
    if b = byte '+' then (true, rest)
    else if b = byte '-' then (false, rest)
    else (true, b :: rest)
  | [] => (true, [])

/-- An exponent, behind its letter. -/
def readExponent (positive : Bool) (significand : Nat) (start : Int) (rest : Bytes) :
    Except Fault (Number × Bytes) :=
  let (upward, rest) := readSign rest
  match rest with
  | [] => .error (.here .endInValue [])
  | b :: rest =>
    if !isDigit b then .error (.here .invalidNumber rest)
    else
      let digits := rest.takeWhile isDigit
      let behind := rest.dropWhile isDigit
      match appendExponent (digit b) digits with
      | .ok n =>
        floatOfParts positive significand (if upward then start + n else start - n) behind
      | .error unread =>
        if significand ≠ 0 ∧ upward then
          .error ⟨.numberOutOfRange, behind.length + unread⟩
        else .ok (signed positive 0.0, behind)

def isExponentLetter (b : UInt8) : Bool :=
  b == byte 'e' || b == byte 'E'

/-- The end of a number whose digits are read: an exponent may follow. -/
def readScale (positive : Bool) (significand : Nat) (exponent : Int) :
    (rest : Bytes) → Except Fault (Number × Bytes)
  | [] => floatOfParts positive significand exponent []
  | b :: rest =>
    if isExponentLetter b then readExponent positive significand exponent rest
    else floatOfParts positive significand exponent (b :: rest)

/-- A fraction, behind its point. Digits that no longer fit are passed over. -/
def readFraction (positive : Bool) (significand : Nat) (exponent : Int) (rest : Bytes) :
    Except Fault (Number × Bytes) :=
  let digits := rest.takeWhile isDigit
  let behind := rest.dropWhile isDigit
  match digits, behind with
  | [], [] => .error (.ahead .endInValue [])
  | [], behind => .error (.ahead .invalidNumber behind)
  | digits, behind =>
    let (significand, taken, _) := appendDigits significand digits
    readScale positive significand (exponent - taken) behind

/-- The whole number with these digits; below zero it has to fit a signed word. -/
def wholeNumber (positive : Bool) (significand : Nat) : Number :=
  if positive then .natural significand
  else if 0 < significand ∧ significand ≤ 0x8000000000000000 then .negative significand
  else signed false significand.toUInt64.toFloat

/-- What follows the digits before the point. `extra` of them did not fit the significand. -/
def readPoint (positive : Bool) (significand extra : Nat) :
    (rest : Bytes) → Except Fault (Number × Bytes)
  | [] =>
    if extra = 0 then .ok (wholeNumber positive significand, [])
    else floatOfParts positive significand extra []
  | b :: rest =>
    if b = byte '.' then readFraction positive significand extra rest
    else if isExponentLetter b then readExponent positive significand extra rest
    else if extra = 0 then .ok (wholeNumber positive significand, b :: rest)
    else floatOfParts positive significand extra (b :: rest)

/-- A number, behind its sign. -/
def readNumber (positive : Bool) : Bytes → Except Fault (Number × Bytes)
  | [] => .error (.here .endInValue [])
  | b :: rest =>
    if b = byte '0' then
      match rest with
      | d :: rest' =>
        if isDigit d then .error (.ahead .invalidNumber (d :: rest'))
        else readPoint positive 0 0 (d :: rest')
      | [] => readPoint positive 0 0 []
    else if isDigit b then
      let (significand, _, extra) := appendDigits 0 (b :: rest.takeWhile isDigit)
      readPoint positive significand extra (rest.dropWhile isDigit)
    else .error (.here .invalidNumber rest)

/-- The end of an exponent, behind its letter. -/
def skipExponent (rest : Bytes) : Except Fault Bytes :=
  match (readSign rest).2 with
  | [] => .error (.here .invalidNumber [])
  | b :: rest =>
    if isDigit b then .ok (rest.dropWhile isDigit) else .error (.here .invalidNumber rest)

/-- The end of a number whose digits are read: an exponent may follow. -/
def skipScale : Bytes → Except Fault Bytes
  | [] => .ok []
  | b :: rest => if isExponentLetter b then skipExponent rest else .ok (b :: rest)

/-- What follows the digits before the point. -/
def skipPoint : Bytes → Except Fault Bytes
  | [] => .ok []
  | b :: rest =>
    if b = byte '.' then
      match rest with
      | d :: rest' =>
        if isDigit d then skipScale (rest'.dropWhile isDigit)
        else .error (.ahead .invalidNumber (d :: rest'))
      | [] => .error (.ahead .invalidNumber [])
    else if isExponentLetter b then skipExponent rest
    else .ok (b :: rest)

/-- The end of a number, behind its sign. Its size does not matter. -/
def skipNumber : Bytes → Except Fault Bytes
  | [] => .error (.here .invalidNumber [])
  | b :: rest =>
    if b = byte '0' then
      match rest with
      | d :: rest' =>
        if isDigit d then .error (.ahead .invalidNumber (d :: rest')) else skipPoint (d :: rest')
      | [] => .ok []
    else if isDigit b then skipPoint (rest.dropWhile isDigit)
    else .error (.here .invalidNumber rest)

end PeerLink.Json

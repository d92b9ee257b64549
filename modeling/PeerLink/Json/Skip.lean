import PeerLink.Json.Literal
import PeerLink.Json.Number

/-! Passing over a value of any kind, nested to any depth, without building it. The reader keeps the
brackets that are open and a note of what may come next. -/
namespace PeerLink.Json

inductive Bracket where
  | list
  | object
  deriving DecidableEq, Repr

def Bracket.closing : Bracket → UInt8
  | .list => byte ']'
  | .object => byte '\x7d'

def Bracket.endCause : Bracket → Cause
  | .list => .endInList
  | .object => .endInObject

def Bracket.commaCause : Bracket → Cause
  | .list => .expectedCommaOrBracket
  | .object => .expectedCommaOrBrace

/-- What may come next. -/
inductive Place where
  /-- A value. -/
  | value
  /-- The key of a member. -/
  | member
  /-- A first item, or at once the closing bracket. -/
  | opened
  /-- A comma or the closing bracket. -/
  | behindItem
  deriving DecidableEq, Repr

/-- The place of an item directly inside a bracket. -/
def Bracket.item : Bracket → Place
  | .list => .value
  | .object => .member

/-- A value that is no list and no object, if one starts here. -/
def skipScalar? : Bytes → Option (Except Fault Bytes)
  | [] => none
  | b :: rest =>
    if b = byte 'n' then some (readWord (ascii "ull") rest)
    else if b = byte 't' then some (readWord (ascii "rue") rest)
    else if b = byte 'f' then some (readWord (ascii "alse") rest)
    else if b = byte '-' then some (skipNumber rest)
    else if isDigit b then some (skipNumber (b :: rest))
    else if b = byte '"' then some (skipText rest)
    else none

/-- A key and its colon. -/
def skipKey (rest : Bytes) : Except Fault Bytes := do
  match skipBlanks rest with
  | [] => throw (.here .endInObject [])
  | b :: rest =>
    if b ≠ byte '"' then throw (.ahead .keyNotString (b :: rest))
    let rest ← skipText rest
    match skipBlanks rest with
    | [] => throw (.here .endInObject [])
    | b :: rest =>
      if b = byte ':' then return rest else throw (.ahead .expectedColon (b :: rest))

/-- Pass over one value from `place` on, with `brackets` open. Every round but one after an opening
bracket takes a byte, so twice the number of bytes is enough fuel. -/
def skipFrom (fuel : Nat) (place : Place) (brackets : List Bracket) (rest : Bytes) :
    Except Fault Bytes :=
  match fuel with
  | 0 => .error (.here .endInValue rest)
  | fuel + 1 =>
    match place with
    | .value =>
      match skipBlanks rest with
      | [] => .error (.ahead .endInValue [])
      | b :: rest =>
        if b = byte '[' then skipFrom fuel .opened (.list :: brackets) rest
        else if b = byte '\x7b' then skipFrom fuel .opened (.object :: brackets) rest
        else match skipScalar? (b :: rest) with
          | none => .error (.ahead .expectedValue (b :: rest))
          | some (.error f) => .error f
          | some (.ok rest) => skipFrom fuel .behindItem brackets rest
    | .member =>
      match skipKey rest with
      | .error f => .error f
      | .ok rest => skipFrom fuel .value brackets rest
    | .opened =>
      match brackets with
      | [] => .ok rest
      | top :: outer =>
        match skipBlanks rest with
        | [] => .error (.ahead top.endCause [])
        | b :: rest =>
          if b = top.closing then skipFrom fuel .behindItem outer rest
          else skipFrom fuel top.item brackets (b :: rest)
    | .behindItem =>
      match brackets with
      | [] => .ok rest
      | top :: outer =>
        match skipBlanks rest with
        | [] => .error (.ahead top.endCause [])
        | b :: rest =>
          if b = byte ',' then skipFrom fuel top.item brackets rest
          else if b = top.closing then skipFrom fuel .behindItem outer rest
          else .error (.ahead top.commaCause (b :: rest))

/-- Pass over one value. -/
def skipValue (rest : Bytes) : Except Fault Bytes :=
  skipFrom (2 * rest.length + 2) .value [] rest

end PeerLink.Json

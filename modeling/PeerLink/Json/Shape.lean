import PeerLink.Json.Skip

/-! Reading a text as a value of a given shape. A record may be written as an object, in which
members with other names are passed over, or as the list of its fields in order. What is refused and
where the refusal is placed follows one rule: a syntax error stands where it is noticed, a value of
the wrong kind behind that value, and a list or record with wrong contents behind the closing
bracket, if that is the next thing in the text. -/
namespace PeerLink.Json

/-- A range of integers with a name. -/
structure IntKind where
  name : String
  low : Int
  high : Int
  deriving DecidableEq, Repr

inductive ScalarKind where
  | text
  | bool
  | unit
  | int (kind : IntKind)
  deriving DecidableEq, Repr

/-- What a value of this kind is called. -/
def ScalarKind.name : ScalarKind → String
  | .text => "a string"
  | .bool => "a boolean"
  | .unit => "unit"
  | .int kind => kind.name

/-- A scalar, or `null` in its place if `optional`. -/
structure ItemKind where
  scalar : ScalarKind
  optional : Bool
  deriving DecidableEq, Repr

/-- A value without parts. -/
inductive Scalar where
  | text (value : String)
  | bool (value : Bool)
  | unit
  | int (value : Int)
  /-- An optional value that is not there. -/
  | absent
  deriving DecidableEq, Repr

/-- A field; one without a default has to be written. -/
structure Field where
  name : String
  kind : ItemKind
  default? : Option Scalar
  deriving DecidableEq, Repr

structure RecordKind where
  name : String
  fields : List Field
  deriving DecidableEq, Repr

def RecordKind.expected (r : RecordKind) : String :=
  "struct " ++ r.name

/-- A record that needs a certain number of elements. -/
def RecordKind.expectedLength (r : RecordKind) : String :=
  r.expected ++ " with " ++ toString r.fields.length ++
    (if r.fields.length = 1 then " element" else " elements")

inductive Shape where
  | item (kind : ItemKind)
  | list (kind : ScalarKind)
  | record (kind : RecordKind)
  deriving DecidableEq, Repr

inductive Value where
  | item (value : Scalar)
  | list (items : List Scalar)
  /-- The fields of a record, in order. -/
  | record (fields : List Scalar)
  deriving DecidableEq, Repr

/-- The fault of a value that is not of the expected kind: the value is read as far as that tells
what it is. -/
def refuse (expected : String) : Bytes → Fault
  | [] => .ahead .expectedValue []
  | b :: rest =>
    let wrong (found : Found) (rest : Bytes) : Fault := .here (.invalidType found expected) rest
    let word (w : String) (found : Found) : Fault :=
      match readWord (ascii w) rest with
      | .error f => f
      | .ok rest => wrong found rest
    let number (n : Except Fault (Number × Bytes)) : Fault :=
      match n with
      | .error f => f
      | .ok (n, rest) => wrong n.found rest
    if b = byte 'n' then word "ull" .null
    else if b = byte 't' then word "rue" (.bool true)
    else if b = byte 'f' then word "alse" (.bool false)
    else if b = byte '-' then number (readNumber false rest)
    else if isDigit b then number (readNumber true (b :: rest))
    else if b = byte '"' then
      match readText rest with
      | .error f => f
      | .ok (s, rest) => wrong (.text s) rest
    else if b = byte '[' then wrong .sequence (b :: rest)
    else if b = byte '\x7b' then wrong .map (b :: rest)
    else .ahead .expectedValue (b :: rest)

/-- A number as an integer of a kind. -/
def IntKind.accept (kind : IntKind) (n : Number) : Except Cause Int :=
  match n with
  | .natural v =>
    if (v : Int) ≤ kind.high then .ok v else .error (.invalidValue n.found kind.name)
  | .negative v =>
    if kind.low ≤ -(v : Int) then .ok (-(v : Int)) else .error (.invalidValue n.found kind.name)
  | .float _ => .error (.invalidType n.found kind.name)

/-- An integer of a kind, from a number that was read. -/
def acceptInt (kind : IntKind) (n : Except Fault (Number × Bytes)) :
    Except Fault (Scalar × Bytes) := do
  let (n, rest) ← n
  match kind.accept n with
  | .ok v => return (.int v, rest)
  | .error cause => throw (.here cause rest)

/-- A scalar. -/
def readScalar (kind : ScalarKind) (rest : Bytes) : Except Fault (Scalar × Bytes) :=
  match skipBlanks rest with
  | [] => .error (.ahead .endInValue [])
  | b :: rest =>
    match kind with
    | .text =>
      if b = byte '"' then do
        let (s, rest) ← readText rest
        return (.text s, rest)
      else .error (refuse kind.name (b :: rest))
    | .bool =>
      if b = byte 't' then do
        let rest ← readWord (ascii "rue") rest
        return (.bool true, rest)
      else if b = byte 'f' then do
        let rest ← readWord (ascii "alse") rest
        return (.bool false, rest)
      else .error (refuse kind.name (b :: rest))
    | .unit =>
      if b = byte 'n' then do
        let rest ← readWord (ascii "ull") rest
        return (.unit, rest)
      else .error (refuse kind.name (b :: rest))
    | .int range =>
      if b = byte '-' then acceptInt range (readNumber false rest)
      else if isDigit b then acceptInt range (readNumber true (b :: rest))
      else .error (refuse kind.name (b :: rest))

/-- A scalar or its absence. -/
def readItem (kind : ItemKind) (rest : Bytes) : Except Fault (Scalar × Bytes) :=
  match kind.optional, skipBlanks rest with
  | true, b :: behind =>
    if b = byte 'n' then do
      let rest ← readWord (ascii "ull") behind
      return (.absent, rest)
    else readScalar kind.scalar (b :: behind)
  | _, rest => readScalar kind.scalar rest

/-- Whether another element of a list follows, and the bytes where it starts or the list ends. -/
def nextElement (first : Bool) (rest : Bytes) : Except Fault (Bool × Bytes) :=
  match skipBlanks rest with
  | [] => .error (.ahead .endInList [])
  | b :: rest =>
    if b = byte ']' then .ok (false, b :: rest)
    else if first then .ok (true, b :: rest)
    else if b = byte ',' then
      match skipBlanks rest with
      | [] => .error (.ahead .endInValue [])
      | c :: rest =>
        if c = byte ']' then .error (.ahead .trailingComma (c :: rest)) else .ok (true, c :: rest)
    else .error (.ahead .expectedCommaOrBracket (b :: rest))

/-- The end of a list. Returns the bytes where it stopped looking, and what is wrong there. -/
def closeList (rest : Bytes) : Bytes × Option Cause :=
  match skipBlanks rest with
  | [] => ([], some .endInList)
  | b :: rest =>
    if b = byte ']' then (rest, none)
    else if b = byte ',' then
      match skipBlanks rest with
      | [] => ([], some .trailingCharacters)
      | c :: rest =>
        (c :: rest, some (if c = byte ']' then .trailingComma else .trailingCharacters))
    else (b :: rest, some .trailingCharacters)

/-- The end of an object. Returns the bytes where it stopped looking, and what is wrong there. -/
def closeObject (rest : Bytes) : Bytes × Option Cause :=
  match skipBlanks rest with
  | [] => ([], some .endInObject)
  | b :: rest =>
    if b = byte '\x7d' then (rest, none)
    else (b :: rest, some (if b = byte ',' then .trailingComma else .trailingCharacters))

/-- Contents that were read, or refused for a cause whose place is not known yet. -/
abbrev Contents (α : Type) := Except Cause α

/-- Close a list or an object whose contents have been looked at. -/
def finish {α : Type} (close : Bytes → Bytes × Option Cause)
    (r : Except Fault (Contents α × Bytes)) : Except Fault (α × Bytes) := do
  let (contents, rest) ← r
  let (rest, wrong) := close rest
  match contents, wrong with
  | .error cause, _ => throw (.here cause rest)
  | .ok _, some cause => throw (.ahead cause rest)
  | .ok a, none => return (a, rest)

/-- The elements of a list, given those before, last one first. Every element takes a byte. -/
def readElements (kind : ScalarKind) :
    (fuel : Nat) → (before : List Scalar) → Bytes → Except Fault (Contents (List Scalar) × Bytes)
  | 0, _, rest => .error (.here .endInList rest)
  | fuel + 1, before, rest => do
    let (more, rest) ← nextElement before.isEmpty rest
    if more then
      let (x, rest) ← readScalar kind rest
      readElements kind fuel (x :: before) rest
    else return (.ok before.reverse, rest)

/-- The fields of a record written as a list, given those before, last one first. A record too short
is refused, unless the missing fields have defaults. -/
def readPositional (r : RecordKind) :
    (fields : List Field) → (first : Bool) → (before : List Scalar) → Bytes →
    Except Fault (Contents (List Scalar) × Bytes)
  | [], _, before, rest => .ok (.ok before.reverse, rest)
  | field :: fields, first, before, rest => do
    let (more, rest) ← nextElement first rest
    if more then
      let (x, rest) ← readItem field.kind rest
      readPositional r fields false (x :: before) rest
    else match field.default? with
      | some x => readPositional r fields first (x :: before) rest
      | none => return (.error (.invalidLength before.length r.expectedLength), rest)

/-- The fields of a record that are known so far. -/
abbrev Known := List (String × Scalar)

/-- The fields in order, with defaults for those that were not written. -/
def completeFields (known : Known) : (fields : List Field) → Contents (List Scalar)
  | [] => .ok []
  | field :: fields => do
    let x ← match known.lookup field.name, field.default? with
      | some x, _ => .ok x
      | none, some x => .ok x
      | none, none => .error (.missingField field.name)
    let xs ← completeFields known fields
    return x :: xs

/-- Whether another member of an object follows, and the bytes behind the quote that opens its key
or where the object ends. -/
def nextMember (first : Bool) (rest : Bytes) : Except Fault (Bool × Bytes) :=
  match skipBlanks rest with
  | [] => .error (.ahead .endInObject [])
  | b :: rest =>
    if b = byte '\x7d' then .ok (false, b :: rest)
    else if first then
      if b = byte '"' then .ok (true, rest) else .error (.ahead .keyNotString (b :: rest))
    else if b = byte ',' then
      match skipBlanks rest with
      | [] => .error (.ahead .endInValue [])
      | c :: rest =>
        if c = byte '"' then .ok (true, rest)
        else if c = byte '\x7d' then .error (.ahead .trailingComma (c :: rest))
        else .error (.ahead .keyNotString (c :: rest))
    else .error (.ahead .expectedCommaOrBrace (b :: rest))

/-- The colon between a key and its value. -/
def readColon (rest : Bytes) : Except Fault Bytes :=
  match skipBlanks rest with
  | [] => .error (.ahead .endInObject [])
  | b :: rest =>
    if b = byte ':' then .ok rest else .error (.ahead .expectedColon (b :: rest))

/-- The members of a record written as an object. Every member takes a byte. -/
def readMembers (r : RecordKind) :
    (fuel : Nat) → (first : Bool) → (known : Known) → Bytes →
    Except Fault (Contents (List Scalar) × Bytes)
  | 0, _, _, rest => .error (.here .endInObject rest)
  | fuel + 1, first, known, rest => do
    let (more, rest) ← nextMember first rest
    if !more then return (completeFields known r.fields, rest)
    let (key, rest) ← readText rest
    match r.fields.find? fun f => f.name == key with
    | none =>
      let rest ← readColon rest
      let rest ← skipValue rest
      readMembers r fuel false known rest
    | some field =>
      if (known.lookup key).isSome then return (.error (.duplicateField key), rest)
      let rest ← readColon rest
      let (x, rest) ← readItem field.kind rest
      readMembers r fuel false ((key, x) :: known) rest

/-- A value of a shape, with blanks before it. -/
def readShape (shape : Shape) (rest : Bytes) : Except Fault (Value × Bytes) :=
  match shape with
  | .item kind => do
    let (x, rest) ← readItem kind rest
    return (.item x, rest)
  | .list kind =>
    match skipBlanks rest with
    | [] => .error (.ahead .endInValue [])
    | b :: rest =>
      if b = byte '[' then do
        let (items, rest) ← finish closeList (readElements kind (rest.length + 1) [] rest)
        return (.list items, rest)
      else .error (refuse "a sequence" (b :: rest))
  | .record r =>
    match skipBlanks rest with
    | [] => .error (.ahead .endInValue [])
    | b :: rest =>
      if b = byte '[' then do
        let (fields, rest) ← finish closeList (readPositional r r.fields true [] rest)
        return (.record fields, rest)
      else if b = byte '\x7b' then do
        let (fields, rest) ←
          finish closeObject (readMembers r (rest.length + 1) true [] rest)
        return (.record fields, rest)
      else .error (refuse r.expected (b :: rest))

/-- A text that is one value of a shape and nothing else but blanks. -/
def read (shape : Shape) (text : Bytes) : Except Error Value :=
  let result : Except Fault Value := do
    let (value, rest) ← readShape shape text
    match skipBlanks rest with
    | [] => return value
    | b :: rest => throw (.ahead .trailingCharacters (b :: rest))
  result.mapError fun f => f.locate text

end PeerLink.Json

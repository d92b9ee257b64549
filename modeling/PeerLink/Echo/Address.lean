/-! Addresses of sockets: a host and, behind a colon, a number up to 65535. The host is a dotted quad
or, in brackets, eight groups of hexadecimal digits. In the second form `::` stands for one or more
groups that are zero, the last two groups may be written as a dotted quad, and a zone may follow after
a percent sign. -/
namespace PeerLink

inductive SocketAddress where
  | v4 (octets : List Nat) (portNumber : Nat)
  | v6 (groups : List Nat) (zone portNumber : Nat)
  deriving DecidableEq, Repr

namespace SocketAddress

/-- A reader of the start of a text. Where it fails nothing was read. -/
abbrev Reader := StateT (List Char) Option

def digit? (radix : Nat) (c : Char) : Option Nat :=
  let value? :=
    if '0' ≤ c ∧ c ≤ '9' then some (c.toNat - '0'.toNat)
    else if 'a' ≤ c ∧ c ≤ 'f' then some (c.toNat - 'a'.toNat + 10)
    else if 'A' ≤ c ∧ c ≤ 'F' then some (c.toNat - 'A'.toNat + 10)
    else none
  value?.filter (· < radix)

/-- The longest run of digits, as their values. -/
def digits (radix : Nat) : Reader (List Nat) := fun text =>
  let run := text.takeWhile fun c => (digit? radix c).isSome
  some (run.filterMap (digit? radix), text.drop run.length)

/-- The number that digits stand for, if it is at most `max`. -/
def valueOf (radix max : Nat) (ds : List Nat) : Reader Nat :=
  let value := ds.foldl (fun n d => n * radix + d) 0
  if ds.isEmpty ∨ max < value then failure else pure value

def number (max : Nat) : Reader Nat := do
  valueOf 10 max (← digits 10)

def char (c : Char) : Reader Unit
  | [] => none
  | x :: rest => if x = c then some ((), rest) else none

/-- A number up to 255 of at most three digits, without leading zeros. -/
def octet : Reader Nat := do
  let ds ← digits 10
  if 3 < ds.length ∨ (1 < ds.length ∧ ds.head? = some 0) then failure else valueOf 10 255 ds

/-- A dotted quad. -/
def quad : Reader (List Nat) := do
  let a ← octet
  char '.'
  let b ← octet
  char '.'
  let c ← octet
  char '.'
  let d ← octet
  return [a, b, c, d]

/-- One to four hexadecimal digits. -/
def group : Reader Nat := do
  let ds ← digits 16
  if 4 < ds.length then failure else valueOf 16 65535 ds

/-- Behind a colon, unless it comes first. -/
def separated {α : Type} (isFirst : Bool) (r : Reader α) : Reader α :=
  if isFirst then r
  else do
    char ':'
    r

/-- Groups at the start of an address. -/
structure Groups where
  values : List Nat
  /-- The last two were a dotted quad. -/
  endInQuad : Bool
  rest : List Char

/-- As many groups as there are, up to `room`. A dotted quad takes the room of two and comes last. -/
def groups : (room : Nat) → (isFirst : Bool) → List Char → Groups
  | 0, _, text => ⟨[], false, text⟩
  | room + 1, isFirst, text =>
    match if room = 0 then none else separated isFirst quad text with
    | some ([a, b, c, d], rest) => ⟨[256 * a + b, 256 * c + d], true, rest⟩
    | _ =>
      match separated isFirst group text with
      | none => ⟨[], false, text⟩
      | some (n, rest) =>
        let more := groups room false rest
        { more with values := n :: more.values }

/-- Eight groups, some of which may be left out. -/
def eightGroups : Reader (List Nat) := do
  let head := groups 8 true (← get)
  let given := head.values.length
  set head.rest
  if given = 8 then return head.values
  else if head.endInQuad then failure
  else
    char ':'
    char ':'
    let tail := groups (7 - given) true (← get)
    set tail.rest
    let zeros := List.replicate (8 - given - tail.values.length) 0
    return head.values ++ zeros ++ tail.values

def portNumber : Reader Nat := do
  char ':'
  number 65535

/-- A zone; zero if there is none. -/
def zone : Reader Nat :=
  (do
    char '%'
    number 0xFFFFFFFF) <|> pure 0

def v4Address : Reader SocketAddress := do
  let octets ← quad
  return .v4 octets (← portNumber)

def v6Address : Reader SocketAddress := do
  char '['
  let groups ← eightGroups
  let zone ← zone
  char ']'
  return .v6 groups zone (← portNumber)

/-- The address that a whole text stands for. -/
def ofString? (text : String) : Option SocketAddress :=
  match (v4Address <|> v6Address) text.toList with
  | some (address, []) => some address
  | _ => none

end SocketAddress

end PeerLink

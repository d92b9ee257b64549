import PeerLink.Bytes

/-! The nine bytes in front of every packet: kind and flag, length of the body, id. Reading what was
written gives the header back (`parse_build`). -/
namespace PeerLink.Wire

inductive Kind where
  | request
  | responsePayload
  | responseError
  | responseClose
  | responseReady
  | streamClose
  | bye
  | opening
  | openingAck
  deriving DecidableEq, Repr

namespace Kind

/-- The number of a kind on the wire. -/
def code : Kind → UInt8
  | .request => 1
  | .responsePayload => 2
  | .responseError => 3
  | .responseClose => 4
  | .responseReady => 5
  | .streamClose => 6
  | .bye => 7
  | .opening => 8
  | .openingAck => 9

def all : List Kind :=
  [.request, .responsePayload, .responseError, .responseClose, .responseReady, .streamClose, .bye,
    .opening, .openingAck]

/-- The kind with a number. -/
def ofCode? (code : UInt8) : Option Kind :=
  all.find? fun k => k.code == code

/-- The name of a kind in messages. -/
def name : Kind → String
  | .request => "Request"
  | .responsePayload => "ResponsePayload"
  | .responseError => "ResponseError"
  | .responseClose => "ResponseClose"
  | .responseReady => "ResponseStreamReady"
  | .streamClose => "StreamClose"
  | .bye => "Bye"
  | .opening => "Open"
  | .openingAck => "OpenAck"

theorem ofCode?_code (k : Kind) : ofCode? k.code = some k := by
  cases k <;> rfl

end Kind

structure Header where
  kind : Kind
  flag : Bool
  bodyLength : UInt32
  id : Int32
  deriving DecidableEq, Repr

inductive HeaderError where
  | invalidKind (value : UInt8)
  deriving DecidableEq, Repr

def HeaderError.message : HeaderError → String
  | .invalidKind v => "Invalid envelope kind " ++ toString v.toNat

namespace Header

/-- The number of bytes of a header. -/
def size : Nat := 9

/-- The low four bits of the first byte. -/
def kindCode (first : UInt8) : UInt8 :=
  first &&& 0x0F

/-- The high bit of the first byte. -/
def flagOf (first : UInt8) : Bool :=
  first &&& 0x80 != 0

/-- The first byte. The three bits in the middle are zero. -/
def first (kind : Kind) (flag : Bool) : UInt8 :=
  if flag then kind.code ||| 0x80 else kind.code

def build (h : Header) : Bytes :=
  first h.kind h.flag :: (Bytes.ofWord32 h.bodyLength ++ Bytes.ofWord32 h.id.toUInt32)

/-- Read a header from its nine bytes. -/
def parse (data : Bytes) : Except HeaderError Header :=
  let first := data.headD 0
  match Kind.ofCode? (kindCode first) with
  | none => .error (.invalidKind (kindCode first))
  | some kind =>
    .ok { kind
          flag := flagOf first
          bodyLength := UInt32.ofNat (Bytes.toNat ((data.drop 1).take 4))
          id := (UInt32.ofNat (Bytes.toNat ((data.drop 5).take 4))).toInt32 }

theorem kindCode_first (kind : Kind) (flag : Bool) : kindCode (first kind flag) = kind.code := by
  cases kind <;> cases flag <;> rfl

theorem flagOf_first (kind : Kind) (flag : Bool) : flagOf (first kind flag) = flag := by
  cases kind <;> cases flag <;> rfl

theorem length_build (h : Header) : h.build.length = size := by
  simp [build, Bytes.ofWord32, size]

theorem parse_build (h : Header) : parse h.build = .ok h := by
  have l (w : UInt32) : (Bytes.ofWord32 w).length = 4 := by simp [Bytes.ofWord32]
  have a (v w : UInt32) : (Bytes.ofWord32 v ++ Bytes.ofWord32 w).take 4 = Bytes.ofWord32 v := by
    rw [List.take_append_of_le_length (by simp [l]), List.take_of_length_le (by simp [l])]
  have b (v w : UInt32) :
      ((Bytes.ofWord32 v ++ Bytes.ofWord32 w).drop 4).take 4 = Bytes.ofWord32 w := by
    rw [List.drop_append_of_le_length (by simp [l]), List.drop_of_length_le (by simp [l])]
    simp [List.take_of_length_le, l]
  simp [parse, build, kindCode_first, flagOf_first, Kind.ofCode?_code, a, b,
    Bytes.word32_ofWord32]

end Header

end PeerLink.Wire

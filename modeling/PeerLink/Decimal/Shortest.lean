/-! The shortest decimal that reads back as a given binary floating-point number, and among several of
that length the nearest. -/
namespace PeerLink.Decimal

/-- A decimal number `digits * 10 ^ exponent`. -/
structure Scientific where
  digits : Nat
  exponent : Int
  deriving DecidableEq, Repr

/-- The numbers that round to one floating-point number, as multiples of `1 / unit`: from `low` to
`high` around `mid`, ends included if `closed`. -/
structure Rounding where
  low : Nat
  mid : Nat
  high : Nat
  unit : Nat
  closed : Bool

/-- The bit above the stored ones, which all but the smallest doubles have. -/
def hiddenBit : Nat := 0x10000000000000

/-- The interval of the double with significand `m` and exponent `q`. Below a power of two the next
double is half as far away as above, unless it is the least exponent. -/
def Rounding.ofBinary (m : Nat) (q : Int) : Rounding :=
  let scale := 1 <<< q.toNat
  let below := if m = hiddenBit ∧ q > -1074 then scale else 2 * scale
  { low := 4 * m * scale - below
    mid := 4 * m * scale
    high := 4 * m * scale + 2 * scale
    unit := 4 <<< (-q).toNat
    closed := m % 2 == 0 }

/-- The exponent of the leading decimal digit of `mid / unit`. -/
def Rounding.magnitude (r : Rounding) : Int :=
  if r.mid / r.unit > 0 then ((Nat.toDigits 10 (r.mid / r.unit)).length : Int) - 1
  else match (List.range 400).find? fun j => r.unit ≤ r.mid * Nat.pow 10 j with
    | some j => -(j : Int)
    | none => 0

/-- The better of the two neighbours of `mid / unit` with `count` digits, if one rounds back. -/
def Rounding.candidate? (r : Rounding) (count : Nat) : Option Scientific :=
  let exponent := r.magnitude - (count : Int) + 1
  let step := Nat.pow 10 exponent.toNat * r.unit
  let refine := Nat.pow 10 (-exponent).toNat
  let low := r.low * refine
  let mid := r.mid * refine
  let high := r.high * refine
  let inside (n : Nat) : Bool :=
    if r.closed then low ≤ n * step && n * step ≤ high else low < n * step && n * step < high
  let below := mid / step
  let above := below + 1
  let belowGap := mid - below * step
  let aboveGap := above * step - mid
  match inside below, inside above with
  | true, true =>
    if belowGap < aboveGap || (belowGap == aboveGap && below % 2 == 0) then some ⟨below, exponent⟩
    else some ⟨above, exponent⟩
  | true, false => some ⟨below, exponent⟩
  | false, true => some ⟨above, exponent⟩
  | false, false => none

/-- Move trailing zeros of the digits into the exponent. -/
def Scientific.trim : Nat → Scientific → Scientific
  | 0, s => s
  | fuel + 1, s =>
    if s.digits ≠ 0 ∧ s.digits % 10 = 0 then trim fuel ⟨s.digits / 10, s.exponent + 1⟩ else s

/-- The shortest decimal in the interval; seventeen digits always suffice. -/
def Rounding.shortest (r : Rounding) : Scientific :=
  match (List.range 17).findSome? fun n => r.candidate? (n + 1) with
  | some s => s.trim 20
  | none => ⟨0, 0⟩

/-- A finite double without its sign: significand and exponent. -/
def magnitudeOfBits (bits : UInt64) : Nat × Int :=
  let fraction : Nat := bits.toNat % hiddenBit
  let biased : Nat := bits.toNat / hiddenBit % 0x800
  if biased = 0 then (fraction, -1074) else (hiddenBit + fraction, (biased : Int) - 1075)

/-- The sign of a double, set for `-0`. -/
def negativeBits (bits : UInt64) : Bool :=
  0x8000000000000000 ≤ bits.toNat

/-- The shortest decimal for the size of a finite double. -/
def ofBits (bits : UInt64) : Scientific :=
  let (m, q) := magnitudeOfBits bits
  if m = 0 then ⟨0, 0⟩ else (Rounding.ofBinary m q).shortest

end PeerLink.Decimal

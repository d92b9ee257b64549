/-!
Byte strings and words. A word is written most significant byte first, and reading what was written
gives the word back (`word32_ofWord32`).
-/
namespace PeerLink

/-- A byte string, first byte at the head. -/
abbrev Bytes := List UInt8

namespace Bytes

/-- The number with these digits in base 256, most significant first. -/
def toNat (s : Bytes) : Nat :=
  s.foldl (fun n b => n * 256 + b.toNat) 0

/-- The last `count` digits of a number in base 256, most significant first. -/
def ofNat : (count n : Nat) → Bytes
  | 0, _ => []
  | count + 1, n => UInt8.ofNat (n / Nat.pow 256 count) :: ofNat count n

def ofWord16 (w : UInt16) : Bytes :=
  ofNat 2 w.toNat

def ofWord32 (w : UInt32) : Bytes :=
  ofNat 4 w.toNat

@[simp] theorem length_ofNat (count n : Nat) : (ofNat count n).length = count := by
  induction count with
  | zero => rfl
  | succ count ih => simp [ofNat, ih]

theorem word32_ofWord32 (w : UInt32) : UInt32.ofNat (toNat (ofWord32 w)) = w := by
  apply UInt32.toNat_inj.1
  have := w.toNat_lt
  simp [toNat, ofWord32, ofNat]
  omega

end Bytes

end PeerLink

import Mathlib.Algebra.Group.Nat.Defs
import Mathlib.Data.List.Induction
import PeerLink.Bytes

/-! Byte strings as digits. Reading a number and writing it with as many digits undo each other
(`ofNat_toNat`, `toNat_ofNat`), which makes the words of a packet and their bytes the same thing. -/
namespace PeerLink.Bytes

theorem toNat_concat (s : Bytes) (b : UInt8) : toNat (s ++ [b]) = toNat s * 256 + b.toNat := by
  rw [toNat, List.foldl_append]
  rfl

theorem toNat_lt (s : Bytes) : toNat s < 256 ^ s.length := by
  induction s using List.reverseRecOn with
  | nil => exact Nat.one_pos
  | append_singleton s b ih =>
      have hByte := b.toNat_lt
      rw [toNat_concat, List.length_append, List.length_singleton, Nat.pow_succ]
      omega

/-- The last digit, split off. -/
theorem ofNat_succ (count n : Nat) :
    ofNat (count + 1) n = ofNat count (n / 256) ++ [UInt8.ofNat n] := by
  induction count with
  | zero => simp [ofNat]
  | succ count ih =>
      rw [ofNat, ih, ofNat, Nat.div_div_eq_div_mul, List.cons_append,
        show Nat.pow 256 (count + 1) = 256 * Nat.pow 256 count from Nat.pow_succ']

theorem ofNat_toNat (s : Bytes) : ofNat s.length (toNat s) = s := by
  induction s using List.reverseRecOn with
  | nil => rfl
  | append_singleton s b ih =>
      have hByte := b.toNat_lt
      have hDiv : (toNat s * 256 + b.toNat) / 256 = toNat s := by omega
      have hLast : UInt8.ofNat (toNat s * 256 + b.toNat) = b := by
        apply UInt8.toNat_inj.1
        simp
      rw [toNat_concat, List.length_append, List.length_singleton, ofNat_succ, hDiv, hLast, ih]

theorem toNat_ofNat {count n : Nat} (h : n < 256 ^ count) : toNat (ofNat count n) = n := by
  induction count generalizing n with
  | zero => rw [Nat.lt_one_iff.1 h]; rfl
  | succ count ih =>
      rw [ofNat_succ, toNat_concat, ih (Nat.div_lt_of_lt_mul (by rwa [Nat.pow_succ'] at h))]
      simp
      omega

/-- The bytes of the word that four bytes are read as. -/
theorem ofWord32_toNat {s : Bytes} (hLength : s.length = 4) :
    ofWord32 (UInt32.ofNat (toNat s)) = s := by
  have hSmall := toNat_lt s
  rw [hLength] at hSmall
  rw [ofWord32, UInt32.toNat_ofNat_of_lt' hSmall, ← hLength, ofNat_toNat]

end PeerLink.Bytes

import PeerLink.Decimal.Shortest

/-! The written form of floating-point numbers: positional notation with at least one decimal while
the leading digit stands for `10 ^ -5` to `10 ^ 15`, otherwise one digit before the point and a
signed exponent of at least two digits. -/
namespace PeerLink.Decimal

def zeros (n : Nat) : String :=
  String.ofList (List.replicate n '0')

/-- The written form of a decimal without sign. -/
def Scientific.written (s : Scientific) : String :=
  let digits := Nat.toDigits 10 s.digits
  let point : Int := digits.length + s.exponent
  if s.digits = 0 then "0.0"
  else if 0 ≤ s.exponent ∧ point ≤ 16 then
    String.ofList digits ++ zeros s.exponent.toNat ++ ".0"
  else if 0 < point ∧ point ≤ 16 then
    String.ofList (digits.take point.toNat) ++ "." ++ String.ofList (digits.drop point.toNat)
  else if -5 < point ∧ point ≤ 0 then
    "0." ++ zeros (-point).toNat ++ String.ofList digits
  else
    let size := (point - 1).natAbs
    let mantissa := match digits.drop 1 with
      | [] => String.ofList digits
      | rest => String.ofList (digits.take 1) ++ "." ++ String.ofList rest
    mantissa ++ (if point - 1 < 0 then "e-" else "e+") ++ (if size < 10 then "0" else "") ++
      toString size

/-- The written form of a finite double. -/
def floatText (x : Float) : String :=
  let bits := x.toBits
  (if negativeBits bits then "-" else "") ++ (ofBits bits).written

end PeerLink.Decimal

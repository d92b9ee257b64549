/-! Lengths of time in whole nanoseconds, and their written form: the largest unit of which there is
at least one, with as many decimals as it takes. -/
namespace PeerLink

structure Duration where
  nanos : Nat
  deriving DecidableEq, Repr

namespace Duration

def ofMillis (n : Nat) : Duration :=
  ⟨n * 1000000⟩

/-- The whole milliseconds. -/
def millis (d : Duration) : Nat :=
  d.nanos / 1000000

/-- The last `places` decimal digits of a number. -/
def decimals : (places n : Nat) → List Char
  | 0, _ => []
  | places + 1, n => decimals places (n / 10) ++ [Nat.digitChar (n % 10)]

/-- A number of units, of which each is `10 ^ places` nanoseconds. -/
def inUnits (nanos places : Nat) : String :=
  let fraction := (decimals places nanos).reverse.dropWhile (· == '0')
  toString (nanos / Nat.pow 10 places) ++
    (if fraction.isEmpty then "" else "." ++ String.ofList fraction.reverse)

def text (d : Duration) : String :=
  if 1000000000 ≤ d.nanos then inUnits d.nanos 9 ++ "s"
  else if 1000000 ≤ d.nanos then inUnits d.nanos 6 ++ "ms"
  else if 1000 ≤ d.nanos then inUnits d.nanos 3 ++ "µs"
  else toString d.nanos ++ "ns"

end Duration

end PeerLink

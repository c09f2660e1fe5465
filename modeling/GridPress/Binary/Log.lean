import GridPress.Binary.Double

namespace GridPress.Double

open Binary (Format)

-- The logarithm of `2 ^ k * (1 + j / 2 ^ 52)` is about `k + j / (2 ^ 52 * ln 2)`, and the nearest
-- double is `k` if the excess is less than half the spacing there. This is the largest such `j` if
-- the spacing is that of numbers around `2 ^ p`. That a logarithm is the nearest double is an
-- assumption, on which it rests that no excess is lost below 48 bits.
def logSlack (p : Nat) : Nat :=
  2 ^ p * 693147 / 1000000

-- The exponent `k` and the excess `j` of a finite number that is 1 or more.
def logParts (x : Double) : Nat × Nat :=
  (x.magnitude / 2 ^ 52 - 1023, x.magnitude % 2 ^ 52)

-- The logarithm of `x`, which is at least 1, rounded up.
def ceilLog2 (x : Double) : Nat :=
  let (k, j) := x.logParts
  if j = 0 ∨ (2 ≤ k ∧ j ≤ logSlack (k.log2 - 1)) then k else k + 1

-- The logarithm of `x`, which is at least 1, rounded down.
def floorLog2 (x : Double) : Nat :=
  let (k, j) := x.logParts
  if 1 ≤ k ∧ 2 ^ 52 - j ≤ logSlack k.log2 then k + 1 else k

end GridPress.Double

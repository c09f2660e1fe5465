import GridPress.Binary.Format

namespace GridPress.Text

open Binary (Format)

-- A positive decimal: `digits * 10 ^ exponent`. The decimals that read as one number are an
-- interval around it, and the shortest of them lies on the coarsest grid of decimals that the
-- interval contains a point of.
structure Decimal where
  digits   : Nat
  exponent : Int
deriving DecidableEq

namespace Decimal

-- The decimal is `numerator / denominator`.
def numerator (x : Decimal) : Nat :=
  x.digits * 10 ^ x.exponent.toNat

def denominator (x : Decimal) : Nat :=
  10 ^ (-x.exponent).toNat

-- Whether reading `x` gives the magnitude `m`: twice `x`, in units, is compared with the sums of
-- `m` and each neighbour.
def ReadsBack (f : Format) (m : Nat) (x : Decimal) : Prop :=
  let twice := 2 * f.one * x.numerator
  let low := (f.units (m - 1) + f.units m) * x.denominator
  let high := (f.units m + f.units (m + 1)) * x.denominator
  if m % 2 = 0 then low ≤ twice ∧ twice ≤ high else low < twice ∧ twice < high

instance (f : Format) (m : Nat) (x : Decimal) : Decidable (ReadsBack f m x) := by
  unfold ReadsBack
  exact inferInstance

-- The point of the grid of step `10 ^ e` that is at or just below the magnitude `m`.
def below (f : Format) (m : Nat) (e : Int) : Decimal :=
  ⟨f.units m * 10 ^ (-e).toNat / (f.one * 10 ^ e.toNat), e⟩

-- Whether the point above `x` on its grid is at least as near to the magnitude as `x`.
def UpperNearer (f : Format) (m : Nat) (x : Decimal) : Prop :=
  f.one * ((2 * x.digits + 1) * 10 ^ x.exponent.toNat) ≤ 2 * f.units m * x.denominator

instance (f : Format) (m : Nat) (x : Decimal) : Decidable (UpperNearer f m x) := by
  unfold UpperNearer
  exact inferInstance

-- The better point of the grid of step `10 ^ e` that reads back as `m`, the upper one of two
-- equally near.
def onGrid? (f : Format) (m : Nat) (e : Int) : Option Decimal :=
  let low := below f m e
  let high : Decimal := ⟨low.digits + 1, e⟩
  if ReadsBack f m low ∧ 0 < low.digits then
    if ReadsBack f m high ∧ UpperNearer f m low then some high else some low
  else if ReadsBack f m high then
    some high
  else
    none

-- The first of the grids `10 ^ e`, `10 ^ (e - 1)`, … that holds a point reading back as `m`.
def search (f : Format) (m : Nat) : Nat → Int → Decimal
  | 0, e => below f m e
  | n + 1, e => (onGrid? f m e).getD (search f m n (e - 1))

-- A power of ten above the number. Its binary logarithm is at most `k`, and 0.302 is above the
-- decimal logarithm of 2.
def startExponent (f : Format) (m : Nat) : Int :=
  let k : Int := (f.units m).log2 + 1 - f.one.log2
  if 0 ≤ k then k * 302 / 1000 + 1 else k * 301 / 1000 + 1

-- From the power above, the grid that separates all numbers of the format is less than this far.
def gridCount (f : Format) : Nat :=
  f.mantissaBits / 3 + 10

-- The shortest decimal of the finite magnitude `m`, which is not 0.
def shortest (f : Format) (m : Nat) : Decimal :=
  search f m (gridCount f) (startExponent f m)

end Decimal
end GridPress.Text

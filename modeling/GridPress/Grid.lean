import GridPress.Binary.Log
import GridPress.Element
import GridPress.Hints

namespace GridPress

structure Grid where
  origin : Double
  half   : Double
deriving DecidableEq

namespace Grid

-- The widest code that a double still tells apart from its neighbours.
def maxBits : Nat := 53

def step (g : Grid) : Double :=
  .ofNat 2 * g.half

-- The number of the grid point nearest to `x`, halves away from zero.
def code (g : Grid) (x : Double) : Nat :=
  ((x - g.origin) / g.step).roundToNat Size.max

def point (g : Grid) (code : Nat) : Double :=
  g.origin + .ofNat code * g.step

-- The point of `x` after a passage through the element type. A narrow type can move it.
def reconstruct (g : Grid) (k : FloatKind) (x : Double) : Double :=
  k.toDouble (k.ofDouble (g.point (g.code x)))

def reconstructsWithin (g : Grid) (k : FloatKind) (tolerance x : Double) : Bool :=
  (g.reconstruct k x - x).abs ≤ tolerance

-- The number of grid points from `low` to `high`, and of `reserved` codes on top of them.
def codeCount (low high half : Double) (reserved : Nat) : Double :=
  .ofNat 1 + (high - low) / (.ofNat 2 * half) + .ofNat reserved

-- The bits that tell these codes apart.
def bitsNeeded (low high half : Double) (reserved : Nat) : Result Nat :=
  if !half.isFinite || half ≤ .zero then
    .error (.precision (.tolerance half))
  else if low.isNaN || high.isNaN || high < low then
    .error (.buffer (.range low high))
  else
    let codes := codeCount low high half reserved
    if codes.isFinite && codes.ceilLog2 ≤ maxBits then
      .ok codes.ceilLog2
    else
      .error (.precision (.range low high half))

def widen : Option (Double × Double) → Double → Option (Double × Double)
  | none, x => some (x, x)
  | some (low, high), x => some (low.min x, high.max x)

-- The least and the largest of the finite numbers that are not excluded.
def range? (excluded : Double → Bool) (xs : List Double) : Option (Double × Double) :=
  (xs.filter fun x => x.isFinite && !excluded x).foldl widen none

end Grid
end GridPress

import GridPress.Element
import GridPress.Hints
import GridPress.Binary.Log

namespace GridPress

structure Accuracy where
  -- Largest absolute error.
  absolute : Double
  -- Largest relative error in percent, of errors that are not below the floor.
  relative : Double
  -- Largest error below the floor, or the largest error if none is below.
  floor    : Double
  bits     : Int
  digits   : Int
deriving DecidableEq

namespace Accuracy

-- The worst figures among the elements seen so far.
structure Worst where
  absolute : Double := .zero
  relative : Double := .zero
  floor    : Double := .zero
  bits     : Nat
deriving DecidableEq

-- An element, its reconstruction, the error between them and the bits they share.
structure Comparison where
  original      : Double
  reconstructed : Double
  error         : Double
  bits          : Nat
deriving DecidableEq

def Comparison.relativeError (c : Comparison) : Double :=
  if c.original.equal .zero then
    .infinity
  else
    (.ofNat 1 - c.reconstructed / c.original).abs

def Worst.record (floor : Double) (w : Worst) (c : Comparison) : Worst :=
  let w := { w with absolute := w.absolute.max c.error, bits := min w.bits c.bits }
  if c.error.equal .zero then
    w
  else if floor ≤ c.error then
    { w with relative := w.relative.max c.relativeError }
  else
    { w with floor := w.floor.max c.error }

-- The number of leading mantissa bits on which two words agree. None if their signs differ or
-- their exponents are more than one apart; one apart, the difference is measured in the last place
-- of the larger.
def matchingBits (k : FloatKind) (v w : Nat) : Nat :=
  let m := k.format.mantissaBits
  let x := k.format.split v
  let y := k.format.split w
  let difference? : Option Nat :=
    if x.sign ≠ y.sign then
      none
    else if x.exponent = y.exponent then
      some (x.mantissa - y.mantissa + (y.mantissa - x.mantissa))
    else if x.exponent = y.exponent + 1 then
      some (((2 ^ m + x.mantissa) * 2 - (2 ^ m + y.mantissa)) / 2)
    else if y.exponent = x.exponent + 1 then
      some (((2 ^ m + y.mantissa) * 2 - (2 ^ m + x.mantissa)) / 2)
    else
      none
  match difference? with
  | none => 0
  | some 0 => m
  | some d => m - d.log2

def compareFloats (k : FloatKind) (v w : Nat) : Comparison :=
  let x := k.toDouble v
  let y := k.toDouble w
  ⟨x, y, if x.equal y then .zero else (x - y).abs, matchingBits k v w⟩

-- The bits of an integer type without its sign.
def valueBits (t : Datatype) : Nat :=
  t.width - 1

-- The bits of the element above those of the error.
def compareInts (t : Datatype) (v w : Nat) : Comparison :=
  let x := Element.toDouble t v
  let y := Element.toDouble t w
  let error := (x - y).abs
  let bits :=
    if error.equal .zero then
      valueBits t
    else
      (x.abs.max (.ofNat 1)).floorLog2 - error.floorLog2
  ⟨x, y, error, bits⟩

def comparisons (t : Datatype) (vs ws : List Nat) : List Comparison :=
  match t.kind? with
  | some k => List.zipWith (compareFloats k) vs ws
  | none => List.zipWith (compareInts t) vs ws

-- The bits that an exact reproduction scores.
def bestBits (t : Datatype) : Nat :=
  t.mantissaBits?.getD (valueBits t)

def Worst.summary (w : Worst) : Accuracy where
  absolute := w.absolute
  relative := w.relative * .ofNat 100
  floor    := if w.floor.equal .zero then w.absolute else w.floor
  bits     := w.bits
  digits   := Hints.decimalsOfBits w.bits

-- Errors below `floor` are judged as absolute ones.
def determine (t : Datatype) (floor : Double) (original reconstructed : Bytes) :
    Result Accuracy := do
  if original.length ≠ reconstructed.length then
    throw (.buffer (.comparedSizes original.length reconstructed.length))
  let vs ← Element.decode t original
  let ws ← Element.decode t reconstructed
  return ((comparisons t vs ws).foldl (Worst.record floor) { bits := bestBits t }).summary

end Accuracy
end GridPress

import GridPress.Grid

namespace GridPress.Stage

inductive Role where
  | fill
  | exact
  | regular
deriving DecidableEq

-- How elements are placed on a grid, which starts at the least one that is free to move.
structure Placement where
  kind  : FloatKind
  hints : Hints
  words : List Nat
  low   : Double
  high  : Double
  step  : Double

namespace Placement

-- The grid's step in tolerances, 1.95.
def stepFactor : Double :=
  .ofWord 0x3fff333333333333

-- Whether `x` may not move at all.
def isFixed (h : Hints) (x : Double) : Bool :=
  !x.isFinite || h.isExactPoint x

-- Places words on the grid that their range and the tolerance give.
def onGrid (k : FloatKind) (h : Hints) (words : List Nat) : Placement :=
  let (low, high) := (Grid.range? (isFixed h) (words.map k.toDouble)).getD (.zero, .zero)
  { kind := k, hints := h, words, low, high, step := h.absoluteTolerance * stepFactor }

def make (stage : String) (k : FloatKind) (h : Hints) (dims : Dims) (src : Bytes) :
    Result Placement := do
  let tolerance := h.absoluteTolerance
  if !(.zero < tolerance && tolerance < .largest) then
    throw (.precision (.noTolerance stage))
  return onGrid k h (← Element.decodeAs k.datatype dims src)

variable (p : Placement)

def grid : Grid where
  origin := p.low
  half   := p.step / .ofNat 2

def role (w : Nat) : Role :=
  let x := p.kind.toDouble w
  if p.hints.isFill x then
    .fill
  else if isFixed p.hints x then
    .exact
  else if p.grid.reconstructsWithin p.kind p.hints.absoluteTolerance x then
    .regular
  else
    .exact

-- The elements that are kept exactly, in order.
def exactWords : List Nat :=
  p.words.filter fun w => p.role w = .exact

def hasExact : Bool :=
  !p.exactWords.isEmpty

def code (w : Nat) : Nat :=
  p.grid.code (p.kind.toDouble w)

end Placement
end GridPress.Stage

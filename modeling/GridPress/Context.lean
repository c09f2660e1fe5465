import GridPress.Chain

namespace GridPress

structure Context where
  datatype : Datatype
  hints    : Hints
  lossless : Bool
  chain?   : Option Chain

namespace Hints

-- The most bits and digits that can be asked for. Beyond them, the finest precision is meant.
def maxBits (t : Datatype) : Nat :=
  t.mantissaBits?.getD 52

def maxDigits (t : Datatype) : Nat :=
  t.significantDigits?.getD 15

def clampPrecision (t : Datatype) (h : Hints) : Hints :=
  if maxDigits t < h.significantDigits ∨ maxBits t < h.significantBits then
    { h with significantDigits := finestPrecision, significantBits := finestPrecision }
  else
    h

-- Raises the bits to what the digits need.
def raiseBits (h : Hints) : Hints :=
  if h.significantDigits = 0 then
    h
  else
    { h with significantBits := max h.significantBits (bitsOfDecimals h.significantDigits) }

-- Raises the digits to what the bits carry.
def raiseDigits (h : Hints) : Hints :=
  if h.significantBits = 0 then
    h
  else
    let digits := decimalsOfBits h.significantBits
    { h with significantDigits :=
        if h.significantDigits = 0 then digits else max digits h.significantDigits }

-- Whether a tolerance leaves no room at all.
def isFinest (x : Double) : Bool :=
  !x.equal .zero && x ≤ finestTolerance

def requiresLossless (h : Hints) : Bool :=
  isFinest h.absoluteTolerance || isFinest h.absoluteFloor || isFinest h.relativeTolerance ||
    h.significantDigits = finestPrecision || h.significantBits = finestPrecision

-- A tolerance of no interest becomes the largest one.
def openTolerance (x : Double) : Double :=
  if x.equal .zero then .largest else x

def openTolerances (h : Hints) : Hints :=
  { h with
    relativeTolerance := openTolerance h.relativeTolerance
    absoluteFloor     := openTolerance h.absoluteFloor
    absoluteTolerance := openTolerance h.absoluteTolerance }

end Hints

namespace Context

def make [Codecs] (t : Datatype) (h : Hints) : Result Context := do
  let resolved := ((h.clampPrecision t).raiseBits).raiseDigits
  let chain? ← h.forcedChain.mapM Chain.parse
  return {
    datatype := t
    hints    := resolved.openTolerances
    lossless := resolved.requiresLossless
    chain? }

-- Sets the chain unless there is one.
def setChain (c : Context) (chain : Chain) : Context :=
  match c.chain? with
  | some _ => c
  | none => { c with chain? := some chain }

def requireLossless (c : Context) : Context :=
  { c with lossless := true }

end Context

-- A step on a context. What it has changed before it fails stays changed.
abbrev ContextM := ExceptT Error (StateM Context)

end GridPress

import GridPress.Text.Real

namespace GridPress

inductive SpeedUnit where
  | ignore
  | mebibytes
  | gibibytes
  | network
  | nodeLocalStorage
  | sharedStorage
deriving DecidableEq

namespace SpeedUnit

def all : List SpeedUnit :=
  [ignore, mebibytes, gibibytes, network, nodeLocalStorage, sharedStorage]

def name : SpeedUnit → String
  | ignore => "IGNORE"
  | mebibytes => "MiB"
  | gibibytes => "GiB"
  | network => "NetworkSpeed"
  | nodeLocalStorage => "NodeLocalStorageSpeed"
  | sharedStorage => "SingleStreamSharedStorageSpeed"

def ofName? (s : String) : Option SpeedUnit :=
  all.find? fun u => u.name == s

end SpeedUnit

-- A required speed. The multiplier is a word of the single format.
structure Speed where
  unit       : SpeedUnit := .ignore
  multiplier : Nat       := 0
deriving DecidableEq

def Speed.text (s : Speed) : String :=
  s!"{Text.plain .single s.multiplier} * {s.unit.name}"

namespace Hints

def finestTolerance : Double :=
  .ofWord 0x0031fa182c40c60d

def finestPrecision : Int := -1

-- The fill value that stands for none.
def noFill : Double :=
  .largest

end Hints

-- What a user tolerates and requires. A bound or a precision of zero is of no interest.
structure Hints where
  -- Largest error relative to the value, in percent.
  relativeTolerance  : Double := .zero
  -- Errors below this count as absolute ones.
  absoluteFloor      : Double := .zero
  -- Largest absolute error.
  absoluteTolerance  : Double := .zero
  significantDigits  : Int    := 0
  significantBits    : Int    := 0
  -- Values at or below this are kept exactly.
  losslessUpTo       : Double := -.largest
  -- Values at or above this are kept exactly.
  losslessFrom       : Double := .largest
  -- A value that marks missing data.
  fillValue          : Double := Hints.noFill
  compressionSpeed   : Speed  := {}
  decompressionSpeed : Speed  := {}
  -- A chain that is used without any choice.
  forcedChain        : Option String := none
deriving DecidableEq

namespace Hints

def hasFill (h : Hints) : Bool :=
  !h.fillValue.equal noFill

def isFill (h : Hints) (x : Double) : Bool :=
  h.hasFill && x.equal h.fillValue

-- Whether `x` has to be reproduced exactly: it is the fill value or lies in a lossless range.
def isExactPoint (h : Hints) (x : Double) : Bool :=
  h.isFill x || x ≤ h.losslessUpTo || h.losslessFrom ≤ x

def hasLosslessRange (h : Hints) : Bool :=
  -Double.largest < h.losslessUpTo || h.losslessFrom < Double.largest

-- The largest precision that can be asked for.
def precisionLimit : Nat :=
  2 ^ 31 - 1

-- The base-two logarithm of 10.
def bitsPerDecimal : Double :=
  .ofWord 0x400a934f0979a371

-- The decimal logarithm of 2.
def decimalsPerBit : Double :=
  .ofWord 0x3fd34413509f79ff

-- The bits that carry `n` significant decimal digits. The special values stay what they are.
def bitsOfDecimals (n : Int) : Int :=
  if n ≤ 0 then n else (Double.ofInt n * bitsPerDecimal).ceilToNat precisionLimit

-- The digits that `n` significant bits amount to, rounded down unless they would lose bits.
def decimalsOfBits (n : Int) : Int :=
  if n ≤ 0 then
    n
  else
    let decimals : Int := (Double.ofInt n * decimalsPerBit).floorToNat precisionLimit
    if bitsOfDecimals decimals < n then decimals + 1 else decimals

def toleranceText (x : Double) : String :=
  if x.equal .zero || x.equal .largest then
    "IGNORE"
  else if x.equal finestTolerance then
    "FINEST"
  else
    x.fixed 16

def precisionText (n : Int) : String :=
  if n = finestPrecision then "FINEST" else toString n

def lines (h : Hints) : List String :=
  ["hints:",
    s!"\tsig digits:\t{precisionText h.significantDigits}",
    s!"\tsig bits:\t{precisionText h.significantBits}",
    s!"\tabs tol:\t{toleranceText h.absoluteTolerance}",
    s!"\trel percent:\t{toleranceText h.relativeTolerance}",
    s!"\trel abs tol:\t{toleranceText h.absoluteFloor}"] ++
  (if h.hasFill then [s!"\tfill value:\t{h.fillValue.plain}"] else []) ++
  [s!"\tComp speed: {h.compressionSpeed.text}",
    s!"\tDeco speed: {h.decompressionSpeed.text}"]

-- The lines, each of them ended.
def text (h : Hints) : String :=
  String.join (h.lines.map (· ++ "\n"))

end Hints
end GridPress

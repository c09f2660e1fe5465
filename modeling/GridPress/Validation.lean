import GridPress.Accuracy
import GridPress.Context
import GridPress.Stream.Decompress

namespace GridPress.Validation

inductive Requirement where
  | identity
  | absoluteTolerance
  | relativeTolerance
  | absoluteFloor
  | significantDigits
  | significantBits
deriving DecidableEq

def Requirement.name : Requirement → String
  | identity => "identity"
  | absoluteTolerance => "absolute_tolerance"
  | relativeTolerance => "relative_tolerance_percent"
  | absoluteFloor => "relative_err_finest_abs_tolerance"
  | significantDigits => "significant_digits"
  | significantBits => "significant_bits"

structure Report where
  accuracy : Accuracy
  failures : List Requirement
  lossless : Bool
deriving DecidableEq

def Report.passed (r : Report) : Bool :=
  r.failures.isEmpty

-- Whether an accuracy falls short of a requirement.
def isMissed (h : Hints) (a : Accuracy) : Requirement → Bool
  | .identity => false
  | .absoluteTolerance => h.absoluteTolerance < a.absolute
  | .relativeTolerance => h.relativeTolerance < a.relative
  | .absoluteFloor => h.absoluteFloor < a.floor
  | .significantDigits => a.digits < h.significantDigits
  | .significantBits => a.bits < h.significantBits

def tolerances : List Requirement :=
  [.absoluteTolerance, .relativeTolerance, .absoluteFloor, .significantDigits, .significantBits]

def failures (c : Context) (a : Accuracy) (original restored : Bytes) : List Requirement :=
  if c.lossless then
    if original = restored then [] else [.identity]
  else
    tolerances.filter (isMissed c.hints a)

-- Decompresses a stream and compares the outcome with the original.
def validate [Codecs] (c : Context) (dims : Dims) (original stream : Bytes) : Result Report := do
  let restored ← Stream.decompress c.datatype dims stream
  let accuracy ← Accuracy.determine c.datatype c.hints.absoluteFloor original restored
  return ⟨accuracy, failures c accuracy original restored, c.lossless⟩

end GridPress.Validation

import GridPress.Size
import GridPress.Text.Blank
import GridPress.Text.Numeral

namespace GridPress

inductive Forced where
  | lossless
  | chain (spec : String)
deriving DecidableEq

structure Environment where
  forced?     : Option Forced := none
  sampleLimit : Nat           := 10000
deriving DecidableEq

namespace Environment

def chainVariable : String :=
  "SCIL_FORCE_COMPRESSION_CHAIN"

def sampleVariable : String :=
  "SCIL_CHOOSER_SAMPLE_LIMIT"

-- The word `lossless` asks for lossless compression, and anything else that is not blank is taken
-- for a chain.
def readForced? (s : String) : Option Forced :=
  let s := Text.trim s
  if s.isEmpty then
    none
  else if s = "lossless" then
    some .lossless
  else
    some (.chain s)

-- A positive number. What is none has no effect.
def readLimit? (s : String) : Option Nat :=
  (Text.natural? Size.max (Text.strip s.toList)).filter (0 < ·)

def ofLookup (lookup : String → Option String) : Environment where
  forced?     := (lookup chainVariable).bind readForced?
  sampleLimit := ((lookup sampleVariable).bind readLimit?).getD ({} : Environment).sampleLimit

end Environment
end GridPress

import GridPress.Codec.Bundled
import GridPress.CommandLine.Arguments
import GridPress.CommandLine.Files
import GridPress.CommandLine.Report
import GridPress.File
import GridPress.Stream.Compress

namespace GridPress.CommandLine

-- Why a command fails: what it was doing, or what is wrong if that says it all.
structure Failure where
  message : String
  cause?  : Option String := none
deriving DecidableEq

-- The cause stands indented below the message.
def Failure.text (f : Failure) : String :=
  match f.cause? with
  | none => s!"Error: {f.message}\n"
  | some cause =>
    let lines := (Text.separate '\n' cause.toList).map fun cs => s!"    {String.ofList cs}\n"
    s!"Error: {f.message}\n\nCaused by:\n{String.join lines}"

-- Why a run stops before its end. It crashes at a line that cannot be printed, and where the
-- library does.
inductive Halt where
  | failed (failure : Failure)
  | crashed
deriving DecidableEq

inductive Outcome where
  | malformed
  | finished
  | failed (failure : Failure)
  | crashed
deriving DecidableEq

def Outcome.exitCode : Outcome → Nat
  | finished => 0
  | failed _ => 1
  | malformed => 2
  | crashed => 101

abbrev Job (m : Type → Type) := ExceptT Halt m

variable {m : Type → Type} [Monad m]

namespace Job

def fail (message : String) : Job m α :=
  throw (.failed ⟨message, none⟩)

-- A step of the library, of which `doing` tells what it is for.
def attempt (doing : String) : Result α → Job m α
  | .ok a => pure a
  | .error (.crash _) => throw .crashed
  | .error e => throw (.failed ⟨doing, some e.message⟩)

-- A step whose errors speak for themselves.
def expect : Result α → Job m α
  | .ok a => pure a
  | .error (.crash _) => throw .crashed
  | .error e => fail e.message

def printLine (sys : System m) (channel : Channel) (line : String) : Job m Unit := do
  if !(← sys.print channel line) then
    throw .crashed

def report (sys : System m) (lines : List String) : Job m Unit :=
  lines.forM (printLine sys .report)

def summarize (sys : System m) (lines : List String) : Job m Unit :=
  lines.forM (printLine sys .summary)

-- Lines that may get lost.
def offer (sys : System m) (lines : List String) : Job m Unit :=
  lines.forM fun line => discard (sys.print .report line)

end Job

open Job

def usage : List String :=
  ["Usage: scil compress <INPUT> <OUTPUT> [OPTIONS] [--check]",
    "       scil decompress <INPUT> <OUTPUT>",
    "       scil validate <ORIGINAL> <COMPRESSED> [OPTIONS]",
    "       scil inspect <FILE>",
    "       scil list"]

def readPath (sys : System m) (kind path : String) : Job m Bytes := do
  match ← sys.read path with
  | .ok bs => return bs
  | .error e => throw (.failed ⟨s!"reading {kind} file {Text.quote path}", some e.message⟩)

def parsePath (kind path : String) : Except File.Fault α → Job m α
  | .ok a => pure a
  | .error e => throw (.failed ⟨s!"parsing {kind} file {Text.quote path}", some e.message⟩)

def readArray (sys : System m) (t : Datatype) (path : String) : Job m File.Array := do
  parsePath "array" path (File.Array.ofBytes t (← readPath sys "array" path))

def readCompressed (sys : System m) (path : String) : Job m File.Compressed := do
  parsePath "compressed" path (File.Compressed.ofBytes (← readPath sys "compressed" path))

def writePath (sys : System m) (path : String) (bs : Bytes) : Job m Unit := do
  match ← sys.write path bs with
  | .ok () => return ()
  | .error e => throw (.failed ⟨s!"writing output file {Text.quote path}", some e.message⟩)

variable [Codecs]

def makeContext (t : Datatype) (h : Hints) : Job m Context :=
  attempt "creating compression context" (Context.make t h)

-- Compresses an array in a context: the stream, and the context with the chain it was made by.
def compressArray (env : Environment) (c : Context) (a : File.Array) : Result Bytes × Context :=
  (Stream.compress env a.dims a.data).run.run c

def checkStream (sys : System m) (c : Context) (a : File.Array) (stream : Bytes) : Job m Unit := do
  let r ← expect (Validation.validate c a.dims a.data stream)
  report sys (validationLines r)
  if !r.passed then
    fail "compressed data does not meet the requested tolerances"

def compress (sys : System m) (env : Environment) (input output : String) (r : Requirements)
    (check : Bool) : Job m Unit := do
  let array ← readArray sys r.datatype input
  let context ← makeContext r.datatype r.hints
  let (result, context) := compressArray env context array
  let stream ← attempt s!"compressing {Text.quote input}" result
  if check then
    checkStream sys context array stream
  writePath sys output (File.Compressed.toBytes ⟨r.datatype, array.dims, stream⟩)
  let raw := array.data.length
  summarize sys (compressionSummary context.chain? r.datatype array.dims raw stream.length)

def decompress (sys : System m) (input output : String) : Job m Unit := do
  let c ← readCompressed sys input
  let data ← attempt s!"decompressing {Text.quote input}"
    (Stream.decompress c.datatype c.dims c.stream)
  writePath sys output (File.Array.toBytes ⟨c.dims, data⟩)
  summarize sys (arraySummary c.datatype c.dims data.length)

-- The compressed file, and not the requirements, says which type the elements have.
def validate (sys : System m) (original compressed : String) (r : Requirements) :
    Job m Unit := do
  let c ← readCompressed sys compressed
  let array ← readArray sys c.datatype original
  if array.dims ≠ c.dims then
    fail s!"original has dims {array.dims.text}, compressed file {c.dims.text}"
  let context ← makeContext c.datatype r.hints
  let result ← expect (Validation.validate context array.dims array.data c.stream)
  report sys [s!"=== Validation: {Text.quote compressed} ==="]
  report sys (validationLines result)
  if !result.passed then
    fail "validation failed"

def inspect (sys : System m) (file : String) : Job m Unit := do
  let c ← readCompressed sys file
  let d ← attempt s!"reading stream of {Text.quote file}" (Stream.describe c.stream)
  report sys [s!"=== SCIL File: {Text.quote file} ===", ""]
  report sys (inspectionLines c.datatype c.dims d)

def Command.execute (sys : System m) (env : Environment) : Command → Job m Unit
  | .compress input output r check => CommandLine.compress sys env input output r check
  | .decompress input output => CommandLine.decompress sys input output
  | .validate original compressed r => CommandLine.validate sys original compressed r
  | .inspect file => CommandLine.inspect sys file
  | .list => report sys (algorithmLines Registry.algorithms)

def Request.execute (sys : System m) (env : Environment) : Request → Job m Unit
  | .run command => command.execute sys env
  | .version => offer sys ["scil 0.1.0"]
  | .help => offer sys usage

-- Runs the command line on its arguments.
def run (sys : System m) (env : Environment) (args : List String) : m Outcome :=
  match Request.ofArguments? args with
  | none => pure .malformed
  | some request => do
    match ← (request.execute sys env).run with
    | .ok () => return .finished
    | .error (.failed failure) => return .failed failure
    | .error .crashed => return .crashed

-- A run on files in memory that can print.
def Files.run (fs : Files) (env : Environment) (args : List String) : Outcome × Machine :=
  (CommandLine.run (Machine.system fun _ => true) env args).run { files := fs }

end GridPress.CommandLine

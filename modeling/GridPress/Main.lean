import GridPress.CommandLine.Run

namespace GridPress.CommandLine

def PathFault.ofError : IO.Error → PathFault
  | .noFileOrDirectory .. => .missing
  | .inappropriateType _ code _ => if code = 21 then .isDirectory else .notDirectory
  | .invalidArgument _ 36 _ => .nameTooLong
  | e => .other (toString e)

def attemptOn (action : IO α) : IO (Except PathFault α) := do
  try
    return .ok (← action)
  catch e =>
    return .error (.ofError e)

def printed (action : IO Unit) : IO Bool := do
  try
    action
    return true
  catch _ =>
    return false

def system : System IO where
  read path := attemptOn do return (← IO.FS.readBinFile path).toList
  write path bs := attemptOn (IO.FS.writeBinFile path (ByteArray.mk bs.toArray))
  print
    | .report, line => printed do
      IO.println line
      (← IO.getStdout).flush
    | .summary, line => printed (IO.eprintln line)

def systemEnvironment : IO Environment := do
  let chain? ← IO.getEnv Environment.chainVariable
  let sample? ← IO.getEnv Environment.sampleVariable
  return .ofLookup fun name => if name = Environment.chainVariable then chain? else sample?

-- Nothing comes of it if these lines get lost.
def Outcome.print : Outcome → IO Unit
  | .malformed => usage.forM fun l => discard (printed (IO.eprintln l))
  | .failed failure => discard (printed (IO.eprint failure.text))
  | _ => pure ()

end GridPress.CommandLine

def main (args : List String) : IO UInt32 := do
  let env ← GridPress.CommandLine.systemEnvironment
  let outcome ← GridPress.CommandLine.run GridPress.CommandLine.system env args
  outcome.print
  return UInt32.ofNat outcome.exitCode

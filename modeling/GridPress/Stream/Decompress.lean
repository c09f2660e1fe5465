import GridPress.Stream.Layout

namespace GridPress.Stream

-- The type of the elements that each entry's stage was given, and the type behind all of them.
def entryTypes : Datatype → List (Algorithm × Bytes) → List Datatype × Datatype
  | t, [] => ([], t)
  | t, (a, _) :: entries =>
    let (types, last) := entryTypes (a.outputType t) entries
    (t :: types, last)

-- Undoes the stages of entries, the last one first.
def restoreEntries (dims : Dims) (frame : Bytes) :
    List ((Algorithm × Bytes) × Datatype) → Result Bytes
  | [] => .ok frame
  | ((a, header), t) :: entries => do
    a.backward t header dims (← restoreEntries dims frame entries)

-- Undoes all stages of a layout.
def restore (t : Datatype) (dims : Dims) (l : Layout) : Result Bytes := do
  let (types, last) := entryTypes t l.entries
  let frame ←
    match l.typed? with
    | some a => a.backward last [] dims l.frame
    | none => pure l.frame
  restoreEntries dims frame (l.entries.zip types)

-- The array in the body of a stream with `n` stages, one at least.
def restoreBody [Codecs] (t : Datatype) (dims : Dims) (n : Nat) (body : Bytes) : Result Bytes := do
  let (byte?, below) ← undoByteStage body
  let remaining := n - byte?.toList.length
  if remaining = 0 then
    return below
  else
    let l ← Layout.read remaining below
    let chain ← Chain.ofAlgorithms (l.stages ++ byte?.toList)
    chain.checkApplicable t
    restore t dims l

-- The array, which must have the size that `dims` describes.
def checkSize (t : Datatype) (dims : Dims) (out : Bytes) : Result Bytes :=
  if out.length = dims.byteSize t then
    .ok out
  else
    .error (.buffer (.decodedSize out.length dims t))

def decompress [Codecs] (t : Datatype) (dims : Dims) (stream : Bytes) : Result Bytes := do
  let (n, body) ← splitCount stream
  if n = 0 then
    if dims.byteSize t = 0 ∧ body.isEmpty then
      return []
    else
      throw (.buffer (.noStages dims))
  else
    checkSize t dims (← restoreBody t dims n body)

end GridPress.Stream

import GridPress.Chooser
import GridPress.Trailer

namespace GridPress.Stream

-- The data between two stages, its type, and the entries that are not placed yet.
structure Progress where
  data    : Bytes
  type    : Datatype
  entries : Bytes := []

-- Runs one stage. Entries go behind the payload of a datatype stage or into that of a byte stage.
def runStage (h : Hints) (dims : Dims) (p : Progress) (a : Algorithm) : Result Progress :=
  match a.position with
  | .datatype => do
    let (out, _) ← a.forward p.type h dims p.data
    return { p with data := out ++ p.entries ++ [a.id], entries := [] }
  | .byte => do
    let (out, _) ← a.forward p.type h dims (p.data ++ p.entries)
    return { p with data := out ++ [a.id], entries := [] }
  | _ => do
    let (out, header) ← a.forward p.type h dims p.data
    let entry ← Trailer.Entry.toBytes ⟨a.id, header⟩
    return ⟨out, a.outputType p.type, p.entries ++ entry⟩

-- Runs a chain over `src` and counts its stages in the first byte.
def runChain (c : Chain) (t : Datatype) (h : Hints) (dims : Dims) (src : Bytes) : Result Bytes :=
  if 255 < c.size then
    .error (.invalidChain (.length c.size))
  else do
    let p ← c.stages.foldlM (runStage h dims) { data := src, type := t }
    return UInt8.ofNat c.size :: (p.data ++ p.entries)

def checkSource (t : Datatype) (dims : Dims) (src : Bytes) : Result Unit :=
  if src.length = dims.byteSize t then
    .ok ()
  else
    .error (.buffer (.source src.length dims t))

-- Compresses `src` with the context's chain, which is chosen first if there is none. An array
-- without elements becomes a stream without stages.
def compress [Codecs] (env : Environment) (dims : Dims) (src : Bytes) : ContextM Bytes := do
  let t := (← get).datatype
  liftExcept (checkSource t dims src)
  if src.isEmpty then
    return [0]
  Chooser.choose env dims src
  let c ← get
  match c.chain? with
  | some chain => do
    liftExcept (chain.checkApplicable t)
    liftExcept (runChain chain t c.hints dims src)
  | none => throw (.invalidChain (.other "no chain resolved for this context"))

-- The size that a destination has to have.
def requiredSize (t : Datatype) (dims : Dims) : Nat :=
  if dims.count = 0 then 1 else dims.sizeBound t

-- A step on a context and a destination.
abbrev DestinationM := ExceptT Error (StateM (Context × Bytes))

-- A step on the context, which leaves the destination.
def onContext {α : Type} (x : ContextM α) : DestinationM α :=
  ExceptT.mk fun (c, dest) =>
    let (result, c') := x.run.run c
    (result, c', dest)

-- Compresses into the destination and returns how many of its bytes are the stream.
def fill [Codecs] (env : Environment) (dims : Dims) (src : Bytes) : DestinationM Nat := do
  let (c, dest) ← get
  let required := requiredSize c.datatype dims
  if dest.length < required then
    throw (.memory required dest.length)
  let stream ← onContext (compress env dims src)
  if dest.length < stream.length then
    throw (.memory stream.length dest.length)
  modify fun (c, dest) => (c, stream ++ dest.drop stream.length)
  return stream.length

-- Fills a destination that is only of use if the stream gets there: how many of its bytes are the
-- stream, and the destination.
def compressInto [Codecs] (env : Environment) (dims : Dims) (src dest : Bytes) :
    ContextM (Nat × Bytes) :=
  ExceptT.mk fun c =>
    let (result, c', dest') := (fill env dims src).run.run (c, dest)
    (result.map fun n => (n, dest'), c')

end GridPress.Stream

import GridPress.Chain
import GridPress.Trailer

namespace GridPress.Stream

-- What is below the byte stage: the typed data or the payload of a datatype stage, the entries in
-- the order in which their stages ran, and the magic byte of the datatype stage.
structure Layout where
  entries : List (Algorithm × Bytes)
  typed?  : Option Algorithm
  frame   : Bytes

namespace Layout

def stages (l : Layout) : List Algorithm :=
  l.entries.map Prod.fst ++ l.typed?.toList

-- The last `n` entries of `bs`, in front of entries already read, and what is before them.
def readEntries [Codecs] : Nat → Bytes → List (Algorithm × Bytes) →
    Result (Bytes × List (Algorithm × Bytes))
  | 0, bs, later => .ok (bs, later)
  | n + 1, bs, later => do
    let (rest, entry) ← Trailer.splitEntry bs
    let a ← Registry.byId entry.magic
    if a.position < .datatype then
      readEntries n rest ((a, entry.header) :: later)
    else
      .error (.buffer (.trailerStage a.position a.name))

-- Reads the marks of `n` stages, of which there is at least one.
def read [Codecs] (n : Nat) (bs : Bytes) : Result Layout := do
  let (rest, magic) ← Trailer.splitMagic bs
  let a ← Registry.byId magic
  match a.position with
  | .byte => .error (.buffer (.buriedByteStage a.name))
  | .datatype => do
    let (frame, entries) ← readEntries (n - 1) rest []
    return ⟨entries, some a, frame⟩
  | _ => do
    let (frame, entries) ← readEntries n bs []
    return ⟨entries, none, frame⟩

end Layout

-- The number of stages, and what follows it.
def splitCount (stream : Bytes) : Result (Nat × Bytes) :=
  match stream with
  | [] => .error (.buffer .emptyStream)
  | n :: body => .ok (n.toNat, body)

-- Undoes the byte stage of a stream's body if there is one.
def undoByteStage [Codecs] (body : Bytes) : Result (Option Algorithm × Bytes) := do
  let (payload, magic) ← Trailer.splitMagic body
  let a ← Registry.byId magic
  match a.method with
  | .byte c => return (some a, ← c.decompress payload)
  | _ => return (none, body)

end GridPress.Stream

import GridPress.Dims.Codec

namespace GridPress.File

inductive Fault where
  | dims (error : Error)
  | arraySize (held : Nat) (dims : Dims) (datatype : Datatype)
  | notCompressed
  | datatypeTag (tag : UInt8)
deriving DecidableEq

def Fault.message : Fault → String
  | dims e => e.message
  | arraySize held d t =>
    s!"{d.count} {t.name} elements {d.text} need {d.byteSize t} bytes, file carries {held}"
  | notCompressed => "not a SCIL compressed file"
  | datatypeTag tag => s!"unknown datatype tag {tag.toNat}"

def readDims (bs : Bytes) : Except Fault (Dims × Bytes) :=
  match Dims.ofBytes bs with
  | .ok (d, n) => .ok (d, bs.drop n)
  | .error e => .error (.dims e)

structure Array where
  dims : Dims
  data : Bytes
deriving DecidableEq

def Array.toBytes (a : Array) : Bytes :=
  a.dims.toBytes ++ a.data

def Array.ofBytes (t : Datatype) (bs : Bytes) : Except Fault Array := do
  let (d, data) ← readDims bs
  if data.length = d.byteSize t then
    return ⟨d, data⟩
  else
    throw (.arraySize data.length d t)

structure Compressed where
  datatype : Datatype
  dims     : Dims
  stream   : Bytes
deriving DecidableEq

-- The letters SCIL.
def mark : Bytes :=
  [0x53, 0x43, 0x49, 0x4c]

def Compressed.toBytes (c : Compressed) : Bytes :=
  mark ++ c.datatype.tag :: (c.dims.toBytes ++ c.stream)

def Compressed.ofBytes (bs : Bytes) : Except Fault Compressed :=
  match bs.splitAt 4 with
  | (start, tag :: bs) =>
    if start = mark then
      match Datatype.ofTag? tag with
      | none => .error (.datatypeTag tag)
      | some t => do
        let (d, stream) ← readDims bs
        return ⟨t, d, stream⟩
    else
      .error .notCompressed
  | _ => .error .notCompressed

end GridPress.File

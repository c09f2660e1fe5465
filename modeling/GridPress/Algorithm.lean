import GridPress.Hints
import GridPress.Error
import GridPress.Text.Quoted

namespace GridPress

-- A compressor of bytes of any kind.
structure ByteCodec where
  compress   : Bytes → Result Bytes
  decompress : Bytes → Result Bytes

-- A compressor of typed elements. The compressed form tells all that is needed to undo it, apart
-- from the type and the dims.
structure TypedCodec where
  supports   : Datatype → Bool
  compress   : Datatype → Hints → Dims → Bytes → Result Bytes
  decompress : Datatype → Dims → Bytes → Result Bytes

-- A transformation of elements into as many of the same type. It also gives a header, which
-- `restore` takes before the dims.
structure Preconditioner where
  supports     : Datatype → Bool
  precondition : Datatype → Hints → Dims → Bytes → Result (Bytes × Bytes)
  restore      : Datatype → Bytes → Dims → Bytes → Result Bytes

-- A transformation of elements into as many of another type. `revert` is given the type that went
-- in, the header and the dims.
structure Converter where
  supports : Datatype → Bool
  output   : Datatype → Datatype
  convert  : Datatype → Hints → Dims → Bytes → Result (Bytes × Bytes)
  revert   : Datatype → Bytes → Dims → Bytes → Result Bytes

inductive Method where
  | preconditionFirst (p : Preconditioner)
  | converter (c : Converter)
  | preconditionSecond (p : Preconditioner)
  | typed (c : TypedCodec)
  | byte (c : ByteCodec)

def Method.position : Method → Position
  | preconditionFirst _ => .preconditionFirst
  | converter _ => .converter
  | preconditionSecond _ => .preconditionSecond
  | typed _ => .datatype
  | byte _ => .byte

-- The id is also the magic byte that the stage leaves in a stream.
structure Algorithm where
  name         : String
  id           : UInt8
  declaredLossy : Bool
  method       : Method

namespace Algorithm

variable (a : Algorithm)

def position : Position :=
  a.method.position

-- Compressors of bytes count as lossless, whatever they declare.
def isLossy : Bool :=
  a.declaredLossy && a.position ≠ .byte

def supports (t : Datatype) : Bool :=
  match a.method with
  | .preconditionFirst p | .preconditionSecond p => p.supports t
  | .converter c => c.supports t
  | .typed c => c.supports t
  | .byte _ => true

-- The type of the elements behind the stage.
def outputType (t : Datatype) : Datatype :=
  match a.method with
  | .converter c => c.output t
  | _ => t

-- Runs the stage: its output, and the header that `backward` needs.
def forward (t : Datatype) (h : Hints) (dims : Dims) (src : Bytes) : Result (Bytes × Bytes) :=
  match a.method with
  | .preconditionFirst p | .preconditionSecond p => p.precondition t h dims src
  | .converter c => c.convert t h dims src
  | .typed c => do return (← c.compress t h dims src, [])
  | .byte c => do return (← c.compress src, [])

-- Undoes the stage, given the type that went into it.
def backward (t : Datatype) (header : Bytes) (dims : Dims) (src : Bytes) : Result Bytes :=
  match a.method with
  | .preconditionFirst p | .preconditionSecond p => p.restore t header dims src
  | .converter c => c.revert t header dims src
  | .typed c => c.decompress t dims src
  | .byte c => c.decompress src

def isSame (b : Algorithm) : Bool :=
  a.id == b.id && a.name == b.name

def details : String :=
  s!"Algorithm \x7b name: {Text.quote a.name}, id: {a.id.toNat}, is_lossy: {a.isLossy}, " ++
    s!"stage: {a.position.detailName} \x7d"

end Algorithm
end GridPress

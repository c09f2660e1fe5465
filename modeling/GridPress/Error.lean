import GridPress.Dims.Basic
import GridPress.Position
import GridPress.Text.Real

namespace GridPress

-- A tolerance or precision that cannot be met. Each kind of fault also has a member `other`, for
-- faults of stages outside of this library that come with words of their own.
inductive PrecisionFault where
  | tolerance (given : Double)
  | range (low high tolerance : Double)
  | noTolerance (stage : String)
  | gridWidth (bits : Nat) (datatype : Datatype)
  | noSignificantBits
  | excessBits (bits : Int) (datatype : Datatype)
  | fieldWidth (bits : Nat) (datatype : Datatype)
  | noFreeCode
  | other (text : String)
deriving DecidableEq

-- Bytes that are too few, too many or not what they should be.
inductive BufferFault where
  | axes (given : Nat)
  | tooManyElements (lengths : List UInt64)
  | noDims
  | dimsCount (given : Nat)
  | dimsTruncated (held needed : Nat)
  | packingWidth (bits : Nat)
  | packingOverflow (count bits : Nat)
  | packingValue (value bits : Nat)
  | packedSize (held count bits needed : Nat)
  | range (low high : Double)
  | ragged (held : Nat) (datatype : Datatype)
  | elements (held : Nat) (dims : Dims)
  | words (held : Nat) (dims : Dims) (datatype : Datatype)
  | comparedSizes (original reconstructed : Nat)
  | noMagic
  | headerSize (given : Nat)
  | noHeaderSize
  | headerClaim (claimed held : Nat)
  | headerTruncated (needed offset held : Nat)
  | gridHeader (bits : Nat)
  | exactValues (place : String)
  | gridIndex (index : Int)
  | fieldHeader (signs exponentBits mantissaBits : Nat) (least : Int)
  | exponent (given : Int)
  | source (held : Nat) (dims : Dims) (datatype : Datatype)
  | sample (held : Nat) (dims : Dims) (datatype : Datatype)
  | buriedByteStage (name : String)
  | trailerStage (position : Position) (name : String)
  | emptyStream
  | noStages (dims : Dims)
  | decodedSize (held : Nat) (dims : Dims) (datatype : Datatype)
  | other (text : String)
deriving DecidableEq

-- Algorithms that do not make a chain, or not one for the data at hand.
inductive ChainFault where
  | unsupported (name : String) (datatype : Datatype)
  | order (name : String) (position last : Position)
  | slot (first second : String) (position : Position)
  | empty
  | length (stages : Nat)
  | other (text : String)
deriving DecidableEq

inductive RegistryFault where
  | misplaced (name : String) (id index : Nat)
  | duplicate (name : String)
  | other (text : String)
deriving DecidableEq

inductive Error where
  | precision (fault : PrecisionFault)
  | buffer (fault : BufferFault)
  | memory (required available : Nat)
  | unknownAlgorithm (name : String)
  | invalidChain (fault : ChainFault)
  | codec (name text : String)
  | registry (fault : RegistryFault)
  -- The program crashes. No caller sees that as an error.
  | crash (text : String)
deriving DecidableEq

abbrev Result := Except Error

def PrecisionFault.message : PrecisionFault → String
  | tolerance t => s!"quantization needs a positive tolerance, got {t.plain}"
  | range low high t =>
    s!"range [{low.plain}, {high.plain}] at tolerance {t.plain} needs more than 53 bits"
  | noTolerance stage => s!"{stage} requires an absolute tolerance"
  | gridWidth bits d => s!"abstol needs {bits} bits per value, {d.name} has only {d.width}"
  | noSignificantBits => "sigbits requires a finite number of significant bits"
  | excessBits bits d => s!"{bits} significant bits exceed the precision of {d.name}"
  | fieldWidth bits d =>
    s!"sigbits needs {bits} bits per value, more than the {d.width} of {d.name}"
  | noFreeCode => "no free exponent code left for the fill value"
  | other text => text

def BufferFault.message : BufferFault → String
  | axes n => s!"dims must have 1..=4 axes, got {n}"
  | tooManyElements ls =>
    let lengths := String.intercalate ", " (ls.map fun l => toString l.toNat)
    s!"dims [{lengths}] describe too many elements"
  | noDims => "dims header is empty"
  | dimsCount n => s!"invalid dims count {n}"
  | dimsTruncated held needed => s!"dims header truncated: {held} of {needed} bytes"
  | packingWidth bits => s!"bit width {bits} exceeds 64"
  | packingOverflow count bits => s!"{count} values of {bits} bits overflow usize"
  | packingValue value bits => s!"value {value} does not fit into {bits} bits"
  | packedSize held count bits needed =>
    s!"packed buffer holds {held} bytes, {count} values of {bits} bits need {needed}"
  | range low high => s!"invalid quantization range [{low.plain}, {high.plain}]"
  | ragged held d => s!"{held} bytes is not a whole number of {d.name} elements"
  | elements held dims => s!"buffer holds {held} elements, dims {dims.text} describe {dims.count}"
  | words held dims d =>
    s!"buffer holds {held} bytes, {dims.count} {d.name} elements need {dims.byteSize d}"
  | comparedSizes original reconstructed =>
    s!"cannot compare {original} bytes against {reconstructed} bytes"
  | noMagic => "stream ended before the next stage magic"
  | headerSize n => s!"stage header of {n} bytes exceeds 4294967295"
  | noHeaderSize => "trailer entry is missing its header length"
  | headerClaim claimed held =>
    s!"trailer entry claims a {claimed} byte header, only {held} bytes remain"
  | headerTruncated needed offset held =>
    s!"header truncated: need {needed} bytes at offset {offset}, have {held}"
  | gridHeader bits => s!"abstol header claims {bits} bits per value"
  | exactValues place => s!"{place} ran out of exact values"
  | gridIndex i => s!"invalid quantization index {i}"
  | fieldHeader signs exponentBits mantissaBits least =>
    s!"corrupt sigbits header Params \x7b signs_id: {signs}, exponent_bits: {exponentBits}, " ++
      s!"mantissa_bits: {mantissaBits}, min_exponent: {least} \x7d"
  | exponent e => s!"sigbits exponent {e} out of range"
  | source held dims d =>
    s!"source holds {held} bytes, {dims.count} {d.name} elements {dims.text} need {dims.byteSize d}"
  | sample held dims d => s!"source holds {held} bytes, dims {dims.text} need {dims.byteSize d}"
  | buriedByteStage name => s!"byte stage {name} below another stage"
  | trailerStage p name => s!"{p.name} stage {name} found in the trailer"
  | emptyStream => "compressed stream is empty"
  | noStages dims => s!"stream without stages cannot hold {dims.count} elements"
  | decodedSize held dims d =>
    s!"stream decoded to {held} bytes, {dims.count} {d.name} elements need {dims.byteSize d}"
  | other text => text

def ChainFault.message : ChainFault → String
  | unsupported name d => s!"{name} does not support {d.name} data"
  | order name p last => s!"{name} ({p.name}) cannot follow a {last.name} stage"
  | slot first second p => s!"{first} and {second} both claim the {p.name} slot"
  | empty => "chain contains no algorithm"
  | length n => s!"{n} stages do not fit the stream"
  | other text => text

def RegistryFault.message : RegistryFault → String
  | misplaced name id index => s!"algorithm '{name}' declares id {id} but sits at index {index}"
  | duplicate name => s!"duplicate algorithm name '{name}'"
  | other text => text

def Error.message : Error → String
  | precision f => s!"precision error: {f.message}"
  | buffer f => s!"buffer error: {f.message}"
  | memory required available =>
    s!"destination buffer too small: {available} bytes, need at least {required}"
  | unknownAlgorithm name => s!"unknown compression algorithm '{name}'"
  | invalidChain f => s!"invalid compression chain: {f.message}"
  | codec name text => s!"{name} failed: {text}"
  | registry f => s!"algorithm registry corrupted: {f.message}"
  | crash text => text

-- Status codes for callers that want a number.
inductive Status where
  | success
  | buffer
  | memory
  | invalid
  | unknown
  | precision
deriving DecidableEq

namespace Status

def all : List Status :=
  [success, buffer, memory, invalid, unknown, precision]

def code : Status → Nat
  | success => 0
  | buffer => 1
  | memory => 2
  | invalid => 3
  | unknown => 4
  | precision => 5

def name : Status → String
  | success => "NO_ERR"
  | buffer => "BUFFER_ERR"
  | memory => "MEMORY_ERR"
  | invalid => "EINVAL"
  | unknown => "UNKNOWN_ERR"
  | precision => "PRECISION_ERR"

end Status

def Error.status? : Error → Option Status
  | precision _ => some .precision
  | buffer _ => some .buffer
  | memory .. => some .memory
  | unknownAlgorithm _ | invalidChain _ => some .invalid
  | codec .. | registry _ => some .unknown
  | crash _ => none

end GridPress

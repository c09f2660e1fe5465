import GridPress.Packing.Window
import GridPress.Registry

namespace GridPress

open SinkM

-- An algorithm's stage in both directions. Its header is handed over and not written.
structure Algorithm.Writer where
  forward  : Datatype → Hints → Dims → Bytes → SinkM Bytes
  backward : Datatype → Bytes → Dims → Bytes → SinkM Unit

open Algorithm (Writer)

-- A stage without a header.
def Algorithm.Writer.plain (forward : Datatype → Hints → Dims → Bytes → SinkM Unit)
    (backward : Datatype → Dims → Bytes → SinkM Unit) : Writer where
  forward t h dims src := do
    forward t h dims src
    return []
  backward t _ dims src := backward t dims src

namespace Stage

-- Runs a stage that is for floating-point elements only.
def onFloats (name : String) (t : Datatype) (run : FloatKind → SinkM α) : SinkM α :=
  match t.kind? with
  | some k => run k
  | none => throw (.invalidChain (.unsupported name t))

namespace Abstol

def compressInto (k : FloatKind) (h : Hints) (dims : Dims) (src : Bytes) : SinkM Unit := do
  let p ← liftExcept (Placement.make name k h dims src)
  let bits ← liftExcept (bitsFor p)
  if k.datatype.width ≤ bits then
    throw (.precision (.gridWidth bits k.datatype))
  let codes := p.words.map ((reservedFor p bits).encode p)
  let _ ← liftExcept (Packing.size codes.length bits)
  write (Bytes.ofNat 8 p.low.toWord)
  write (Bytes.ofNat 8 p.step.toWord)
  write [UInt8.ofNat bits]
  write (Bytes.ofNat 8 h.fillValue.toWord)
  Packing.packInto bits codes
  write (Element.join k.datatype p.exactWords)

-- Writes the words that `decode` gives, up to the first that there is none for.
def decodeInto (k : FloatKind) (params : Params) (r : Reserved) :
    List Nat → List Nat → SinkM Unit
  | [], _ => return ()
  | c :: cs, exact =>
    if some c = r.fillCode? then do
      writeWord k.datatype (k.ofDouble params.fill)
      decodeInto k params r cs exact
    else if some c = r.exactCode? then
      match exact with
      | [] => throw (.buffer (.exactValues "abstol stream"))
      | w :: exact => do
        writeWord k.datatype w
        decodeInto k params r cs exact
    else do
      writeWord k.datatype (k.ofDouble (params.grid.point c))
      decodeInto k params r cs exact

def decompressInto (k : FloatKind) (dims : Dims) (src : Bytes) : SinkM Unit := do
  let (params, body) ← liftExcept (Header.read (do return (← Params.reader, ← Header.rest)) src)
  if Grid.maxBits < params.bits then
    throw (.buffer (.gridHeader params.bits))
  let packed ← liftExcept (Packing.size dims.count params.bits)
  let codes ← liftExcept (Packing.unpack params.bits dims.count body)
  let exact ← liftExcept (Element.decode k.datatype (body.drop packed))
  let hasFill := !params.fill.equal Hints.noFill
  let reserved := Reserved.ofWidth params.bits hasFill (!exact.isEmpty)
  decodeInto k params reserved codes exact

def writer : Writer :=
  .plain (fun t h dims src => onFloats name t fun k => compressInto k h dims src)
    fun t dims src => onFloats name t fun k => decompressInto k dims src

end Abstol

namespace Sigbits

def compressInto (k : FloatKind) (h : Hints) (dims : Dims) (src : Bytes) : SinkM Unit := do
  let t := k.datatype
  if h.significantBits ≤ 0 then
    throw (.precision .noSignificantBits)
  let mantissaBits := h.significantBits.toNat - 1
  if k.format.mantissaBits < mantissaBits then
    throw (.precision (.excessBits h.significantBits t))
  let words ← liftExcept (Element.decodeAs t dims src)
  let isFill := fun w => h.isFill (k.toDouble w)
  let regular := words.filter fun w => !isFill w
  let l := layoutFor k mantissaBits regular
  if t.width < l.bits then
    throw (.precision (.fieldWidth l.bits t))
  let fillCode? ← liftExcept (fillCodeFor h l (regular.map (encode k l)))
  let codes := words.map fun w => if isFill w then fillCode?.getD 0 else encode k l w
  write [UInt8.ofNat l.signs.code]
  write [UInt8.ofNat l.exponentBits]
  write [UInt8.ofNat l.mantissaBits]
  write (Bytes.ofNat 2 (l.leastExponent % 2 ^ 16).toNat)
  write (Bytes.ofNat 8 h.fillValue.toWord)
  write ((fillCode?.map (Bytes.ofNat 8)).getD [])
  Packing.packInto l.bits codes

def decompressInto (k : FloatKind) (dims : Dims) (src : Bytes) : SinkM Unit := do
  let ((l, fill, fillCode?), body) ←
    liftExcept (Header.read (do return (← headerReader k, ← Header.rest)) src)
  let codes ← liftExcept (Packing.unpack l.bits dims.count body)
  codes |> writeEach k.datatype fun c =>
    if some (l.exponentCode c) = fillCode? then pure (k.ofDouble fill) else decode k l c

def writer : Writer :=
  .plain (fun t h dims src => onFloats name t fun k => compressInto k h dims src)
    fun t dims src => onFloats name t fun k => decompressInto k dims src

end Sigbits

namespace Quantize

def convertInto (k : FloatKind) (h : Hints) (dims : Dims) (src : Bytes) : SinkM Bytes := do
  let p ← liftExcept (Placement.make name k h dims src)
  let _ ← liftExcept (Grid.bitsNeeded p.low p.high p.grid.half 0)
  writeWords .int64 (p.words.map fun w => indexWord (index p w))
  return Bytes.ofNat 8 p.low.toWord ++ Bytes.ofNat 8 p.step.toWord ++
    Bytes.ofNat 8 h.fillValue.toWord ++ Element.join k.datatype p.exactWords

-- Writes the words that `decode` gives, up to the first that there is none for.
def decodeInto (k : FloatKind) (params : Params) : List Int → List Nat → SinkM Unit
  | [], _ => return ()
  | i :: is, exact =>
    if i = fillIndex then do
      writeWord k.datatype (k.ofDouble params.fill)
      decodeInto k params is exact
    else if i = exactIndex then
      match exact with
      | [] => throw (.buffer (.exactValues "quantize header"))
      | w :: exact => do
        writeWord k.datatype w
        decodeInto k params is exact
    else if 0 ≤ i then do
      writeWord k.datatype (k.ofDouble (params.grid.point i.toNat))
      decodeInto k params is exact
    else
      throw (.buffer (.gridIndex i))

def revertInto (k : FloatKind) (header : Bytes) (dims : Dims) (src : Bytes) : SinkM Unit := do
  let (params, rest) ←
    liftExcept (Header.read (do return (← Params.reader, ← Header.rest)) header)
  let exact ← liftExcept (Element.decode k.datatype rest)
  let words ← liftExcept (Element.decodeAs .int64 dims src)
  decodeInto k params (words.map (Datatype.toInt .int64)) exact

def writer : Writer where
  forward t h dims src := onFloats name t fun k => convertInto k h dims src
  backward t header dims src := onFloats name t fun k => revertInto k header dims src

end Quantize

namespace XorDelta

def transformInto (f : Nat → List Nat → List Nat) (t : Datatype) (dims : Dims) (src : Bytes) :
    SinkM Unit := do
  let ws ← liftExcept (Element.decodeSized t dims src)
  writeWords t (f 0 ws)

def writer : Writer :=
  .plain (fun t _ dims src => transformInto changes t dims src) (transformInto follow)

end XorDelta

namespace Delta

def transformInto (f : Nat → List Nat → List Nat) (t : Datatype) (dims : Dims) (src : Bytes) :
    SinkM Unit :=
  if t.isFloat then
    throw (.invalidChain (.unsupported name t))
  else do
    let ws ← liftExcept (Element.decodeSized t dims src)
    writeWords t (f (2 ^ t.width) ws)

def writer : Writer :=
  .plain (fun t _ dims src => transformInto (fun m => differences m 0) t dims src)
    (transformInto fun m => sums m 0)

end Delta
end Stage

namespace Registry

open Stage

def memcopyWriter : Writer :=
  .plain (fun _ _ _ src => write src) fun _ _ src => write src

-- Decoding writes `leftover` of malformed data before it fails.
def codecWriter (name : String) (c : Codec) (leftover : Bytes → Bytes) : Writer :=
  .plain (fun _ _ _ src => write (c.encode src)) fun _ _ src =>
    match c.decode? src with
    | some data => write data
    | none => do
      write (leftover src)
      throw (.codec name "malformed data")

-- The registered algorithms' stages, in their order. The decoder of gzip writes to the destination
-- itself, so `leftover` is what it has written of malformed data by the time that it fails. The
-- other codecs have all their output before any is written.
def writers [Codecs] (leftover : Bytes → Bytes) : List Writer :=
  [memcopyWriter,
    Abstol.writer,
    codecWriter "gzip" Codecs.gzip leftover,
    Sigbits.writer,
    codecWriter "lz4" Codecs.lz4 fun _ => [],
    codecWriter "zstd" Codecs.zstd fun _ => [],
    XorDelta.writer,
    Quantize.writer,
    Delta.writer]

end Registry
end GridPress

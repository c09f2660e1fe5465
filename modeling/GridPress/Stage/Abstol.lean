import GridPress.Header
import GridPress.Packing
import GridPress.Stage.Placement

namespace GridPress.Stage.Abstol

def name : String := "abstol"

-- The codes that stand for no grid point: the top one for the fill value, and the next one down for
-- an element that is kept exactly.
structure Reserved where
  fillCode?  : Option Nat
  exactCode? : Option Nat

def Reserved.ofWidth (bits : Nat) (hasFill hasExact : Bool) : Reserved :=
  let top := 2 ^ bits - 1
  { fillCode?  := if hasFill then some top else none
    exactCode? := if hasExact then some (top - hasFill.toNat) else none }

def Reserved.encode (r : Reserved) (p : Placement) (w : Nat) : Nat :=
  match p.role w with
  | .fill => r.fillCode?.getD (p.code w)
  | .exact => r.exactCode?.getD (p.code w)
  | .regular => p.code w

-- The width of a code that leaves room for the reserved ones.
def bitsFor (p : Placement) : Result Nat :=
  Grid.bitsNeeded p.low p.high p.grid.half (p.hints.hasFill.toNat + p.hasExact.toNat)

def reservedFor (p : Placement) (bits : Nat) : Reserved :=
  .ofWidth bits p.hints.hasFill p.hasExact

def compressAs (k : FloatKind) (h : Hints) (dims : Dims) (src : Bytes) : Result Bytes := do
  let p ← Placement.make name k h dims src
  let bits ← bitsFor p
  if k.datatype.width ≤ bits then
    throw (.precision (.gridWidth bits k.datatype))
  let packed ← Packing.pack bits (p.words.map ((reservedFor p bits).encode p))
  return Bytes.ofNat 8 p.low.toWord ++ Bytes.ofNat 8 p.step.toWord ++ [UInt8.ofNat bits] ++
    Bytes.ofNat 8 h.fillValue.toWord ++ packed ++ Element.join k.datatype p.exactWords

structure Params where
  grid : Grid
  bits : Nat
  fill : Double

def Params.reader : Header.Reader Params := do
  let origin ← Header.double
  let step ← Header.double
  let bits ← Header.nat 1
  let fill ← Header.double
  return ⟨⟨origin, step / .ofNat 2⟩, bits, fill⟩

-- The words that the codes stand for, the exact ones taken from a list.
def decode (k : FloatKind) (params : Params) (r : Reserved) :
    List Nat → List Nat → Result (List Nat)
  | [], _ => .ok []
  | c :: cs, exact =>
    if some c = r.fillCode? then
      return k.ofDouble params.fill :: (← decode k params r cs exact)
    else if some c = r.exactCode? then
      match exact with
      | [] => .error (.buffer (.exactValues "abstol stream"))
      | w :: exact => return w :: (← decode k params r cs exact)
    else
      return k.ofDouble (params.grid.point c) :: (← decode k params r cs exact)

def decompressAs (k : FloatKind) (dims : Dims) (src : Bytes) : Result Bytes := do
  let (params, body) ← Header.read (do return (← Params.reader, ← Header.rest)) src
  if Grid.maxBits < params.bits then
    throw (.buffer (.gridHeader params.bits))
  let packed ← Packing.size dims.count params.bits
  let codes ← Packing.unpack params.bits dims.count body
  let exact ← Element.decode k.datatype (body.drop packed)
  let hasFill := !params.fill.equal Hints.noFill
  let reserved := Reserved.ofWidth params.bits hasFill (!exact.isEmpty)
  return Element.join k.datatype (← decode k params reserved codes exact)

def compress (t : Datatype) (h : Hints) (dims : Dims) (src : Bytes) : Result Bytes :=
  match t.kind? with
  | some k => compressAs k h dims src
  | none => .error (.invalidChain (.unsupported name t))

def decompress (t : Datatype) (dims : Dims) (src : Bytes) : Result Bytes :=
  match t.kind? with
  | some k => decompressAs k dims src
  | none => .error (.invalidChain (.unsupported name t))

end GridPress.Stage.Abstol

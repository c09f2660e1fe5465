import GridPress.Header
import GridPress.Stage.Placement

namespace GridPress.Stage.Quantize

def name : String := "quantize"

-- A fill and an element that is kept exactly have negative indices.
def fillIndex : Int := -1

def exactIndex : Int := -2

def index (p : Placement) (w : Nat) : Int :=
  match p.role w with
  | .fill => fillIndex
  | .exact => exactIndex
  | .regular => p.code w

-- The word of a 64-bit integer.
def indexWord (i : Int) : Nat :=
  (i % 2 ^ 64).toNat

-- The indices, and the header that leads back to the elements.
def convertAs (k : FloatKind) (h : Hints) (dims : Dims) (src : Bytes) :
    Result (Bytes × Bytes) := do
  let p ← Placement.make name k h dims src
  let _ ← Grid.bitsNeeded p.low p.high p.grid.half 0
  let header := Bytes.ofNat 8 p.low.toWord ++ Bytes.ofNat 8 p.step.toWord ++
    Bytes.ofNat 8 h.fillValue.toWord ++ Element.join k.datatype p.exactWords
  return (Element.join .int64 (p.words.map fun w => indexWord (index p w)), header)

structure Params where
  grid : Grid
  fill : Double

def Params.reader : Header.Reader Params := do
  let origin ← Header.double
  let step ← Header.double
  let fill ← Header.double
  return ⟨⟨origin, step / .ofNat 2⟩, fill⟩

-- The words that the indices stand for, the exact ones taken from a list.
def decode (k : FloatKind) (params : Params) : List Int → List Nat → Result (List Nat)
  | [], _ => .ok []
  | i :: is, exact =>
    if i = fillIndex then
      return k.ofDouble params.fill :: (← decode k params is exact)
    else if i = exactIndex then
      match exact with
      | [] => .error (.buffer (.exactValues "quantize header"))
      | w :: exact => return w :: (← decode k params is exact)
    else if 0 ≤ i then
      return k.ofDouble (params.grid.point i.toNat) :: (← decode k params is exact)
    else
      .error (.buffer (.gridIndex i))

def revertAs (k : FloatKind) (header : Bytes) (dims : Dims) (src : Bytes) : Result Bytes := do
  let (params, rest) ← Header.read (do return (← Params.reader, ← Header.rest)) header
  let exact ← Element.decode k.datatype rest
  let words ← Element.decodeAs .int64 dims src
  return Element.join k.datatype (← decode k params (words.map (Datatype.toInt .int64)) exact)

def convert (t : Datatype) (h : Hints) (dims : Dims) (src : Bytes) : Result (Bytes × Bytes) :=
  match t.kind? with
  | some k => convertAs k h dims src
  | none => .error (.invalidChain (.unsupported name t))

def revert (t : Datatype) (header : Bytes) (dims : Dims) (src : Bytes) : Result Bytes :=
  match t.kind? with
  | some k => revertAs k header dims src
  | none => .error (.invalidChain (.unsupported name t))

end GridPress.Stage.Quantize

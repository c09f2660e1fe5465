import GridPress.Header
import GridPress.Hints
import GridPress.Element
import GridPress.Packing

namespace GridPress.Stage.Sigbits

open Binary (Fields)

def name : String := "sigbits"

inductive Signs where
  | positive
  | negative
  | mixed
deriving DecidableEq

def Signs.code : Signs → Nat
  | positive => 0
  | negative => 1
  | mixed => 2

def Signs.ofCode? : Nat → Option Signs
  | 0 => some positive
  | 1 => some negative
  | 2 => some mixed
  | _ => none

-- How a code holds a sign, an exponent and a mantissa, from the top. The exponent is the distance
-- from the least one, and has room for what rounding carries into it.
structure Layout where
  signs         : Signs
  exponentBits  : Nat
  mantissaBits  : Nat
  leastExponent : Int
deriving DecidableEq

namespace Layout

variable (l : Layout)

def signBits : Nat :=
  if l.signs = .mixed then 1 else 0

def bits : Nat :=
  l.signBits + l.exponentBits + l.mantissaBits

-- The code of an element, given its exponent's distance from the least one.
def encode (sign exponentCode mantissa : Nat) : Nat :=
  let low := exponentCode * 2 ^ l.mantissaBits + mantissa
  if l.signs = .mixed then sign * 2 ^ (l.exponentBits + l.mantissaBits) + low else low

def sign (code : Nat) : Nat :=
  match l.signs with
  | .positive => 0
  | .negative => 1
  | .mixed => code / 2 ^ (l.exponentBits + l.mantissaBits) % 2

def exponentCode (code : Nat) : Nat :=
  code / 2 ^ l.mantissaBits % 2 ^ l.exponentBits

def mantissa (code : Nat) : Nat :=
  code % 2 ^ l.mantissaBits

end Layout

-- The bits that tell `n` values apart.
def bitsFor (n : Nat) : Nat :=
  if n ≤ 1 then 0 else (n - 1).log2 + 1

-- The mantissa of `w` rounded to `bits` bits, halves up, which may carry into the exponent. What
-- is not finite is cut off instead, and so is a number that would carry into infinity; what is no
-- number keeps a mantissa other than zero if it has any bit for it.
def roundFields (k : FloatKind) (bits w : Nat) : Fields :=
  let f := k.format
  let x := f.split w
  let shift := f.mantissaBits - bits
  let cut := x.mantissa / 2 ^ shift
  if shift = 0 then
    x
  else if x.exponent = f.exponentMax then
    { x with mantissa := if x.mantissa ≠ 0 ∧ cut = 0 ∧ 0 < bits then 1 else cut }
  else
    let rounded := (x.mantissa + 2 ^ (shift - 1)) / 2 ^ shift
    if rounded < 2 ^ bits then
      { x with mantissa := rounded }
    else if x.exponent + 1 = f.exponentMax then
      { x with mantissa := cut }
    else
      { x with exponent := x.exponent + 1, mantissa := 0 }

def widen : Option (Nat × Nat) → Nat → Option (Nat × Nat)
  | none, e => some (e, e)
  | some (low, high), e => some (min low e, max high e)

-- The layout for words that are not fills.
def layoutFor (k : FloatKind) (mantissaBits : Nat) (ws : List Nat) : Layout :=
  let fields := ws.map k.format.split
  let signs :=
    if fields.any fun x => x.sign ≠ 0 then
      if fields.any fun x => x.sign = 0 then .mixed else .negative
    else
      .positive
  let (low, high) := ((fields.map Fields.exponent).foldl widen none).getD (0, 0)
  { signs, exponentBits := bitsFor (high - low + 2), mantissaBits, leastExponent := low }

-- The code of a word that is not a fill.
def encode (k : FloatKind) (l : Layout) (w : Nat) : Nat :=
  let x := roundFields k l.mantissaBits w
  l.encode x.sign (x.exponent - l.leastExponent.toNat) x.mantissa

-- The least exponent code that none of the codes has.
def freeCode? (l : Layout) (codes : List Nat) : Option Nat :=
  let used := codes.map l.exponentCode
  (List.range (2 ^ l.exponentBits)).find? fun c => !used.contains c

-- The code of the fills among the codes of all other elements, if there is a fill value.
def fillCodeFor (h : Hints) (l : Layout) (codes : List Nat) : Result (Option Nat) :=
  if h.hasFill then
    match freeCode? l codes with
    | some c => .ok (some (c * 2 ^ l.mantissaBits))
    | none => .error (.precision .noFreeCode)
  else
    .ok none

def compressAs (k : FloatKind) (h : Hints) (dims : Dims) (src : Bytes) : Result Bytes := do
  let t := k.datatype
  if h.significantBits ≤ 0 then
    throw (.precision .noSignificantBits)
  let mantissaBits := h.significantBits.toNat - 1
  if k.format.mantissaBits < mantissaBits then
    throw (.precision (.excessBits h.significantBits t))
  let words ← Element.decodeAs t dims src
  let isFill := fun w => h.isFill (k.toDouble w)
  let regular := words.filter fun w => !isFill w
  let l := layoutFor k mantissaBits regular
  if t.width < l.bits then
    throw (.precision (.fieldWidth l.bits t))
  let fillCode? ← fillCodeFor h l (regular.map (encode k l))
  let codes := words.map fun w => if isFill w then fillCode?.getD 0 else encode k l w
  let packed ← Packing.pack l.bits codes
  return [UInt8.ofNat l.signs.code, UInt8.ofNat l.exponentBits, UInt8.ofNat l.mantissaBits] ++
    Bytes.ofNat 2 (l.leastExponent % 2 ^ 16).toNat ++ Bytes.ofNat 8 h.fillValue.toWord ++
    (fillCode?.map (Bytes.ofNat 8)).getD [] ++ packed

def layoutReader (k : FloatKind) : Header.Reader Layout := do
  let signs ← Header.nat 1
  let exponentBits ← Header.nat 1
  let mantissaBits ← Header.nat 1
  let leastExponent ← Header.int 2
  let fault := Error.buffer (.fieldHeader signs exponentBits mantissaBits leastExponent)
  match Signs.ofCode? signs with
  | none => throw fault
  | some signs =>
    let l : Layout := ⟨signs, exponentBits, mantissaBits, leastExponent⟩
    if k.format.mantissaBits < mantissaBits ∨ 64 < l.bits then throw fault else return l

-- The exponent of a code, whose distance from the least one is read as a 64-bit word in two's
-- complement.
def exponentOf (l : Layout) (code : Nat) : Int :=
  l.leastExponent + Int.bmod (l.exponentCode code) (2 ^ 64)

def overflow : Error :=
  .crash "attempt to add with overflow"

-- The word of a code that is not the fill's. An exponent that leaves the word is a crash.
def decode (k : FloatKind) (l : Layout) (code : Nat) : Result Nat :=
  let exponent := exponentOf l code
  if Int.bmod exponent (2 ^ 64) ≠ exponent then
    .error overflow
  else if 0 ≤ exponent ∧ exponent ≤ k.format.exponentMax then
    let shift := k.format.mantissaBits - l.mantissaBits
    .ok (k.format.join ⟨l.sign code, exponent.toNat, l.mantissa code * 2 ^ shift⟩)
  else
    .error (.buffer (.exponent exponent))

-- The layout, the fill value, and the fill's exponent code if there is a fill value.
def headerReader (k : FloatKind) : Header.Reader (Layout × Double × Option Nat) := do
  let l ← layoutReader k
  let fill ← Header.double
  if fill.equal Hints.noFill then
    return (l, fill, none)
  else
    return (l, fill, some ((← Header.nat 8) / 2 ^ l.mantissaBits))

def decompressAs (k : FloatKind) (dims : Dims) (src : Bytes) : Result Bytes := do
  let ((l, fill, fillCode?), body) ←
    Header.read (do return (← headerReader k, ← Header.rest)) src
  let codes ← Packing.unpack l.bits dims.count body
  let words ← codes.mapM fun c =>
    if some (l.exponentCode c) = fillCode? then pure (k.ofDouble fill) else decode k l c
  return Element.join k.datatype words

def compress (t : Datatype) (h : Hints) (dims : Dims) (src : Bytes) : Result Bytes :=
  match t.kind? with
  | some k => compressAs k h dims src
  | none => .error (.invalidChain (.unsupported name t))

def decompress (t : Datatype) (dims : Dims) (src : Bytes) : Result Bytes :=
  match t.kind? with
  | some k => decompressAs k dims src
  | none => .error (.invalidChain (.unsupported name t))

end GridPress.Stage.Sigbits

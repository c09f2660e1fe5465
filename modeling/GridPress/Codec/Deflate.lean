import GridPress.Bytes
import GridPress.Codec.Window

namespace GridPress.Codec.Deflate

abbrev Bits := List Bool

-- The bits of each byte start with the least significant one.
def bitsOf (bs : Bytes) : Bits :=
  bs.flatMap fun b => (List.range 8).map b.toNat.testBit

abbrev Reader := StateT Bits Option

def readBit : Reader Bool
  | [] => none
  | b :: bits => some (b, bits)

-- A number of `n` bits, least significant first.
def readNat : Nat → Reader Nat
  | 0 => pure 0
  | n + 1 => do
    let b ← readBit
    return b.toNat + 2 * (← readNat n)

-- A canonical code: how many symbols have a code word of each length, from one bit on, and all
-- symbols with a code word, shortest and then smallest first.
structure Code where
  counts  : List Nat
  symbols : Array Nat

def maxLength : Nat := 15

-- The symbols with a code word of length `n`, where symbol `i` has the `i`-th length.
def symbolsOfLength (lengths : List Nat) (n : Nat) : List Nat :=
  (lengths.zipIdx.filter fun x => x.1 == n).map Prod.snd

-- The code words of the longest length that these counts use up, directly or by starting them.
def codeRoom (counts : List Nat) : Nat :=
  Digits.value 2 counts

-- The code in which symbol `i` has the `i`-th length, where 0 stands for no code word. The lengths
-- must use up all code words, unless there is just one symbol or none.
def Code.ofLengths? (lengths : List Nat) : Option Code :=
  let groups := (List.range' 1 maxLength).map (symbolsOfLength lengths)
  let counts := groups.map List.length
  let symbols := groups.flatten
  if codeRoom counts = 2 ^ maxLength ∨ symbols.length ≤ 1 then
    some ⟨counts, symbols.toArray⟩
  else
    none

-- Reads bits until they are a code word. `word` holds the bits so far, `first` the first code word
-- of the length before, doubled, and `index` the number of all shorter code words.
def Code.readFrom (symbols : Array Nat) : List Nat → Nat → Nat → Nat → Reader Nat
  | [], _, _, _ => failure
  | count :: counts, word, first, index => do
    let word := word + (← readBit).toNat
    if word < first + count then
      (symbols[index + (word - first)]?).getM
    else
      readFrom symbols counts (2 * word) (2 * (first + count)) (index + count)

def Code.read (c : Code) : Reader Nat :=
  readFrom c.symbols c.counts 0 0 0

-- The base value and the number of extra bits of each length symbol, from 257 on.
def lengthTable : Array (Nat × Nat) :=
  #[(3, 0), (4, 0), (5, 0), (6, 0), (7, 0), (8, 0), (9, 0), (10, 0), (11, 1), (13, 1), (15, 1),
    (17, 1), (19, 2), (23, 2), (27, 2), (31, 2), (35, 3), (43, 3), (51, 3), (59, 3), (67, 4),
    (83, 4), (99, 4), (115, 4), (131, 5), (163, 5), (195, 5), (227, 5), (258, 0)]

-- The same for each distance symbol.
def distanceTable : Array (Nat × Nat) :=
  #[(1, 0), (2, 0), (3, 0), (4, 0), (5, 1), (7, 1), (9, 2), (13, 2), (17, 3), (25, 3), (33, 4),
    (49, 4), (65, 5), (97, 5), (129, 6), (193, 6), (257, 7), (385, 7), (513, 8), (769, 8),
    (1025, 9), (1537, 9), (2049, 10), (3073, 10), (4097, 11), (6145, 11), (8193, 12), (12289, 12),
    (16385, 13), (24577, 13)]

def readExtended (table : Array (Nat × Nat)) (symbol : Nat) : Reader Nat := do
  let (base, extra) ← (table[symbol]?).getM
  return base + (← readNat extra)

structure Codes where
  literals  : Code
  distances : Code

-- The rest of a block in Huffman codes.
def readCoded (codes : Codes) : Nat → Array UInt8 → Reader (Array UInt8)
  | 0, _ => failure
  | fuel + 1, out => do
    let symbol ← codes.literals.read
    if symbol < 256 then
      readCoded codes fuel (out.push (UInt8.ofNat symbol))
    else if symbol = 256 then
      return out
    else
      let length ← readExtended lengthTable (symbol - 257)
      let distance ← readExtended distanceTable (← codes.distances.read)
      guard (distance ≤ out.size)
      readCoded codes fuel (copyBack distance length out)

def fixedCodes? : Option Codes := do
  let literals ← Code.ofLengths? <|
    List.replicate 144 8 ++ List.replicate 112 9 ++ List.replicate 24 7 ++ List.replicate 8 8
  return ⟨literals, ← Code.ofLengths? (List.replicate 32 5)⟩

-- The order in which the lengths of the code for code lengths are written.
def lengthOrder : List Nat :=
  [16, 17, 18, 0, 8, 7, 9, 6, 10, 5, 11, 4, 12, 3, 13, 2, 14, 1, 15]

-- Code lengths up to `total` of them, the last one first in `done`.
def readLengths (c : Code) (total : Nat) : Nat → List Nat → Reader (List Nat)
  | 0, _ => failure
  | fuel + 1, done =>
    if total ≤ done.length then do
      guard (done.length = total)
      return done.reverse
    else do
      match ← c.read with
      | 16 => do
        let last ← done.head?.getM
        let n ← readNat 2
        readLengths c total fuel (List.replicate (3 + n) last ++ done)
      | 17 => do
        let n ← readNat 3
        readLengths c total fuel (List.replicate (3 + n) 0 ++ done)
      | 18 => do
        let n ← readNat 7
        readLengths c total fuel (List.replicate (11 + n) 0 ++ done)
      | n => readLengths c total fuel (n :: done)

def readCodes : Reader Codes := do
  let literals := 257 + (← readNat 5)
  let distances := 1 + (← readNat 5)
  let lengths := 4 + (← readNat 4)
  guard (literals ≤ 286 ∧ distances ≤ 30)
  let given ← (lengthOrder.take lengths).mapM fun symbol => do
    return (symbol, ← readNat 3)
  let lengthCode ← (Code.ofLengths? ((List.range 19).map fun s => (given.lookup s).getD 0)).getM
  let all ← readLengths lengthCode (literals + distances) (literals + distances + 1) []
  return ⟨← (Code.ofLengths? (all.take literals)).getM,
    ← (Code.ofLengths? (all.drop literals)).getM⟩

-- Drops the bits up to the next whole byte.
def align : Reader Unit :=
  modify fun bits => bits.drop (bits.length % 8)

def readBytes : Nat → Array UInt8 → Reader (Array UInt8)
  | 0, out => pure out
  | n + 1, out => do
    let b ← readNat 8
    readBytes n (out.push (UInt8.ofNat b))

def readStored (out : Array UInt8) : Reader (Array UInt8) := do
  align
  let size ← readNat 16
  let check ← readNat 16
  guard (size + check = 2 ^ 16 - 1)
  readBytes size out

-- Reads a block, and tells whether it was the last one.
def readBlock (out : Array UInt8) : Reader (Array UInt8 × Bool) := do
  let last ← readBit
  let coded := fun (codes : Codes) => do
    let fuel := (← get).length
    return (← readCoded codes fuel out, last)
  match ← readNat 2 with
  | 0 => return (← readStored out, last)
  | 1 => coded (← fixedCodes?.getM)
  | 2 => coded (← readCodes)
  | _ => failure

def readBlocks : Nat → Array UInt8 → Reader (Array UInt8)
  | 0, _ => failure
  | fuel + 1, out => do
    let (out, last) ← readBlock out
    if last then return out else readBlocks fuel out

-- The data of a deflated stream, and the bytes behind it.
def inflate? (bs : Bytes) : Option (Bytes × Bytes) := do
  let bits := bitsOf bs
  let (out, rest) ← readBlocks bits.length #[] bits
  return (out.toList, bs.drop (bs.length - rest.length / 8))

def maxStored : Nat := 2 ^ 16 - 1

def storedBlock (last : Bool) (bs : Bytes) : Bytes :=
  UInt8.ofNat last.toNat :: (Bytes.ofNat 2 bs.length ++ Bytes.ofNat 2 (maxStored - bs.length) ++ bs)

-- The blocks of `bs` in pieces, of which there are `n` before the last.
def storeIn : Nat → Bytes → Bytes
  | 0, bs => storedBlock true bs
  | n + 1, bs => storedBlock false (bs.take maxStored) ++ storeIn n (bs.drop maxStored)

def store (bs : Bytes) : Bytes :=
  storeIn (bs.length / maxStored) bs

end GridPress.Codec.Deflate

import Std.Data.HashMap
import GridPress.Bytes
import GridPress.Codec.Window

namespace GridPress.Codec.Lz4

def minMatch : Nat := 4

def maxDistance : Nat := 65535

-- Literal bytes, and behind them a match, which repeats bytes from further back. The last sequence
-- of a block has literals only.
structure Sequence where
  literals : Bytes
  distance : Nat
  length   : Nat

-- A place to look for a match at each position. It is checked before it is used.
abbrev Finder := Nat → Option Nat

def word? (xs : Array UInt8) (i : Nat) : Option UInt32 := do
  let a ← xs[i]?
  let b ← xs[i + 1]?
  let c ← xs[i + 2]?
  let d ← xs[i + 3]?
  return a.toUInt32 ||| b.toUInt32 <<< 8 ||| c.toUInt32 <<< 16 ||| d.toUInt32 <<< 24

-- The last place before each position that holds the same four bytes.
def lastPlaces (xs : Array UInt8) : Array (Option Nat) :=
  let record := fun (state : Std.HashMap UInt32 Nat × Array (Option Nat)) i =>
    let (known, places) := state
    match word? xs i with
    | some w =>
      let last? := known[w]?
      (known.insert w i, places.push last?)
    | none => (known, places.push none)
  ((List.range xs.size).foldl record ({}, #[])).2

-- How many bytes from `i` on equal those from `j` on, up to `limit`.
def matchLength (xs : Array UInt8) (i j : Nat) : Nat → Nat
  | 0 => 0
  | limit + 1 => if xs[i]? = xs[j]? then matchLength xs (i + 1) (j + 1) limit + 1 else 0

-- The distance and length of the match at `i`, of at least four bytes. The last five bytes take no
-- part in it.
def matchAt? (find : Finder) (xs : Array UInt8) (i : Nat) : Option (Nat × Nat) := do
  let j ← find i
  let length := matchLength xs i j (xs.size - 5 - i)
  if j < i ∧ i - j ≤ maxDistance ∧ minMatch ≤ length then
    return (i - j, length)
  else
    none

-- The sequences of `xs` and the literals behind them, with the literals from `anchor` to `i` still
-- to be placed. No match starts in the last twelve bytes.
def factor (find : Finder) (xs : Array UInt8) : Nat → Nat → Nat → List Sequence × Bytes
  | 0, anchor, _ => ([], (xs.extract anchor xs.size).toList)
  | fuel + 1, anchor, i =>
    if i + 12 ≤ xs.size then
      match matchAt? find xs i with
      | some (distance, length) =>
        let (rest, last) := factor find xs fuel (i + length) (i + length)
        (⟨(xs.extract anchor i).toList, distance, length⟩ :: rest, last)
      | none => factor find xs fuel anchor (i + 1)
    else
      ([], (xs.extract anchor xs.size).toList)

-- The half of a token that tells of `n`.
def nibble (n : Nat) : Nat :=
  min n 15

-- What a token cannot tell of `n`, in bytes that add up.
def lengthBytes (n : Nat) : Bytes :=
  if n < 15 then
    []
  else
    List.replicate ((n - 15) / 255) 255 ++ [UInt8.ofNat ((n - 15) % 255)]

def literalBytes (literals : Bytes) (matchNibble : Nat) : Bytes :=
  UInt8.ofNat (nibble literals.length * 16 + matchNibble) ::
    (lengthBytes literals.length ++ literals)

def Sequence.toBytes (s : Sequence) : Bytes :=
  let n := s.length - minMatch
  literalBytes s.literals (nibble n) ++ Bytes.ofNat 2 s.distance ++ lengthBytes n

def encodeBlock (xs : Bytes) : Bytes :=
  let data := xs.toArray
  let places := lastPlaces data
  let (sequences, last) := factor (fun i => places.getD i none) data data.size 0 0
  sequences.flatMap Sequence.toBytes ++ literalBytes last 0

-- The sum of bytes up to the first that is not 255, and what follows them.
def readSum? : Bytes → Option (Nat × Bytes)
  | [] => none
  | b :: bs =>
    if b = 255 then
      (readSum? bs).map fun (n, rest) => (n + 255, rest)
    else
      some (b.toNat, bs)

def readLength? (nibble : Nat) (bs : Bytes) : Option (Nat × Bytes) :=
  if nibble < 15 then
    some (nibble, bs)
  else
    (readSum? bs).map fun (n, rest) => (n + 15, rest)

-- Runs the sequences of a block. Output beyond `limit` bytes is a fault, and so is a match that
-- reaches back beyond the output.
def run? (limit : Nat) : Nat → Bytes → Array UInt8 → Option (Array UInt8)
  | 0, _, _ => none
  | _, [], _ => none
  | fuel + 1, token :: bs, out => do
    let (n, bs) ← readLength? (token.toNat / 16) bs
    guard (n ≤ bs.length ∧ out.size + n ≤ limit)
    let out := out ++ bs.take n
    match bs.drop n with
    | [] => return out
    | [_] => none
    | b₀ :: b₁ :: bs =>
      let distance := Bytes.toNat [b₀, b₁]
      let (n, bs) ← readLength? (token.toNat % 16) bs
      let length := n + minMatch
      guard (0 < distance ∧ distance ≤ out.size ∧ out.size + length ≤ limit)
      run? limit fuel bs (copyBack distance length out)

def decodeBlock? (limit : Nat) (bs : Bytes) : Option Bytes :=
  (run? limit bs.length bs #[]).map Array.toList

def encode (xs : Bytes) : Bytes :=
  Bytes.ofNat 4 xs.length ++ encodeBlock xs

-- The data may be smaller than the size says, never larger.
def decode? (bs : Bytes) : Option Bytes :=
  if bs.length < 4 then
    none
  else
    decodeBlock? (Bytes.toNat (bs.take 4)) (bs.drop 4)

end GridPress.Codec.Lz4

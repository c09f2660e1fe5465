import GridPress.Bytes

namespace GridPress.Codec.Zstd

def frameMagic : Bytes :=
  [0x28, 0xb5, 0x2f, 0xfd]

def maxBlock : Nat :=
  2 ^ 17

def maxWindow : Nat :=
  2 ^ 27 + 1

def rawBlock (last : Bool) (bs : Bytes) : Bytes :=
  Bytes.ofNat 3 (last.toNat + bs.length * 8) ++ bs

-- The blocks of `bs` in pieces, of which there are `n` before the last.
def blocksIn : Nat → Bytes → Bytes
  | 0, bs => rawBlock true bs
  | n + 1, bs => rawBlock false (bs.take maxBlock) ++ blocksIn n (bs.drop maxBlock)

def encode (bs : Bytes) : Bytes :=
  frameMagic ++ [0, 0x38] ++ blocksIn (bs.length / maxBlock) bs

def take? (n : Nat) (bs : Bytes) : Option (Bytes × Bytes) :=
  if bs.length < n then none else some (bs.splitAt n)

def readNat? (n : Nat) (bs : Bytes) : Option (Nat × Bytes) :=
  (take? n bs).map fun (field, rest) => (Bytes.toNat field, rest)

structure Frame where
  window   : Nat
  content? : Option Nat

def windowOf (descriptor : Nat) : Nat :=
  let base := 2 ^ (10 + descriptor / 8)
  base + base / 8 * (descriptor % 8)

-- The bytes of the field for the content size.
def contentField (kind : Nat) (single : Bool) : Nat :=
  match kind with
  | 0 => single.toNat
  | 1 => 2
  | 2 => 4
  | _ => 8

-- The header behind the magic bytes, and what follows it. A content size in two bytes counts from
-- 256.
def readFrame? (bs : Bytes) : Option (Frame × Bytes) := do
  let (descriptor, bs) ← readNat? 1 bs
  let single := descriptor.testBit 5
  guard (!descriptor.testBit 3 && !descriptor.testBit 2)
  let (window, bs) ← if single then some (0, bs) else readNat? 1 bs
  let dictionaryField := #[0, 1, 2, 4].getD (descriptor % 4) 0
  let (dictionary, bs) ← readNat? dictionaryField bs
  guard (dictionary = 0)
  let kind := descriptor / 64
  let field := contentField kind single
  let (content, bs) ← readNat? field bs
  let content := if field = 2 then content + 256 else content
  let window := if single then content else windowOf window
  guard (window ≤ maxWindow)
  return (⟨window, if field = 0 then none else some content⟩, bs)

-- The data of a block, whether it is the last, and what follows it.
def readBlock? (f : Frame) (bs : Bytes) : Option (Bytes × Bool × Bytes) := do
  let (header, bs) ← readNat? 3 bs
  let size := header / 8
  guard (size ≤ min f.window maxBlock)
  let (data, bs) ←
    match header / 2 % 4 with
    | 0 => take? size bs
    | 1 =>
      match bs with
      | [] => none
      | b :: bs => some (List.replicate size b, bs)
    | _ => none
  return (data, header % 2 = 1, bs)

def readBlocks? (f : Frame) : Nat → Bytes → Option (Bytes × Bytes)
  | 0, _ => none
  | fuel + 1, bs => do
    let (data, last, bs) ← readBlock? f bs
    if last then
      return (data, bs)
    else
      let (more, bs) ← readBlocks? f fuel bs
      return (data ++ more, bs)

-- A frame that can be skipped starts with one of sixteen magic numbers and its size.
def isSkippable (magic : Nat) : Bool :=
  magic / 16 = 0x184d2a5

-- The data of one frame, and what follows it.
def decodeFrame? (bs : Bytes) : Option (Bytes × Bytes) := do
  let (magic, bs) ← take? 4 bs
  if magic = frameMagic then
    let (f, bs) ← readFrame? bs
    let (data, bs) ← readBlocks? f bs.length bs
    guard (f.content?.all (· = data.length))
    return (data, bs)
  else
    guard (isSkippable (Bytes.toNat magic))
    let (size, bs) ← readNat? 4 bs
    let (_, bs) ← take? size bs
    return ([], bs)

def decodeFrames? : Nat → Bytes → Option Bytes
  | 0, _ => none
  | fuel + 1, bs => do
    let (data, bs) ← decodeFrame? bs
    if bs.isEmpty then
      return data
    else
      return data ++ (← decodeFrames? fuel bs)

-- The data of one or more frames.
def decode? (bs : Bytes) : Option Bytes :=
  decodeFrames? bs.length bs

end GridPress.Codec.Zstd

import GridPress.Codec.Deflate

namespace GridPress.Codec.Gzip

-- Shifts one bit out of a CRC-32 remainder.
def shiftRemainder (c : UInt32) : UInt32 :=
  if c &&& 1 = 1 then (c >>> 1) ^^^ 0xedb88320 else c >>> 1

def addByte (c : UInt32) (b : UInt8) : UInt32 :=
  (List.range 8).foldl (fun c _ => shiftRemainder c) (c ^^^ b.toUInt32)

-- The CRC-32 checksum.
def checksum (bs : Bytes) : UInt32 :=
  bs.foldl addByte 0xffffffff ^^^ 0xffffffff

def trailer (data : Bytes) : Bytes :=
  Bytes.ofNat 4 (checksum data).toNat ++ Bytes.ofNat 4 data.length

def encode (data : Bytes) : Bytes :=
  [0x1f, 0x8b, 8, 0, 0, 0, 0, 0, 0, 0xff] ++ Deflate.store data ++ trailer data

-- What follows the text that ends with a zero byte.
def skipText? : Bytes → Option Bytes
  | [] => none
  | b :: bs => if b = 0 then some bs else skipText? bs

def skip? (n : Nat) (bs : Bytes) : Option Bytes :=
  if bs.length < n then none else some (bs.drop n)

def skipIf (present : Bool) (skip : Bytes → Option Bytes) (bs : Bytes) : Option Bytes :=
  if present then skip bs else some bs

-- Extra data is preceded by its size.
def skipExtra? (bs : Bytes) : Option Bytes := do
  let rest ← skip? 2 bs
  skip? (Bytes.toNat (bs.take 2)) rest

-- The low half of the checksum of everything in the header before it.
def checkHeader? (header bs : Bytes) : Option Bytes := do
  let rest ← skip? 2 bs
  let checked := header.take (header.length - bs.length)
  if Bytes.toNat (bs.take 2) = (checksum checked).toNat % 2 ^ 16 then some rest else none

-- What follows the header.
def skipHeader? (bs : Bytes) : Option Bytes := do
  let rest ← skip? 10 bs
  guard (bs.take 3 = [0x1f, 0x8b, 8])
  let flags ← bs[3]?
  let has := flags.toNat.testBit
  guard (flags < 0x20)
  let rest ← skipIf (has 2) skipExtra? rest
  let rest ← skipIf (has 3) skipText? rest
  let rest ← skipIf (has 4) skipText? rest
  skipIf (has 1) (checkHeader? bs) rest

-- The data of the first member. What follows it is not looked at.
def decode? (bs : Bytes) : Option Bytes := do
  let (data, rest) ← Deflate.inflate? (← skipHeader? bs)
  if rest.take 8 = trailer data then some data else none

end GridPress.Codec.Gzip

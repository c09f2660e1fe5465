import GridPress.Error

namespace GridPress.Header

structure Cursor where
  bytes    : Bytes
  position : Nat := 0
deriving DecidableEq

-- The bytes behind the fields read so far.
def Cursor.rest (c : Cursor) : Bytes :=
  c.bytes.drop c.position

abbrev Reader := StateT Cursor Result

def take (n : Nat) : Reader Bytes := fun c =>
  if c.position + n ≤ c.bytes.length then
    .ok (c.rest.take n, { c with position := c.position + n })
  else
    .error (.buffer (.headerTruncated n c.position c.bytes.length))

-- A natural number of `n` bytes.
def nat (n : Nat) : Reader Nat :=
  Bytes.toNat <$> take n

-- A whole number of `n` bytes in two's complement.
def int (n : Nat) : Reader Int := do
  return Int.bmod (← nat n) (256 ^ n)

def double : Reader Double :=
  Double.ofWord <$> nat 8

-- All bytes that are left.
def rest : Reader Bytes := do
  return (← get).rest

def read (r : Reader α) (bs : Bytes) : Result α :=
  r.run' ⟨bs, 0⟩

end GridPress.Header

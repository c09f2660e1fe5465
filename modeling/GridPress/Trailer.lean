import GridPress.Error

namespace GridPress.Trailer

def maxHeader : Nat :=
  2 ^ 32 - 1

-- What a preconditioner or a converter leaves at the end of a stream, which is read from its end.
structure Entry where
  magic  : UInt8
  header : Bytes
deriving DecidableEq

def splitMagic (bs : Bytes) : Result (Bytes × UInt8) :=
  match bs.getLast? with
  | some magic => .ok (bs.dropLast, magic)
  | none => .error (.buffer .noMagic)

-- The bytes of an entry.
def Entry.toBytes (e : Entry) : Result Bytes :=
  if e.header.length ≤ maxHeader then
    .ok (e.header ++ Bytes.ofNat 4 e.header.length ++ [e.magic])
  else
    .error (.buffer (.headerSize e.header.length))

-- The last `n` bytes, split off.
def splitLast (n : Nat) (bs : Bytes) : Bytes × Bytes :=
  bs.splitAt (bs.length - n)

def splitEntry (bs : Bytes) : Result (Bytes × Entry) := do
  let (rest, magic) ← splitMagic bs
  if rest.length < 4 then
    .error (.buffer .noHeaderSize)
  else
    let (rest, size) := splitLast 4 rest
    let n := Bytes.toNat size
    if rest.length < n then
      .error (.buffer (.headerClaim n rest.length))
    else
      let (rest, header) := splitLast n rest
      .ok (rest, ⟨magic, header⟩)

@[simp]
theorem splitMagic_concat (bs : Bytes) (magic : UInt8) :
    splitMagic (bs ++ [magic]) = .ok (bs, magic) := by
  simp [splitMagic]

theorem splitLast_append {n : Nat} (bs : Bytes) {cs : Bytes} (h : cs.length = n) :
    splitLast n (bs ++ cs) = (bs, cs) := by
  simp [splitLast, List.splitAt_eq, h]

end GridPress.Trailer

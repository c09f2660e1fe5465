import GridPress.Error

namespace GridPress.Packing

def checkWidth (bits : Nat) : Result Unit :=
  if 64 < bits then .error (.buffer (.packingWidth bits)) else .ok ()

-- The bytes that `count` values take.
def size (count bits : Nat) : Result Nat := do
  checkWidth bits
  if count * bits + 7 ≤ Size.max then
    .ok ((count * bits + 7) / 8)
  else
    .error (.buffer (.packingOverflow count bits))

-- The zero bits behind the last value.
def padding (count bits : Nat) : Nat :=
  (count * bits + 7) / 8 * 8 - count * bits

-- The packed form of values that all fit: the digits of one number in base `2 ^ bits`, which is
-- shifted to whole bytes. The most significant bit comes first.
def join (bits : Nat) (values : List Nat) : Bytes :=
  let n := values.length
  Bytes.ofNatBig ((n * bits + 7) / 8) (Digits.value (2 ^ bits) values * 2 ^ padding n bits)

-- The values in as many bytes as `count` of them take.
def split (bits count : Nat) (bs : Bytes) : List Nat :=
  Digits.expand (2 ^ bits) count (Bytes.toNatBig bs / 2 ^ padding count bits)

def pack (bits : Nat) (values : List Nat) : Result Bytes := do
  let _ ← size values.length bits
  match values.find? (2 ^ bits ≤ ·) with
  | some v => .error (.buffer (.packingValue v bits))
  | none => .ok (join bits values)

-- The bytes behind the packed values are left alone.
def unpack (bits count : Nat) (bs : Bytes) : Result (List Nat) := do
  let n ← size count bits
  if bs.length < n then
    .error (.buffer (.packedSize bs.length count bits n))
  else
    .ok (split bits count (bs.take n))

theorem length_join (bits : Nat) (values : List Nat) :
    (join bits values).length = (values.length * bits + 7) / 8 := by
  simp [join]

theorem length_split (bits count : Nat) (bs : Bytes) : (split bits count bs).length = count := by
  simp [split]

end GridPress.Packing

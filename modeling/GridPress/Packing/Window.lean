import GridPress.Packing
import GridPress.Sink

namespace GridPress.Packing

-- A number of bits in a row, the first one most significant.
structure Window where
  count : Nat
  value : Nat
  lt    : value < 2 ^ count

namespace Window

def empty : Window :=
  ⟨0, 0, Nat.one_pos⟩

variable (w : Window) (n : Nat)

-- Lets in the low `n` bits of `v`.
def push (v : Nat) : Window where
  count := w.count + n
  value := w.value * 2 ^ n + v % 2 ^ n
  lt := by
    have hv : v % 2 ^ n < 2 ^ n := Nat.mod_lt _ (Nat.two_pow_pos n)
    calc w.value * 2 ^ n + v % 2 ^ n
      _ < w.value * 2 ^ n + 2 ^ n := Nat.add_lt_add_left hv _
      _ = (w.value + 1) * 2 ^ n := (Nat.succ_mul _ _).symm
      _ ≤ 2 ^ w.count * 2 ^ n := Nat.mul_le_mul_right _ w.lt
      _ = 2 ^ (w.count + n) := (Nat.pow_add _ _ _).symm

-- The first `n` bits.
def front : Nat :=
  w.value / 2 ^ (w.count - n)

-- What is behind the first `n` bits.
def drop : Window where
  count := w.count - n
  value := w.value % 2 ^ (w.count - n)
  lt    := Nat.mod_lt _ (Nat.two_pow_pos _)

-- The bytes that the bits in the window fill.
def fullBytes : Bytes :=
  Bytes.ofNatBig (w.count / 8) (w.front (w.count / 8 * 8))

-- The byte that the last bits begin, if there are any.
def lastByte : Bytes :=
  if w.count = 0 then [] else [UInt8.ofNat (w.value * 2 ^ (8 - w.count))]

-- Lets in values of `n` bits. Bytes go out as soon as they are full.
def write (n : Nat) (w : Window) : List Nat → Bytes
  | [] => w.lastByte
  | v :: vs =>
    let next := w.push n v
    next.fullBytes ++ write n (next.drop (next.count / 8 * 8)) vs

-- Lets in bytes until there are `n` bits: the window then, and the bytes that are left. None if the
-- bytes do not suffice.
def fill (n : Nat) (w : Window) : Bytes → Option (Window × Bytes)
  | [] => if n ≤ w.count then some (w, []) else none
  | c :: bs => if n ≤ w.count then some (w, c :: bs) else fill n (w.push 8 c.toNat) bs

-- Passes on as many values of `n` bits, for each of which no more bytes are let in than it needs.
def read (n : Nat) (w : Window) (bs : Bytes) : Nat → Option (List Nat)
  | 0 => some []
  | k + 1 => do
    let (next, rest) ← fill n w bs
    return next.front n :: (← read n (next.drop n) rest k)

-- Writes the bytes as `write` gives them, up to the first value that does not fit.
def emit (n : Nat) (w : Window) : List Nat → SinkM Unit
  | [] => SinkM.write w.lastByte
  | v :: vs => do
    if 2 ^ n ≤ v then
      throw (.buffer (.packingValue v n))
    let next := w.push n v
    SinkM.write next.fullBytes
    emit n (next.drop (next.count / 8 * 8)) vs

end Window

-- Writes the packed form of values. In no bits there is nothing to write.
def packInto (bits : Nat) (values : List Nat) : SinkM Unit := do
  let _ ← liftExcept (size values.length bits)
  if bits = 0 then
    match values.find? (· ≠ 0) with
    | some v => throw (.buffer (.packingValue v bits))
    | none => return ()
  else
    Window.empty.emit bits values

end GridPress.Packing

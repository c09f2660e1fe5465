import GridPress.Bytes
import GridPress.Datatype
import GridPress.Size

namespace GridPress

structure Dims where
  lengths  : List UInt64
  rank_pos : 0 < lengths.length
  rank_le  : lengths.length ≤ 4
deriving DecidableEq

namespace Dims

-- The extents as they are, provided there is a valid number of them.
def ofLengths? (lengths : List UInt64) : Option Dims :=
  if h : 0 < lengths.length ∧ lengths.length ≤ 4 then
    some ⟨lengths, h.1, h.2⟩
  else
    none

def rank (d : Dims) : Nat :=
  d.lengths.length

-- The number of elements.
def count (d : Dims) : Nat :=
  d.lengths.foldl (fun n l => Size.clamp (n * l.toNat)) 1

-- The bytes that the elements take as `t`.
def byteSize (d : Dims) (t : Datatype) : Nat :=
  Size.clamp (d.count * t.size)

-- The room that all headers and trailers of a stream are allowed.
def headerRoom : Nat := 1024

-- A destination of this size is accepted for compressing the elements.
def sizeBound (d : Dims) (t : Datatype) : Nat :=
  Size.clamp (Size.clamp (d.byteSize t * 4) + headerRoom)

def encodedSize (d : Dims) : Nat :=
  1 + 8 * d.rank

-- The rank in one byte, then each extent in eight.
def toBytes (d : Dims) : Bytes :=
  UInt8.ofNat d.rank :: d.lengths.flatMap fun l => Bytes.ofNat 8 l.toNat

def text (d : Dims) : String :=
  "(" ++ String.intercalate "," (d.lengths.map fun l => toString l.toNat) ++ ")"

@[simp]
theorem ofLengths?_lengths (d : Dims) : ofLengths? d.lengths = some d := by
  simp [ofLengths?, d.rank_pos, d.rank_le]

theorem lengths_of_ofLengths? {ls : List UInt64} {d : Dims} (h : ofLengths? ls = some d) :
    d.lengths = ls := by
  unfold ofLengths? at h
  split at h
  · cases h
    rfl
  · contradiction

theorem length_toBytes (d : Dims) : d.toBytes.length = d.encodedSize := by
  suffices h : ∀ ls : List UInt64,
      (ls.flatMap fun l => Bytes.ofNat 8 l.toNat).length = 8 * ls.length by
    simp [toBytes, encodedSize, rank, h, Nat.add_comm]
  intro ls
  induction ls with
  | nil => rfl
  | cons l ls ih => simp [List.flatMap_cons, ih, Nat.mul_succ, Nat.add_comm]

end Dims
end GridPress

import GridPress.Error

namespace GridPress.Dims

-- The most elements accepted from outside. It leaves room for the widest element type and for the
-- size bound.
def maxElements : Nat :=
  Size.max / 64

-- The product of the extents, unless a partial product leaves the machine word.
def product? (lengths : List UInt64) : Option Nat :=
  lengths.foldlM (fun n l => Size.mul? n l.toNat) 1

def ofLengths (lengths : List UInt64) : Result Dims :=
  match ofLengths? lengths with
  | none => .error (.buffer (.axes lengths.length))
  | some d =>
    if (product? lengths).any (· ≤ maxElements) then
      .ok d
    else
      .error (.buffer (.tooManyElements lengths))

-- The dims at the start of `bs`, and the number of bytes they take.
def ofBytes (bs : Bytes) : Result (Dims × Nat) :=
  match bs with
  | [] => .error (.buffer .noDims)
  | r :: body =>
    let rank := r.toNat
    if rank = 0 ∨ 4 < rank then
      .error (.buffer (.dimsCount rank))
    else if body.length < 8 * rank then
      .error (.buffer (.dimsTruncated bs.length (1 + 8 * rank)))
    else do
      let lengths := (Bytes.chunks 8 rank body).map fun c => UInt64.ofNat (Bytes.toNat c)
      let d ← ofLengths lengths
      return (d, 1 + 8 * rank)

theorem ofLengths_eq_ok {ls : List UInt64} {d : Dims} (h : ofLengths ls = .ok d) :
    d.lengths = ls := by
  unfold ofLengths at h
  split at h
  · contradiction
  · split at h
    · cases h
      exact lengths_of_ofLengths? (by assumption)
    · contradiction

end GridPress.Dims

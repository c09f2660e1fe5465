import GridPress.Dims.Codec
import GridPress.Proofs.Elements
import GridPress.Proofs.Results

namespace GridPress.Dims

variable {d : Dims} {bs : Bytes} {n : Nat}

-- Dims that extents from outside are accepted as.
def Accepted (d : Dims) : Prop :=
  ∃ lengths, ofLengths lengths = .ok d

theorem Accepted.ofLengths_lengths (hd : d.Accepted) : ofLengths d.lengths = .ok d := by
  obtain ⟨lengths, h⟩ := hd
  rwa [ofLengths_eq_ok h]

-- The extents without their number.
def lengthBytes (ls : List UInt64) : Bytes :=
  ls.flatMap fun l => Bytes.ofNat 8 l.toNat

def readLengths (n : Nat) (bs : Bytes) : List UInt64 :=
  (Bytes.chunks 8 n bs).map fun c => UInt64.ofNat (Bytes.toNat c)

theorem toBytes_eq (d : Dims) : d.toBytes = UInt8.ofNat d.rank :: lengthBytes d.lengths := rfl

theorem length_lengthBytes (d : Dims) : (lengthBytes d.lengths).length = 8 * d.lengths.length := by
  have h := d.length_toBytes
  rw [toBytes_eq, List.length_cons, encodedSize, rank] at h
  omega

@[simp]
theorem length_readLengths (n : Nat) (bs : Bytes) : (readLengths n bs).length = n := by
  simp [readLengths]

theorem readLengths_lengthBytes (ls : List UInt64) (after : Bytes) :
    readLengths ls.length (lengthBytes ls ++ after) = ls := by
  induction ls
  case nil => rfl
  case cons l ls ih =>
    have hl : UInt64.ofNat (Bytes.ofNat 8 l.toNat).toNat = l := by
      rw [Bytes.toNat_ofNat_of_lt l.toNat_lt, UInt64.ofNat_toNat]
    rw [readLengths, lengthBytes, List.flatMap_cons, List.append_assoc, List.length_cons,
      Bytes.chunks_append _ _ _ (Bytes.length_ofNat 8 _), List.map_cons, hl]
    exact congrArg (l :: ·) ih

theorem lengthBytes_readLengths (h : 8 * n ≤ bs.length) :
    lengthBytes (readLengths n bs) ++ bs.drop (8 * n) = bs := by
  induction n generalizing bs
  case zero => rfl
  case succ n ih =>
    have hfirst : Bytes.ofNat 8 (UInt64.ofNat (Bytes.toNat (bs.take 8))).toNat = bs.take 8 := by
      have hlength : (bs.take 8).length = 8 := List.length_take_of_le (by omega)
      have hlt := Bytes.toNat_lt (bs.take 8)
      have hback := Bytes.ofNat_toNat (bs.take 8)
      rw [hlength] at hlt hback
      rwa [UInt64.toNat_ofNat_of_lt' hlt]
    have hlength : 8 * n ≤ (bs.drop 8).length := by
      rw [List.length_drop]
      omega
    have hrest := ih hlength
    rw [List.drop_drop, Nat.add_comm, ← Nat.mul_succ] at hrest
    rw [readLengths, Bytes.chunks, List.map_cons, lengthBytes, List.flatMap_cons, hfirst,
      List.append_assoc]
    exact (congrArg (bs.take 8 ++ ·) hrest).trans (List.take_append_drop 8 bs)

-- Reading takes the bytes that were written, and leaves those behind them.
theorem ofBytes_toBytes (hd : d.Accepted) (after : Bytes) :
    ofBytes (d.toBytes ++ after) = .ok (d, d.encodedSize) := by
  have hpos := d.rank_pos
  have hle := d.rank_le
  have hrank : (UInt8.ofNat d.rank).toNat = d.lengths.length :=
    UInt8.toNat_ofNat_of_lt' (Nat.lt_of_le_of_lt hle (by decide))
  have hlength : ¬(lengthBytes d.lengths ++ after).length < 8 * d.lengths.length := by
    rw [List.length_append, length_lengthBytes]
    omega
  rw [toBytes_eq, List.cons_append, ofBytes]
  dsimp only
  rw [hrank, if_neg (by omega), if_neg hlength]
  change ofLengths (readLengths d.lengths.length _) >>= _ = _
  rw [readLengths_lengthBytes, hd.ofLengths_lengths]
  rfl

-- What is read was written from accepted dims.
theorem ofBytes_eq_ok (h : ofBytes bs = .ok (d, n)) :
    d.Accepted ∧ d.toBytes ++ bs.drop n = bs := by
  cases bs
  case nil => contradiction
  case cons r body =>
    rw [ofBytes] at h
    dsimp only at h
    split at h
    case isTrue => contradiction
    case isFalse hrank =>
      split at h
      case isTrue => contradiction
      case isFalse hlength =>
        obtain ⟨d', hd, hpair⟩ := Result.bind_eq_ok_iff.mp h
        obtain ⟨rfl, rfl⟩ := Prod.mk.inj (Except.ok.inj hpair)
        have hlengths : d'.lengths = readLengths r.toNat body := ofLengths_eq_ok hd
        have hfirst : UInt8.ofNat d'.rank = r := by
          rw [rank, hlengths, length_readLengths, UInt8.ofNat_toNat]
        have hbody := lengthBytes_readLengths (Nat.not_lt.mp hlength)
        refine ⟨⟨_, hd⟩, ?_⟩
        rw [toBytes_eq, hfirst, hlengths, Nat.add_comm, List.drop_succ_cons, List.cons_append,
          hbody]

end GridPress.Dims

import GridPress.Element
import Mathlib.Data.List.Forall2

namespace GridPress

namespace Datatype

theorem two_pow_width (t : Datatype) : 2 ^ t.width = 256 ^ t.size := by
  rw [width, Nat.pow_mul]

end Datatype

namespace Bytes

theorem chunks_append (n k : Nat) {c : Bytes} (cs : Bytes) (h : c.length = n) :
    chunks n (k + 1) (c ++ cs) = c :: chunks n k cs := by
  simp [chunks, ← h]

theorem length_of_mem_chunks {n k : Nat} {bs c : Bytes} (hl : n * k ≤ bs.length)
    (h : c ∈ chunks n k bs) : c.length = n := by
  induction k generalizing bs with
  | zero => simp [chunks] at h
  | succ k ih =>
    rw [Nat.mul_succ] at hl
    cases List.mem_cons.mp h
    case inl h => simp [h]; omega
    case inr h => exact ih (by simp; omega) h

theorem toNat_ofNat_of_lt {n x : Nat} (h : x < 256 ^ n) : (ofNat n x).toNat = x := by
  rw [toNat_ofNat, Nat.mod_eq_of_lt h]

end Bytes

namespace Element

variable {t : Datatype}

theorem lt_of_mem_split {bs : Bytes} {w : Nat} (h : w ∈ split t bs) : w < 2 ^ t.width := by
  obtain ⟨c, hc, rfl⟩ := List.mem_map.mp h
  have hl := Bytes.length_of_mem_chunks (Nat.mul_div_le _ _) hc
  rw [t.two_pow_width, ← hl]
  exact c.toNat_lt

@[simp]
theorem join_nil : join t [] = [] := rfl

theorem join_cons (w : Nat) (ws : List Nat) :
    join t (w :: ws) = Bytes.ofNat t.size w ++ join t ws :=
  rfl

theorem split_append (bs : Bytes) {c : Bytes} (h : c.length = t.size) :
    split t (c ++ bs) = c.toNat :: split t bs := by
  have hn : (c ++ bs).length / t.size = bs.length / t.size + 1 := by
    rw [List.length_append, h, Nat.add_div_left _ t.size_pos]
  rw [split, hn, Bytes.chunks_append _ _ _ h, List.map_cons]
  rfl

theorem split_join {ws : List Nat} (h : ∀ w ∈ ws, w < 2 ^ t.width) : split t (join t ws) = ws := by
  induction ws with
  | nil => simp [split, Bytes.chunks]
  | cons w ws ih =>
    have hw : w < 256 ^ t.size := t.two_pow_width ▸ h w (by simp)
    rw [join_cons, split_append _ (by simp), Bytes.toNat_ofNat_of_lt hw]
    rw [ih fun v hv => h v (by simp [hv])]

theorem join_split {bs : Bytes} (h : bs.length % t.size = 0) : join t (split t bs) = bs := by
  have hl : bs.length = t.size * (bs.length / t.size) := by
    rw [Nat.mul_div_cancel' (Nat.dvd_of_mod_eq_zero h)]
  have hm : ∀ c ∈ Bytes.chunks t.size (bs.length / t.size) bs,
      Bytes.ofNat t.size c.toNat = c := by
    intro c hc
    have := c.ofNat_toNat
    rwa [Bytes.length_of_mem_chunks (Nat.le_of_eq hl.symm) hc] at this
  calc join t (split t bs)
    _ = ((Bytes.chunks t.size (bs.length / t.size) bs).map fun c =>
          Bytes.ofNat t.size c.toNat).flatten := by
      simp [join, split, List.flatMap, List.map_map, Function.comp_def]
    _ = (Bytes.chunks t.size (bs.length / t.size) bs).flatten := by
      rw [List.map_congr_left hm, List.map_id']
    _ = bs := Bytes.flatten_chunks _ _ hl

theorem length_join_of_length_eq {bs : Bytes} {ws : List Nat} (hd : bs.length % t.size = 0)
    (h : ws.length = (split t bs).length) : (join t ws).length = bs.length := by
  rw [length_join, h, length_split, Nat.mul_div_cancel' (Nat.dvd_of_mod_eq_zero hd)]

-- The array whose words are those of another one changed by `f`.
theorem forall₂_split_join {bs : Bytes} {f : Nat → Nat} {R : Nat → Nat → Prop}
    (hd : bs.length % t.size = 0) (hlt : ∀ w ∈ split t bs, f w < 2 ^ t.width)
    (hR : ∀ w ∈ split t bs, R w (f w)) :
    (join t ((split t bs).map f)).length = bs.length ∧
      List.Forall₂ R (split t bs) (split t (join t ((split t bs).map f))) := by
  have hwords : ∀ v ∈ (split t bs).map f, v < 2 ^ t.width := by simpa using hlt
  refine ⟨length_join_of_length_eq hd (List.length_map f), ?_⟩
  rw [split_join hwords, List.forall₂_map_right_iff, List.forall₂_same]
  exact hR

theorem decode_join {ws : List Nat} (h : ∀ w ∈ ws, w < 2 ^ t.width) :
    decode t (join t ws) = .ok ws := by
  simp [decode, length_join, split_join h]

end Element

namespace Size

theorem eq_of_clamp_le {n : Nat} (h : clamp n ≤ maxArray) : clamp n = n := by
  simp only [clamp, max, maxArray] at *
  omega

end Size

namespace Dims

variable {d : Dims} {t : Datatype}

theorem byteSize_eq (h : d.byteSize t ≤ Size.maxArray) : d.byteSize t = d.count * t.size :=
  Size.eq_of_clamp_le h

theorem byteSize_mod_size (h : d.byteSize t ≤ Size.maxArray) : d.byteSize t % t.size = 0 := by
  rw [byteSize_eq h, Nat.mul_mod_left]

-- Five elements along one axis.
def five : Dims :=
  ⟨[5], by decide, by decide⟩

end Dims
end GridPress

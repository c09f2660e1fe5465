import GridPress.Packing
import GridPress.Proofs.Results

namespace GridPress

namespace Digits

variable {b : Nat} {ds : List Nat}

theorem value_lt (h : ∀ d ∈ ds, d < b) : value b ds < b ^ ds.length := by
  have hexpand := expand_value h
  have hvalue := value_expand (b := b) ds.length (value b ds)
  rw [hexpand] at hvalue
  by_cases hzero : b ^ ds.length = 0
  case pos =>
    have ⟨hb, hl⟩ := Nat.pow_eq_zero.mp hzero
    obtain ⟨d, hd⟩ := List.exists_mem_of_length_pos (Nat.pos_of_ne_zero hl)
    have := h d hd
    omega
  case neg =>
    rw [hvalue]
    exact Nat.mod_lt _ (Nat.pos_of_ne_zero hzero)

end Digits

namespace Bytes

theorem toNatBig_ofNatBig (n x : Nat) : toNatBig (ofNatBig n x) = x % 256 ^ n := by
  have hbytes : ∀ d ∈ Digits.expand 256 n x, (UInt8.ofNat d).toNat = d := by
    intro d hd
    have hlt := Digits.lt_of_mem_expand (by decide) hd
    rw [UInt8.toNat_ofNat']
    exact Nat.mod_eq_of_lt hlt
  rw [toNatBig, ofNatBig, List.map_map, ← Digits.value_expand]
  congr 1
  exact (List.map_congr_left hbytes).trans (List.map_id' _)

end Bytes

namespace Packing

variable {bits : Nat} {values : List Nat} {packed : Bytes}

theorem split_join (h : ∀ v ∈ values, v < 2 ^ bits) :
    split bits values.length (join bits values) = values := by
  obtain ⟨n, hn⟩ : ∃ n, n = (values.length * bits + 7) / 8 := ⟨_, rfl⟩
  have hpadding : values.length * bits + padding values.length bits = 8 * n := by
    unfold padding
    omega
  have hpow : 256 ^ n = 2 ^ (values.length * bits) * 2 ^ padding values.length bits := by
    rw [← Nat.pow_add, hpadding, Nat.pow_mul]
  have hvalue : Digits.value (2 ^ bits) values < 2 ^ (values.length * bits) := by
    rw [Nat.mul_comm, Nat.pow_mul]
    exact Digits.value_lt h
  have hpos : 0 < 2 ^ padding values.length bits := Nat.two_pow_pos _
  have hfits : Digits.value (2 ^ bits) values * 2 ^ padding values.length bits < 256 ^ n :=
    hpow ▸ Nat.mul_lt_mul_of_pos_right hvalue hpos
  simp only [split, join, Bytes.toNatBig_ofNatBig, ← hn]
  rw [Nat.mod_eq_of_lt hfits, Nat.mul_div_cancel _ hpos, Digits.expand_value h]

theorem size_eq_ok_iff {count n : Nat} :
    size count bits = .ok n ↔
      bits ≤ 64 ∧ count * bits + 7 ≤ Size.max ∧ n = (count * bits + 7) / 8 := by
  unfold size checkWidth
  by_cases hbits : 64 < bits
  case pos =>
    simp only [if_pos hbits, Result.error_bind, reduceCtorEq, false_iff]
    exact fun h => absurd h.left (Nat.not_le.mpr hbits)
  case neg =>
    by_cases hfits : count * bits + 7 ≤ Size.max
    case pos => simp [hbits, hfits, Nat.not_lt.mp hbits, eq_comm]
    case neg => simp [hbits, hfits]

theorem pack_eq_ok_iff :
    pack bits values = .ok packed ↔
      size values.length bits = .ok packed.length ∧ (∀ v ∈ values, v < 2 ^ bits) ∧
        packed = join bits values := by
  unfold pack
  constructor
  case mp =>
    intro h
    have ⟨n, hn, h⟩ := Result.bind_eq_ok_iff.mp h
    split at h
    case h_1 => exact nomatch h
    case h_2 hfind =>
      obtain rfl := Except.ok.inj h
      have ⟨_, _, hsize⟩ := size_eq_ok_iff.mp hn
      rw [length_join, ← hsize]
      exact ⟨hn, by simpa using hfind, rfl⟩
  case mpr =>
    intro ⟨hsize, hlt, hpacked⟩
    have hfind : values.find? (2 ^ bits ≤ ·) = none := by simpa using hlt
    rw [hsize, hfind, hpacked]
    rfl

-- Values come back from their packed form.
theorem unpack_of_pack (h : pack bits values = .ok packed) (rest : Bytes) :
    unpack bits values.length (packed ++ rest) = .ok values := by
  have ⟨hsize, hlt, hpacked⟩ := pack_eq_ok_iff.mp h
  simp only [unpack, hsize, Result.ok_bind]
  rw [if_neg (by simp), List.take_left, hpacked, split_join hlt]

end Packing
end GridPress

import GridPress.Proofs.Packing

namespace GridPress

namespace Digits

variable {b n x y r : Nat}

theorem expand_add (b m n x : Nat) :
    expand b (m + n) x = expand b m (x / b ^ n) ++ expand b n x := by
  induction n generalizing x
  case zero => simp
  case succ n ih =>
    rw [← Nat.add_assoc, expand_succ, ih, expand_succ, Nat.div_div_eq_div_mul, ← Nat.pow_succ',
      List.append_assoc]

theorem expand_mod (b n x : Nat) : expand b n (x % b ^ n) = expand b n x := by
  induction n generalizing x
  case zero => rfl
  case succ n ih =>
    have hlast : x % b ^ (n + 1) % b = x % b :=
      Nat.mod_mod_of_dvd _ (Nat.dvd_mul_left b (b ^ n))
    have hinit : x % b ^ (n + 1) / b = x / b % b ^ n := by
      rw [Nat.pow_succ', Nat.mod_mul_right_div_self]
    rw [expand_succ, expand_succ, hlast, hinit, ih]

-- The digits of a number made of two parts, the lower one of `n` digits.
theorem expand_concat (m : Nat) (h : r < b ^ n) :
    expand b (m + n) (x * b ^ n + r) = expand b m x ++ expand b n r := by
  have hpos : 0 < b ^ n := Nat.zero_lt_of_lt h
  have hhigh : (x * b ^ n + r) / b ^ n = x := by
    rw [Nat.mul_comm, Nat.mul_add_div hpos, Nat.div_eq_of_lt h, Nat.add_zero]
  rw [expand_add, hhigh, ← expand_mod b n (x * b ^ n + r), Nat.mul_add_mod_self_right,
    Nat.mod_eq_of_lt h]

theorem expand_of_zero (b n : Nat) : expand b n 0 = List.replicate n 0 := by
  induction n
  case zero => rfl
  case succ n ih => rw [expand_succ, Nat.zero_div, Nat.zero_mod, ih, List.replicate_succ']

-- Each digit in the base `b ^ k` stands for `k` digits in the base `b`.
theorem expand_pow (b k n x : Nat) :
    (expand (b ^ k) n x).flatMap (expand b k) = expand b (n * k) x := by
  induction n generalizing x
  case zero => simp
  case succ n ih =>
    rw [expand_succ, List.flatMap_append, ih, List.flatMap_singleton, expand_mod, Nat.succ_mul,
      expand_add]

theorem expand_injective (hx : x < b ^ n) (hy : y < b ^ n) (h : expand b n x = expand b n y) :
    x = y := by
  have hvalue := congrArg (value b) h
  rwa [value_expand, value_expand, Nat.mod_eq_of_lt hx, Nat.mod_eq_of_lt hy] at hvalue

-- Numbers of a fixed width are told by all their digits in a row.
theorem flatMap_expand_injective {vs ws : List Nat} (hvs : ∀ v ∈ vs, v < b ^ n)
    (hws : ∀ w ∈ ws, w < b ^ n) (hl : vs.length = ws.length)
    (h : vs.flatMap (expand b n) = ws.flatMap (expand b n)) : vs = ws := by
  induction vs generalizing ws
  case nil => exact (List.length_eq_zero_iff.mp hl.symm).symm
  case cons v vs ih =>
    cases ws
    case nil => contradiction
    case cons w ws =>
      simp only [List.forall_mem_cons] at hvs hws
      rw [List.flatMap_cons, List.flatMap_cons] at h
      have ⟨hhead, htail⟩ := List.append_inj h (by rw [length_expand, length_expand])
      rw [expand_injective hvs.left hws.left hhead,
        ih hvs.right hws.right (Nat.succ.inj hl) htail]

end Digits

namespace Bytes

variable {bs cs : Bytes}

-- The bits of a byte string, most significant first in each byte.
def bits (bs : Bytes) : List Nat :=
  bs.flatMap fun c => Digits.expand 2 8 c.toNat

@[simp]
theorem bits_nil : bits [] = [] := rfl

theorem bits_cons (c : UInt8) (bs : Bytes) :
    bits (c :: bs) = Digits.expand 2 8 c.toNat ++ bs.bits :=
  rfl

theorem bits_append (bs cs : Bytes) : bits (bs ++ cs) = bs.bits ++ cs.bits :=
  List.flatMap_append

theorem bits_map (xs : List Nat) (h : ∀ x ∈ xs, x < 256) :
    bits (xs.map UInt8.ofNat) = xs.flatMap (Digits.expand 2 8) := by
  rw [bits, List.flatMap_map, List.flatMap_def, List.flatMap_def]
  congr 1
  refine List.map_congr_left fun x hx => ?_
  rw [UInt8.toNat_ofNat', Nat.mod_eq_of_lt (h x hx)]

theorem bits_ofNatBig (n x : Nat) : (ofNatBig n x).bits = Digits.expand 2 (n * 8) x := by
  rw [ofNatBig, bits_map _ fun d hd => Digits.lt_of_mem_expand (by decide) hd]
  exact Digits.expand_pow 2 8 n x

theorem ofNatBig_toNatBig (bs : Bytes) : ofNatBig bs.length (toNatBig bs) = bs := by
  have hlt : ∀ d ∈ bs.map UInt8.toNat, d < 256 := by
    simpa using fun c _ => UInt8.toNat_lt c
  have hbytes : ∀ c ∈ bs, UInt8.ofNat c.toNat = c := fun c _ => UInt8.ofNat_toNat
  have hexpand := Digits.expand_value hlt
  rw [List.length_map] at hexpand
  rw [ofNatBig, toNatBig, hexpand, List.map_map]
  exact (List.map_congr_left hbytes).trans (List.map_id' _)

theorem bits_eq_expand (bs : Bytes) : bs.bits = Digits.expand 2 (bs.length * 8) (toNatBig bs) := by
  rw [← bits_ofNatBig, ofNatBig_toNatBig]

theorem length_bits (bs : Bytes) : bs.bits.length = bs.length * 8 := by
  rw [bits_eq_expand, Digits.length_expand]

theorem bits_injective (h : bs.bits = cs.bits) : bs = cs := by
  have hl : bs.length = cs.length := by
    have hbits := congrArg List.length h
    rw [length_bits, length_bits] at hbits
    omega
  have hlt : ∀ bs : Bytes, ∀ x ∈ bs.map UInt8.toNat, x < 2 ^ 8 := by
    intro bs
    simpa using fun c _ => UInt8.toNat_lt c
  have hflat : ∀ bs : Bytes, bs.bits = (bs.map UInt8.toNat).flatMap (Digits.expand 2 8) :=
    fun bs => (List.flatMap_map ..).symm
  rw [hflat, hflat] at h
  refine (List.map_inj_right fun _ _ => UInt8.toNat_inj.mp).mp ?_
  exact Digits.flatMap_expand_injective (hlt bs) (hlt cs) (by simp [hl]) h

end Bytes

namespace Packing

variable {bits count : Nat} {values : List Nat} {bs : Bytes}

-- The bits of values, most significant first in each value.
def valueBits (bits : Nat) (values : List Nat) : List Nat :=
  values.flatMap (Digits.expand 2 bits)

-- The bytes that values of a common width take are the least number that holds all their bits.
theorem size_eq_add_padding (count bits : Nat) :
    (count * bits + 7) / 8 * 8 = count * bits + padding count bits := by
  unfold padding
  omega

theorem bits_join (h : ∀ v ∈ values, v < 2 ^ bits) :
    (join bits values).bits =
      valueBits bits values ++ List.replicate (padding values.length bits) 0 := by
  have hvalues := Digits.expand_pow 2 bits values.length (Digits.value (2 ^ bits) values)
  rw [Digits.expand_value h] at hvalues
  rw [join, Bytes.bits_ofNatBig, size_eq_add_padding, Digits.expand_add,
    Nat.mul_div_cancel _ (Nat.two_pow_pos _), ← hvalues, ← Digits.expand_mod 2 (padding _ _),
    Nat.mul_mod_left, Digits.expand_of_zero, valueBits]

theorem lt_of_mem_split {v : Nat} (h : v ∈ split bits count bs) : v < 2 ^ bits :=
  Digits.lt_of_mem_expand (Nat.two_pow_pos _) h

end Packing
end GridPress

import GridPress.Packing.Window
import GridPress.Proofs.Packing.Bits

namespace GridPress.Packing

namespace Window

variable (w : Window) (n : Nat)

-- The bits in the window.
def bits : List Nat :=
  Digits.expand 2 w.count w.value

variable {w : Window} {n k : Nat} {bs : Bytes}

@[simp]
theorem length_bits (w : Window) : w.bits.length = w.count :=
  Digits.length_expand _ _

theorem bits_push (w : Window) (n v : Nat) : (w.push n v).bits = w.bits ++ Digits.expand 2 n v := by
  have hlt : v % 2 ^ n < 2 ^ n := Nat.mod_lt _ (Nat.two_pow_pos n)
  rw [bits, push, Digits.expand_concat _ hlt, Digits.expand_mod, bits]

theorem bits_eq_front_drop (h : n ≤ w.count) :
    w.bits = Digits.expand 2 n (w.front n) ++ (w.drop n).bits := by
  have hcount : n + (w.count - n) = w.count := Nat.add_sub_of_le h
  have hadd := Digits.expand_add 2 n (w.count - n) w.value
  rw [hcount] at hadd
  rw [bits, hadd, bits, front, drop, Digits.expand_mod]

theorem bits_fullBytes (w : Window) :
    w.fullBytes.bits ++ (w.drop (w.count / 8 * 8)).bits = w.bits := by
  rw [fullBytes, Bytes.bits_ofNatBig, ← bits_eq_front_drop (Nat.div_mul_le_self _ _)]

theorem bits_lastByte (h : w.count < 8) :
    ∃ zeros < 8, w.lastByte.bits = w.bits ++ List.replicate zeros 0 := by
  unfold lastByte
  by_cases hzero : w.count = 0
  case pos =>
    refine ⟨0, by decide, ?_⟩
    rw [if_pos hzero, bits, hzero]
    rfl
  case neg =>
    have hcount : w.count + (8 - w.count) = 8 := by omega
    have hlt : w.value * 2 ^ (8 - w.count) < 256 := by
      calc w.value * 2 ^ (8 - w.count)
        _ < 2 ^ w.count * 2 ^ (8 - w.count) :=
          Nat.mul_lt_mul_of_pos_right w.lt (Nat.two_pow_pos _)
        _ = 256 := by rw [← Nat.pow_add, hcount]
    have hbits := Digits.expand_concat (b := 2) (x := w.value) w.count
      (Nat.two_pow_pos (8 - w.count))
    rw [hcount, Nat.add_zero, Digits.expand_of_zero] at hbits
    refine ⟨8 - w.count, by omega, ?_⟩
    rw [if_neg hzero, Bytes.bits_cons, Bytes.bits_nil, List.append_nil, UInt8.toNat_ofNat',
      Nat.mod_eq_of_lt hlt, hbits, bits]

-- The bytes have the bits in the window and those of the values, and less than one byte of zeros.
theorem bits_write (h : w.count < 8) (vs : List Nat) :
    ∃ zeros < 8, (w.write n vs).bits = w.bits ++ valueBits n vs ++ List.replicate zeros 0 := by
  induction vs generalizing w
  case nil =>
    obtain ⟨zeros, hlt, hbits⟩ := bits_lastByte h
    exact ⟨zeros, hlt, by rw [write, hbits, valueBits, List.flatMap_nil, List.append_nil]⟩
  case cons v vs ih =>
    obtain ⟨next, hnext⟩ : ∃ next, next = w.push n v := ⟨_, rfl⟩
    have hdrop : (next.drop (next.count / 8 * 8)).count < 8 := by
      simp only [drop]
      omega
    obtain ⟨zeros, hlt, hbits⟩ := ih hdrop
    refine ⟨zeros, hlt, ?_⟩
    rw [write, ← hnext, Bytes.bits_append, hbits, ← List.append_assoc, ← List.append_assoc,
      bits_fullBytes, hnext, bits_push, valueBits, valueBits, List.flatMap_cons,
      List.append_assoc w.bits]

end Window

variable {bits count : Nat} {values : List Nat} {bs packed : Bytes}

-- Going through a window gives the packed form.
theorem write_eq_join (h : ∀ v ∈ values, v < 2 ^ bits) :
    Window.empty.write bits values = join bits values := by
  obtain ⟨zeros, hlt, hbits⟩ := Window.bits_write (w := .empty) (n := bits) (by decide) values
  have hlength := congrArg List.length hbits
  have hvalues : (valueBits bits values).length = values.length * bits := by
    have hjoin := congrArg List.length (bits_join h)
    rw [Bytes.length_bits, length_join, size_eq_add_padding, List.length_append,
      List.length_replicate] at hjoin
    omega
  have hzeros : zeros = padding values.length bits := by
    simp only [Bytes.length_bits, List.length_append, List.length_replicate, Window.length_bits,
      hvalues, Window.empty] at hlength
    unfold padding
    omega
  apply Bytes.bits_injective
  rw [hbits, bits_join h, hzeros]
  rfl

section Sizes

variable (hbits : bits ≤ 64) (hfits : count * bits + 7 ≤ Size.max)

include hbits hfits

end Sizes

end GridPress.Packing

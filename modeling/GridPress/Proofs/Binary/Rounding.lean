import GridPress.Proofs.Binary.Format

namespace GridPress.Binary

section RoundHalfEven

variable {m n d c : Nat}

theorem roundHalfEven_mul (hd : 0 < d) : roundHalfEven (c * d) d = c := by
  have hq : c * d / d = c := Nat.mul_div_cancel _ hd
  have hr : c * d % d = 0 := Nat.mul_mod_left _ _
  unfold roundHalfEven
  simp only [hq, hr]
  rw [if_neg (by omega)]

theorem roundHalfEven_mono (d : Nat) (h : m ≤ n) : roundHalfEven m d ≤ roundHalfEven n d := by
  have hq : m / d ≤ n / d := Nat.div_le_div_right h
  have hm := Nat.div_add_mod m d
  have hn := Nat.div_add_mod n d
  unfold roundHalfEven
  by_cases heq : m / d = n / d
  case pos =>
    -- The quotients agree, so the remainders are in order.
    rw [← heq] at hn ⊢
    have hr : m % d ≤ n % d := by omega
    dsimp only
    split <;> split <;> omega
  case neg =>
    dsimp only
    split <;> split <;> omega

theorem roundHalfEven_within (n : Nat) (hd : 0 < d) :
    2 * (roundHalfEven n d * d) ≤ 2 * n + d ∧ 2 * n ≤ 2 * (roundHalfEven n d * d) + d := by
  have hn : n / d * d + n % d = n := by rw [Nat.mul_comm, Nat.div_add_mod]
  have hr := Nat.mod_lt n hd
  unfold roundHalfEven
  dsimp only
  split
  case isTrue =>
    rw [Nat.add_mul]
    omega
  case isFalse => omega

end RoundHalfEven

namespace Format

variable {f : Format} {m n d e r : Nat}

-- The bits that rounding drops.
def dropped (f : Format) (m d : Nat) : Nat :=
  (m / d).log2 - f.mantissaBits

theorem nearest_eq (f : Format) (m d : Nat) :
    f.nearest m d =
      min (roundHalfEven m (d * 2 ^ f.dropped m d) + f.dropped m d * 2 ^ f.mantissaBits)
        f.infinity :=
  rfl

-- What is left has one bit more than the mantissa, if not less.
theorem lt_of_dropped (hd : 0 < d) (hk : f.dropped m d ≤ e) :
    m < 2 ^ (f.mantissaBits + 1) * (d * 2 ^ e) := by
  have hlog : m / d < 2 ^ (f.mantissaBits + 1 + e) := by
    have hlt : m / d < 2 ^ ((m / d).log2 + 1) := Nat.lt_log2_self
    have hle : (m / d).log2 + 1 ≤ f.mantissaBits + 1 + e := by
      unfold dropped at hk
      omega
    exact Nat.lt_of_lt_of_le hlt (Nat.pow_le_pow_right (by decide) hle)
  rw [Nat.div_lt_iff_lt_mul hd, Nat.pow_add] at hlog
  calc m
    _ < 2 ^ (f.mantissaBits + 1) * 2 ^ e * d := hlog
    _ = 2 ^ (f.mantissaBits + 1) * (d * 2 ^ e) := by ring

theorem le_of_dropped_pos (hd : 0 < d) (hk : 0 < f.dropped m d) :
    2 ^ f.mantissaBits * (d * 2 ^ f.dropped m d) ≤ m := by
  have hlog : 2 ^ (f.mantissaBits + f.dropped m d) ≤ m / d := by
    have hne : m / d ≠ 0 := by
      intro hzero
      simp [dropped, hzero] at hk
    have hle := Nat.log2_self_le hne
    unfold dropped at hk ⊢
    rwa [Nat.add_sub_cancel' (by omega)]
  rw [Nat.le_div_iff_mul_le hd, Nat.pow_add] at hlog
  calc 2 ^ f.mantissaBits * (d * 2 ^ f.dropped m d)
    _ = 2 ^ f.mantissaBits * 2 ^ f.dropped m d * d := by ring
    _ ≤ m := hlog

theorem dropped_mono (h : m ≤ n) : f.dropped m d ≤ f.dropped n d := by
  have hle : m / d ≤ n / d := Nat.div_le_div_right h
  have hlog : (m / d).log2 ≤ (n / d).log2 := by
    by_cases hzero : m / d = 0
    case pos => simp [hzero]
    case neg =>
      have hpos : 0 < n / d := Nat.lt_of_lt_of_le (Nat.pos_of_ne_zero hzero) hle
      rw [Nat.le_log2 (Nat.ne_of_gt hpos)]
      exact Nat.le_trans (Nat.log2_self_le hzero) hle
  unfold dropped
  omega

-- Rounding can carry to one bit more, and takes none away.
theorem roundHalfEven_dropped_le (hd : 0 < d) (hk : f.dropped m d ≤ e) :
    roundHalfEven m (d * 2 ^ e) ≤ 2 ^ (f.mantissaBits + 1) := by
  have hpos : 0 < d * 2 ^ e := Nat.mul_pos hd (Nat.two_pow_pos e)
  rw [← roundHalfEven_mul (c := 2 ^ (f.mantissaBits + 1)) hpos]
  exact roundHalfEven_mono _ (Nat.le_of_lt (lt_of_dropped hd hk))

theorem le_roundHalfEven_dropped (hd : 0 < d) (hk : 0 < f.dropped m d) :
    2 ^ f.mantissaBits ≤ roundHalfEven m (d * 2 ^ f.dropped m d) := by
  have hpos : 0 < d * 2 ^ f.dropped m d := Nat.mul_pos hd (Nat.two_pow_pos _)
  rw [← roundHalfEven_mul (c := 2 ^ f.mantissaBits) hpos]
  exact roundHalfEven_mono _ (le_of_dropped_pos hd hk)

-- Rounding a ratio keeps the order of numerators.
theorem nearest_mono (f : Format) (hd : 0 < d) (h : m ≤ n) : f.nearest m d ≤ f.nearest n d := by
  rw [nearest_eq, nearest_eq]
  refine min_le_min ?_ (Nat.le_refl _)
  have hk := dropped_mono (f := f) (d := d) h
  generalize hi : f.dropped m d = i at hk
  generalize hj : f.dropped n d = j at hk
  cases Nat.eq_or_lt_of_le hk
  case inl heq =>
    subst heq
    exact Nat.add_le_add_right (roundHalfEven_mono _ h) _
  case inr hlt =>
    -- The larger one has at least the exponent that the smaller one can be rounded up to.
    have hupper := roundHalfEven_dropped_le hd (Nat.le_of_eq hi)
    have hlower := le_roundHalfEven_dropped (f := f) (m := n) hd (by omega)
    rw [hj] at hlower
    have hexponent : (i + 1) * 2 ^ f.mantissaBits ≤ j * 2 ^ f.mantissaBits :=
      Nat.mul_le_mul_right _ hlt
    rw [Nat.add_mul] at hexponent
    rw [Nat.pow_succ] at hupper
    omega

-- A number of the format is its own nearest.
theorem nearest_units (f : Format) (hd : 0 < d) (m : Nat) :
    f.nearest (f.units m * d) d = min m f.infinity := by
  rw [nearest_eq, dropped, Nat.mul_div_cancel _ hd]
  congr 1
  rcases f.magnitude_cases m with hm | ⟨e, r, hr, rfl⟩
  · have hlog : m.log2 - f.mantissaBits = 0 := by
      by_cases hzero : m = 0
      case pos => simp [hzero]
      case neg =>
        have := (Nat.log2_lt hzero).mpr hm
        omega
    rw [units_of_lt hm, hlog, Nat.pow_zero, Nat.mul_one, roundHalfEven_mul hd]
    omega
  · have hlog : ((2 ^ f.mantissaBits + r) * 2 ^ e).log2 = f.mantissaBits + e := by
      have hpos : (2 ^ f.mantissaBits + r) * 2 ^ e ≠ 0 :=
        Nat.mul_ne_zero (by have := Nat.two_pow_pos f.mantissaBits; omega)
          (Nat.ne_of_gt (Nat.two_pow_pos e))
      rw [Nat.log2_eq_iff hpos]
      constructor
      · rw [Nat.pow_add]
        exact Nat.mul_le_mul_right _ (Nat.le_add_right _ _)
      · rw [Nat.add_right_comm, Nat.pow_add, Nat.pow_succ]
        exact Nat.mul_lt_mul_of_pos_right (by omega) (Nat.two_pow_pos e)
    have hround : (2 ^ f.mantissaBits + r) * 2 ^ e * d =
        (2 ^ f.mantissaBits + r) * (d * 2 ^ e) := by ring
    rw [units_of_exponent hr, hlog, Nat.add_sub_cancel_left, hround,
      roundHalfEven_mul (Nat.mul_pos hd (Nat.two_pow_pos e)), Nat.add_mul]
    omega

-- What is a mantissa wide, or the next power of two, stands `e` exponents up for as much as it is
-- worth behind `e` more bits.
theorem units_shifted (hr : r ≤ 2 ^ (f.mantissaBits + 1)) (he : e = 0 ∨ 2 ^ f.mantissaBits ≤ r) :
    f.units (r + e * 2 ^ f.mantissaBits) = r * 2 ^ e := by
  rw [Nat.pow_succ] at hr
  by_cases hlt : r < 2 ^ f.mantissaBits
  case pos =>
    obtain rfl : e = 0 := by omega
    rw [Nat.zero_mul, Nat.pow_zero, Nat.mul_one, Nat.add_zero, units_of_lt hlt]
  case neg =>
    obtain ⟨s, rfl⟩ := Nat.exists_eq_add_of_le (Nat.not_lt.mp hlt)
    by_cases hs : s < 2 ^ f.mantissaBits
    case pos =>
      rw [← units_of_exponent hs]
      congr 1
      ring
    case neg =>
      obtain rfl : s = 2 ^ f.mantissaBits := by omega
      have hcarry := units_of_exponent (f := f) (e := e + 1) (Nat.two_pow_pos f.mantissaBits)
      calc f.units (2 ^ f.mantissaBits + 2 ^ f.mantissaBits + e * 2 ^ f.mantissaBits)
        _ = f.units ((e + 1 + 1) * 2 ^ f.mantissaBits + 0) := by congr 1; ring
        _ = (2 ^ f.mantissaBits + 0) * 2 ^ (e + 1) := hcarry
        _ = (2 ^ f.mantissaBits + 2 ^ f.mantissaBits) * 2 ^ e := by ring

-- A ratio is as far as half of the dropped bits from what it is rounded to.
theorem nearest_within (hd : 0 < d) (h : f.nearest m d < f.infinity) :
    2 * (f.units (f.nearest m d) * d) ≤ 2 * m + d * 2 ^ f.dropped m d ∧
      2 * m ≤ 2 * (f.units (f.nearest m d) * d) + d * 2 ^ f.dropped m d := by
  have hunits : f.units (f.nearest m d) * d =
      roundHalfEven m (d * 2 ^ f.dropped m d) * (d * 2 ^ f.dropped m d) := by
    rw [nearest_eq] at h ⊢
    rw [Nat.min_eq_left (by omega), units_shifted (roundHalfEven_dropped_le hd (Nat.le_refl _))]
    · ring
    · rcases Nat.eq_zero_or_pos (f.dropped m d) with hk | hk
      · exact .inl hk
      · exact .inr (le_roundHalfEven_dropped hd hk)
  rw [hunits]
  exact roundHalfEven_within m (Nat.mul_pos hd (Nat.two_pow_pos _))

end Format
end GridPress.Binary

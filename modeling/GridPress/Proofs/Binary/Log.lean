import GridPress.Binary.Log
import GridPress.Proofs.Binary.Order

namespace GridPress.Double

open Binary (Format)

variable {x : Double} {b : Nat}

theorem exponent_le_ceilLog2 (x : Double) : x.magnitude / 2 ^ 52 - 1023 ≤ x.ceilLog2 := by
  unfold ceilLog2 logParts
  dsimp only
  split <;> omega

theorem scaled_lt_of_ceilLog2_le (h : x.ceilLog2 ≤ b) :
    x.scaled < (2 ^ (b + 1) * Format.double.one : Nat) := by
  have hexponent := Nat.le_trans x.exponent_le_ceilLog2 h
  have hmagnitude : x.magnitude < (1023 + b + 1) * 2 ^ 52 := by omega
  obtain ⟨i, hi⟩ : ∃ i, i = 1023 + b := ⟨_, rfl⟩
  have hpow : 2 ^ (52 + i) = 2 ^ (b + 1) * Format.double.one := by
    obtain ⟨e, he⟩ : ∃ e, e = 1074 := ⟨_, rfl⟩
    rw [← two_pow_eq_one he, ← Nat.pow_add]
    congr 1
    omega
  rw [← hi] at hmagnitude
  have hunits : Format.double.units x.magnitude < 2 ^ (b + 1) * Format.double.one := by
    calc Format.double.units x.magnitude
      _ < Format.double.units ((i + 1) * 2 ^ 52) := Format.double.units_strictMono hmagnitude
      _ = 2 ^ 52 * 2 ^ i := Format.double.units_succ_mul i
      _ = 2 ^ (b + 1) * Format.double.one := by rw [← Nat.pow_add, hpow]
  calc x.scaled
    _ ≤ (x.scaled.natAbs : Int) := Int.le_natAbs
    _ = (Format.double.units x.magnitude : Int) := by rw [natAbs_scaled]
    _ < (2 ^ (b + 1) * Format.double.one : Nat) := Int.ofNat_lt.mpr hunits

theorem logSlack_le {p : Nat} (hp : p ≤ 4) : logSlack p ≤ 11 := by
  have hall : ∀ p < 5, logSlack p ≤ 11 := by decide
  exact hall p (Nat.lt_succ_of_le hp)

theorem lt_ceilLog2_of_magnitude (hb : b < 48)
    (h : (1022 + b + 1) * 2 ^ 52 + 2 ^ (51 - b) ≤ x.magnitude) : b < x.ceilLog2 := by
  have hexponent : b ≤ x.magnitude / 2 ^ 52 - 1023 := by
    have hle : 1022 + b + 1 ≤ x.magnitude / 2 ^ 52 := by
      rw [Nat.le_div_iff_mul_le (Nat.two_pow_pos 52)]
      exact Nat.le_trans (Nat.le_add_right _ _) h
    omega
  cases Nat.lt_or_eq_of_le hexponent
  case inl hlt => exact Nat.lt_of_lt_of_le hlt x.exponent_le_ceilLog2
  case inr heq =>
    -- The excess is above the slack, so the logarithm does not count as the power itself.
    have hexcess : 2 ^ 4 ≤ 2 ^ (51 - b) := Nat.pow_le_pow_right (by decide) (by omega)
    have hlog : b.log2 - 1 ≤ 4 := by
      by_cases hzero : b = 0
      case pos => simp [hzero]
      case neg =>
        have := (Nat.log2_lt hzero (k := 6)).mpr (by omega)
        omega
    have hslack := logSlack_le hlog
    have hnot : ¬(x.magnitude % 2 ^ 52 = 0 ∨
        (2 ≤ b ∧ x.magnitude % 2 ^ 52 ≤ logSlack (b.log2 - 1))) := by omega
    unfold ceilLog2 logParts
    dsimp only
    rw [← heq, if_neg hnot]
    exact Nat.lt_succ_self b

theorem lt_ceilLog2 (hb : b < 48)
    (h : ((2 ^ (b + 1) + 1) * Format.double.one : Nat) ≤ 2 * x.scaled) : b < x.ceilLog2 := by
  apply lt_ceilLog2_of_magnitude hb
  obtain ⟨i, hi⟩ : ∃ i, i = 1022 + b := ⟨_, rfl⟩
  rw [← hi]
  have hr : 2 ^ (51 - b) < 2 ^ 52 := Nat.pow_lt_pow_right (by decide) (by omega)
  have hmantissa : 2 ^ (b + 1) * 2 ^ (51 - b) = 2 ^ 52 := by
    rw [← Nat.pow_add]
    congr 1
    omega
  have hone : 2 * (2 ^ (51 - b) * 2 ^ (i)) = Format.double.one := by
    rw [← Nat.pow_add, ← Nat.pow_succ']
    exact two_pow_eq_one (by omega)
  have hunits : 2 * Format.double.units ((i + 1) * 2 ^ 52 + 2 ^ (51 - b)) =
      (2 ^ (b + 1) + 1) * Format.double.one := by
    calc 2 * Format.double.units ((i + 1) * 2 ^ 52 + 2 ^ (51 - b))
      _ = 2 * ((2 ^ 52 + 2 ^ (51 - b)) * 2 ^ (i)) :=
        congrArg (2 * ·) (Format.units_of_exponent (f := Format.double) hr)
      _ = 2 * ((2 ^ (b + 1) * 2 ^ (51 - b) + 2 ^ (51 - b)) * 2 ^ (i)) := by rw [hmantissa]
      _ = (2 ^ (b + 1) + 1) * (2 * (2 ^ (51 - b) * 2 ^ (i))) := by ring
      _ = (2 ^ (b + 1) + 1) * Format.double.one := by rw [hone]
  rw [← hunits] at h
  have hle : Format.double.units ((i + 1) * 2 ^ 52 + 2 ^ (51 - b)) ≤
      Format.double.units x.magnitude := by
    have hscaled := x.natAbs_scaled
    generalize Format.double.units ((i + 1) * 2 ^ 52 + 2 ^ (51 - b)) = u at *
    omega
  exact Format.double.units_strictMono.le_iff_le.mp hle

end GridPress.Double

import GridPress.Binary.Format
import Mathlib.Order.Monotone.Basic
import Mathlib.Algebra.Order.Ring.Nat
import Mathlib.Tactic.Ring

namespace GridPress.Binary

section Field

variable {a b m n : Nat}

theorem field_div (hb : b < 2 ^ n) : (a * 2 ^ n + b) / 2 ^ n = a := by
  rw [Nat.mul_comm, Nat.mul_add_div (Nat.two_pow_pos n), Nat.div_eq_of_lt hb, Nat.add_zero]

theorem field_mod (hb : b < 2 ^ n) : (a * 2 ^ n + b) % 2 ^ n = b := by
  rw [Nat.mul_comm, Nat.mul_add_mod, Nat.mod_eq_of_lt hb]

theorem field_lt (ha : a < 2 ^ m) (hb : b < 2 ^ n) : a * 2 ^ n + b < 2 ^ (m + n) := by
  calc a * 2 ^ n + b
    _ < (a + 1) * 2 ^ n := by
      rw [Nat.add_mul, Nat.one_mul]
      exact Nat.add_lt_add_left hb _
    _ ≤ 2 ^ m * 2 ^ n := Nat.mul_le_mul_right _ ha
    _ = 2 ^ (m + n) := (Nat.pow_add 2 m n).symm

end Field

namespace Format

variable {f : Format} {m w e r : Nat}

theorem signWeight_pos (f : Format) : 0 < f.signWeight :=
  Nat.two_pow_pos _

theorem magnitude_lt (f : Format) (w : Nat) : f.magnitude w < f.signWeight :=
  Nat.mod_lt _ f.signWeight_pos

theorem signed_lt (s : Bool) (hm : m < f.signWeight) : f.signed s m < 2 * f.signWeight := by
  unfold signed
  split <;> omega

theorem magnitude_signed (s : Bool) (hm : m < f.signWeight) : f.magnitude (f.signed s m) = m := by
  unfold magnitude signed
  split
  case isTrue => rw [Nat.add_mod_left, Nat.mod_eq_of_lt hm]
  case isFalse => exact Nat.mod_eq_of_lt hm

theorem negative_signed (s : Bool) (hm : m < f.signWeight) : f.negative (f.signed s m) = s := by
  unfold negative signed
  cases s
  case true =>
    rw [if_pos rfl, Nat.add_div_left _ f.signWeight_pos, Nat.div_eq_of_lt hm]
    rfl
  case false =>
    rw [if_neg Bool.false_ne_true, Nat.div_eq_of_lt hm]
    rfl

theorem signed_parts (hw : w < 2 * f.signWeight) : f.signed (f.negative w) (f.magnitude w) = w := by
  by_cases hlt : w < f.signWeight
  case pos =>
    have hdiv : w / f.signWeight = 0 := Nat.div_eq_of_lt hlt
    simp [signed, negative, magnitude, hdiv, Nat.mod_eq_of_lt hlt]
  case neg =>
    have hle := Nat.not_lt.mp hlt
    have hdiv : w / f.signWeight = 1 := Nat.div_eq_of_lt_le (by omega) (by omega)
    have hmod : w % f.signWeight = w - f.signWeight := by
      rw [Nat.mod_eq_sub_mod hle, Nat.mod_eq_of_lt (by omega)]
    simp [signed, negative, magnitude, hdiv, hmod]
    omega

-- Parts that a word of the format has room for.
structure Holds (f : Format) (x : Fields) : Prop where
  sign     : x.sign < 2
  exponent : x.exponent < 2 ^ f.exponentBits
  mantissa : x.mantissa < 2 ^ f.mantissaBits

theorem holds_split (f : Format) (w : Nat) : f.Holds (f.split w) where
  sign     := Nat.mod_lt _ (by decide)
  exponent := Nat.mod_lt _ (Nat.two_pow_pos _)
  mantissa := Nat.mod_lt _ (Nat.two_pow_pos _)

theorem exponent_split_le (f : Format) (w : Nat) : (f.split w).exponent ≤ f.exponentMax :=
  Nat.le_sub_one_of_lt (f.holds_split w).exponent

theorem join_eq {x : Fields} (h : f.Holds x) :
    f.join x = x.sign * f.signWeight + (x.exponent * 2 ^ f.mantissaBits + x.mantissa) := by
  rw [join, Nat.mod_eq_of_lt h.sign, Nat.mod_eq_of_lt h.exponent, Nat.mod_eq_of_lt h.mantissa]

-- The exponent and the mantissa stay below the sign.
theorem magnitude_lt_of_holds {x : Fields} (h : f.Holds x) :
    x.exponent * 2 ^ f.mantissaBits + x.mantissa < f.signWeight := by
  rw [signWeight, Nat.add_comm f.mantissaBits]
  exact field_lt h.exponent h.mantissa

theorem join_lt {x : Fields} (h : f.Holds x) : f.join x < 2 * f.signWeight := by
  have hsign : x.sign * f.signWeight ≤ 1 * f.signWeight :=
    Nat.mul_le_mul_right _ (Nat.le_of_lt_succ h.sign)
  have hmagnitude := magnitude_lt_of_holds h
  rw [join_eq h]
  omega

theorem split_join {x : Fields} (h : f.Holds x) : f.split (f.join x) = x := by
  have hlow : f.join x =
      (x.sign * 2 ^ f.exponentBits + x.exponent) * 2 ^ f.mantissaBits + x.mantissa := by
    rw [join_eq h, signWeight]
    ring
  have hsign : f.join x / f.signWeight % 2 = x.sign := by
    rw [join_eq h, signWeight, field_div (magnitude_lt_of_holds h), Nat.mod_eq_of_lt h.sign]
  have hexponent : f.join x / 2 ^ f.mantissaBits % 2 ^ f.exponentBits = x.exponent := by
    rw [hlow, field_div h.mantissa, field_mod h.exponent]
  have hmantissa : f.join x % 2 ^ f.mantissaBits = x.mantissa := by
    rw [hlow, field_mod h.mantissa]
  rw [split, hsign, hexponent, hmantissa]

theorem negative_eq (f : Format) (w : Nat) : f.negative w = ((f.split w).sign == 1) := rfl

theorem magnitude_eq (f : Format) (w : Nat) :
    f.magnitude w = (f.split w).exponent * 2 ^ f.mantissaBits + (f.split w).mantissa := by
  rw [magnitude, signWeight, Nat.pow_add, Nat.mod_mul, split]
  ring

theorem join_split (hw : w < 2 * f.signWeight) : f.join (f.split w) = w := by
  have hsign : w / f.signWeight % 2 = w / f.signWeight :=
    Nat.mod_eq_of_lt (Nat.div_lt_of_lt_mul (by omega))
  rw [join_eq (f.holds_split w), ← magnitude_eq, split, hsign]
  exact Nat.div_add_mod' w _

-- Below infinity are the magnitudes with an exponent below the largest.
theorem magnitude_lt_infinity_iff :
    f.magnitude w < f.infinity ↔ (f.split w).exponent < f.exponentMax := by
  have hmantissa := (f.holds_split w).mantissa
  rw [magnitude_eq, infinity]
  constructor
  case mp =>
    intro h
    exact Nat.lt_of_mul_lt_mul_right (Nat.lt_of_le_of_lt (Nat.le_add_right _ _) h)
  case mpr =>
    intro h
    have hnext := Nat.mul_le_mul_right (2 ^ f.mantissaBits) (Nat.succ_le_of_lt h)
    rw [Nat.succ_mul] at hnext
    omega

-- The others have the largest exponent.
theorem exponent_split_of_infinity_le (h : f.infinity ≤ f.magnitude w) :
    (f.split w).exponent = f.exponentMax :=
  Nat.le_antisymm (f.exponent_split_le w)
    (Nat.not_lt.mp (mt magnitude_lt_infinity_iff.mpr (Nat.not_lt.mpr h)))

theorem magnitude_of_infinity_le (h : f.infinity ≤ f.magnitude w) :
    f.magnitude w = f.infinity + (f.split w).mantissa := by
  rw [magnitude_eq, exponent_split_of_infinity_le h, infinity]

theorem one_pos (f : Format) : 0 < f.one :=
  Nat.two_pow_pos _

-- A magnitude has the lowest exponent, or one above it.
theorem magnitude_cases (f : Format) (m : Nat) :
    m < 2 ^ f.mantissaBits ∨
      ∃ e r, r < 2 ^ f.mantissaBits ∧ m = (e + 1) * 2 ^ f.mantissaBits + r := by
  have hpos : 0 < 2 ^ f.mantissaBits := Nat.two_pow_pos _
  cases hq : m / 2 ^ f.mantissaBits
  case zero => exact .inl ((Nat.div_eq_zero_iff_lt hpos).mp hq)
  case succ e =>
    refine .inr ⟨e, m % 2 ^ f.mantissaBits, Nat.mod_lt _ hpos, ?_⟩
    rw [← hq]
    exact (Nat.div_add_mod' m _).symm

theorem units_of_lt (h : m < 2 ^ f.mantissaBits) : f.units m = m := by
  rw [units, if_pos (Nat.div_eq_of_lt h)]

theorem units_of_exponent (h : r < 2 ^ f.mantissaBits) :
    f.units ((e + 1) * 2 ^ f.mantissaBits + r) = (2 ^ f.mantissaBits + r) * 2 ^ e := by
  rw [units, field_div h, field_mod h, if_neg (Nat.succ_ne_zero e), Nat.add_sub_cancel]

theorem units_lt_units_succ (f : Format) (m : Nat) : f.units m < f.units (m + 1) := by
  rcases f.magnitude_cases m with hm | ⟨e, r, hr, rfl⟩
  · rw [units_of_lt hm]
    by_cases hlast : m + 1 < 2 ^ f.mantissaBits
    case pos => rw [units_of_lt hlast]; omega
    case neg =>
      have hnext : m + 1 = (0 + 1) * 2 ^ f.mantissaBits + 0 := by omega
      rw [hnext, units_of_exponent (Nat.two_pow_pos _)]
      omega
  · rw [units_of_exponent hr]
    by_cases hlast : r + 1 < 2 ^ f.mantissaBits
    case pos =>
      rw [Nat.add_assoc, units_of_exponent hlast]
      exact Nat.mul_lt_mul_of_pos_right (by omega) (Nat.two_pow_pos e)
    case neg =>
      have hnext : (e + 1) * 2 ^ f.mantissaBits + r + 1 =
          (e + 1 + 1) * 2 ^ f.mantissaBits + 0 := by
        rw [Nat.add_mul (e + 1)]
        omega
      rw [hnext, units_of_exponent (Nat.two_pow_pos _), Nat.pow_succ, Nat.add_zero,
        Nat.mul_comm _ 2, ← Nat.mul_assoc]
      exact Nat.mul_lt_mul_of_pos_right (by omega) (Nat.two_pow_pos e)

theorem units_strictMono (f : Format) : StrictMono f.units :=
  strictMono_nat_of_lt_succ f.units_lt_units_succ

-- Numbers with at most one bit more than the mantissa are numbers of the format, however far they
-- are shifted.
theorem exists_units_eq (f : Format) {q : Nat} (hq : q < 2 ^ (f.mantissaBits + 1)) (e : Nat) :
    ∃ m, f.units m = q * 2 ^ e := by
  have hsmall : ∀ q, q < 2 ^ (f.mantissaBits + 1) → ∃ m, f.units m = q := by
    intro q hq
    rw [Nat.pow_succ] at hq
    by_cases hlt : q < 2 ^ f.mantissaBits
    case pos => exact ⟨q, units_of_lt hlt⟩
    case neg =>
      refine ⟨(0 + 1) * 2 ^ f.mantissaBits + (q - 2 ^ f.mantissaBits), ?_⟩
      rw [units_of_exponent (by omega)]
      omega
  induction e
  case zero => simpa using hsmall q hq
  case succ e ih =>
    have ⟨m, hm⟩ := ih
    rcases f.magnitude_cases m with hlt | ⟨i, r, hr, rfl⟩
    · have hdouble : 2 * m < 2 ^ (f.mantissaBits + 1) := by
        rw [Nat.pow_succ]
        omega
      have ⟨m', hm'⟩ := hsmall _ hdouble
      rw [units_of_lt hlt] at hm
      exact ⟨m', by rw [hm', hm, Nat.pow_succ]; ring⟩
    · refine ⟨(i + 1 + 1) * 2 ^ f.mantissaBits + r, ?_⟩
      rw [units_of_exponent hr] at hm ⊢
      rw [Nat.pow_succ, Nat.pow_succ, ← Nat.mul_assoc, ← Nat.mul_assoc, hm]

theorem units_succ_mul (f : Format) (e : Nat) :
    f.units ((e + 1) * 2 ^ f.mantissaBits) = 2 ^ f.mantissaBits * 2 ^ e :=
  units_of_exponent (Nat.two_pow_pos _)

theorem units_infinity (f : Format) (h : 0 < f.exponentMax) :
    f.units f.infinity = 2 ^ f.mantissaBits * 2 ^ (f.exponentMax - 1) := by
  rw [← units_succ_mul, Nat.sub_add_cancel h]
  rfl

theorem exists_units_eq_of_le (f : Format) {q : Nat} (hq : q < 2 ^ (f.mantissaBits + 1))
    (he : e + 2 ≤ f.exponentMax) : ∃ m, m < f.infinity ∧ f.units m = q * 2 ^ e := by
  have ⟨m, hm⟩ := f.exists_units_eq hq e
  refine ⟨m, f.units_strictMono.lt_iff_lt.mp ?_, hm⟩
  calc f.units m
    _ = q * 2 ^ e := hm
    _ < 2 ^ (f.mantissaBits + 1) * 2 ^ e := Nat.mul_lt_mul_of_pos_right hq (Nat.two_pow_pos e)
    _ = 2 ^ (f.mantissaBits + (e + 1)) := by rw [← Nat.pow_add]; congr 1; omega
    _ ≤ 2 ^ (f.mantissaBits + (f.exponentMax - 1)) := Nat.pow_le_pow_right (by decide) (by omega)
    _ = f.units f.infinity := by rw [f.units_infinity (by omega), Nat.pow_add]

end Format
end GridPress.Binary

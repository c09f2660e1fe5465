import GridPress.Datatype
import GridPress.Proofs.Binary.Arithmetic

namespace GridPress.FloatKind

open Binary (Format)

variable {k : FloatKind} {w : Nat} {x : Double}

theorem two_pow_width (k : FloatKind) : 2 ^ k.datatype.width = 2 * k.format.signWeight := by
  cases k <;> rfl

theorem exists_unitRatio_eq : ∃ e, e ≤ 925 ∧ unitRatio = 2 ^ e := by
  have hle : 2 ^ (Format.single.exponentBits - 1) - 2 + Format.single.mantissaBits ≤
      2 ^ (Format.double.exponentBits - 1) - 2 + Format.double.mantissaBits := by decide
  unfold unitRatio Format.one
  rw [Nat.pow_div hle Nat.two_pos]
  exact ⟨_, by decide, rfl⟩

theorem unitRatio_pos : 0 < unitRatio := by
  have ⟨e, _, he⟩ := exists_unitRatio_eq
  exact he ▸ Nat.two_pow_pos e

theorem magnitude_lt_of_single (w : Nat) : Format.single.magnitude w < 2 ^ 31 :=
  Format.single.magnitude_lt w

-- Every finite single is a double.
theorem exists_units_of_single {m : Nat} (hm : m < Format.single.infinity) :
    ∃ n, n < Format.double.infinity ∧
      Format.double.units n = Format.single.units m * unitRatio := by
  have ⟨i, hi, hratio⟩ := exists_unitRatio_eq
  rw [hratio]
  have hmax : Format.double.exponentMax = 2047 := rfl
  rcases Format.single.magnitude_cases m with hlt | ⟨e, r, hr, rfl⟩
  · rw [Format.units_of_lt hlt]
    exact Format.double.exists_units_eq_of_le (Nat.lt_trans hlt (by decide)) (by omega)
  · have he : e + i + 2 ≤ Format.double.exponentMax := by
      have hinfinity : Format.single.infinity = 255 * 2 ^ 23 := rfl
      have hmantissa : Format.single.mantissaBits = 23 := rfl
      rw [hinfinity, hmantissa] at hm
      omega
    have hq : 2 ^ Format.single.mantissaBits + r < 2 ^ (Format.double.mantissaBits + 1) :=
      Nat.lt_trans (Nat.add_lt_add_left hr _) (by decide)
    rw [Format.units_of_exponent hr, Nat.mul_assoc, ← Nat.pow_add]
    exact Format.double.exists_units_eq_of_le hq he

theorem narrow_widen (hw : w < 2 ^ 32) (hm : Format.single.magnitude w ≤ Format.single.infinity) :
    narrow (widen w) = w := by
  have hparts : Format.single.signed (Format.single.negative w) (Format.single.magnitude w) = w :=
    Format.signed_parts hw
  unfold widen
  by_cases hfinite : Format.single.magnitude w < Format.single.infinity
  case pos =>
    have ⟨n, hn, hunits⟩ := exists_units_of_single hfinite
    have hlt := Nat.lt_trans hn Double.infinity_lt
    simp only [if_pos hfinite]
    rw [← hunits, Double.ofUnits_units _ hn, narrow,
      Double.value_of_isFinite (Double.isFinite_ofParts _ hn), Double.negative_ofParts _ hlt,
      Double.magnitude_ofParts _ hlt, hunits]
    simp only [Format.single.nearest_units unitRatio_pos, Nat.min_eq_left hm]
    exact hparts
  case neg =>
    have heq : Format.single.magnitude w = Format.single.infinity := by omega
    simp only [if_neg hfinite, if_pos heq]
    refine Eq.trans ?_ (heq ▸ hparts)
    cases Format.single.negative w <;> decide

theorem magnitude_le_of_widen (h : (widen w).isNaN = false) :
    Format.single.magnitude w ≤ Format.single.infinity := by
  by_contra hgt
  have hlt : ¬Format.single.magnitude w < Format.single.infinity := by omega
  have hne : ¬Format.single.magnitude w = Format.single.infinity := by omega
  have hpayload : Format.double.infinity < Format.double.infinity +
      (Format.single.magnitude w - Format.single.infinity) * 2 ^ mantissaGap :=
    Nat.lt_add_of_pos_right
      (Nat.mul_pos (Nat.sub_pos_of_lt (Nat.not_le.mp hgt)) (Nat.two_pow_pos _))
  have hfits : Format.double.infinity +
      (Format.single.magnitude w - Format.single.infinity) * 2 ^ mantissaGap < 2 ^ 63 := by
    have := magnitude_lt_of_single w
    have hgap : mantissaGap = 29 := rfl
    have hsingle : Format.single.infinity = 255 * 2 ^ 23 := rfl
    have hdouble : Format.double.infinity = 2047 * 2 ^ 52 := rfl
    rw [hgap, hsingle, hdouble]
    omega
  have hnan : (widen w).isNaN = true := by
    rw [widen, if_neg hlt, if_neg hne]
    refine Double.isNaN_quiet (Double.isNaN_iff.mpr ?_)
    rw [Double.magnitude_ofParts _ hfits]
    exact hpayload
  rw [hnan] at h
  contradiction

-- A word that stands for a number comes back.
theorem ofDouble_toDouble (hw : w < 2 ^ k.datatype.width) (h : (k.toDouble w).isNaN = false) :
    k.ofDouble (k.toDouble w) = w := by
  cases k
  case single => exact narrow_widen hw (magnitude_le_of_widen h)
  case double =>
    simp only [ofDouble, toDouble, Double.toWord, Double.ofWord, UInt64.toNat_ofNat']
    exact Nat.mod_eq_of_lt hw

theorem ofDouble_lt (k : FloatKind) (x : Double) : k.ofDouble x < 2 ^ k.datatype.width := by
  cases k
  case double => exact x.word.toNat_lt
  case single =>
    have hnearest : ∀ n, Format.single.nearest n unitRatio ≤ Format.single.infinity :=
      fun n => Nat.min_le_right _ _
    have hinfinity : Format.single.infinity < Format.single.signWeight := by decide
    change narrow x < 2 * Format.single.signWeight
    unfold narrow
    split
    · exact Format.signed_lt _ (Nat.lt_of_le_of_lt (hnearest _) hinfinity)
    · exact Format.signed_lt _ hinfinity
    · refine Format.signed_lt _ ?_
      have hpayload :
          (x.magnitude - Format.double.infinity) / 2 ^ mantissaGap ||| 2 ^ 22 < 2 ^ 23 := by
        refine Nat.or_lt_two_pow ?_ (by decide)
        have := x.magnitude_lt
        have hgap : mantissaGap = 29 := rfl
        have hdouble : Format.double.infinity = 2047 * 2 ^ 52 := rfl
        rw [hgap, hdouble]
        omega
      have hsingle : Format.single.infinity = 255 * 2 ^ 23 := rfl
      have hweight : Format.single.signWeight = 2 ^ 31 := rfl
      simp only [hsingle, hweight]
      omega

-- A double that equals an element still equals it as an element.
theorem equal_of_equal (hw : w < 2 ^ k.datatype.width) (h : (k.toDouble w).equal x = true) :
    (k.toDouble (k.ofDouble x)).equal x = true := by
  have ⟨hnan, hx, hplace⟩ := Double.equal_iff.mp h
  by_cases hzero : x.place = 0
  case pos =>
    obtain ⟨s, rfl⟩ := Double.eq_zero_of_place hzero
    cases k <;> cases s <;> decide +kernel
  case neg =>
    have heq : k.toDouble w = x := Double.eq_of_place_eq hplace (hplace ▸ hzero)
    rw [← heq, ofDouble_toDouble hw hnan, heq]
    exact Double.equal_iff.mpr ⟨hx, hx, rfl⟩

end GridPress.FloatKind

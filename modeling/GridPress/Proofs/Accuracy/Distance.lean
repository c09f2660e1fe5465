import GridPress.Proofs.Accuracy.Bits
import Mathlib.Algebra.Order.Field.Basic
import Mathlib.Algebra.Order.Field.Power
import Mathlib.Algebra.Order.Field.Rat
import Mathlib.Data.Nat.Dist
import Mathlib.Tactic.NormNum

namespace GridPress

namespace Binary

theorem cast_dist (a b : Nat) : (Nat.dist a b : ℚ) = |(a : ℚ) - b| := by
  rcases Nat.le_total a b with h | h
  · rw [Nat.dist_eq_sub_of_le h, Nat.cast_sub h, abs_sub_comm, abs_of_nonneg]
    exact sub_nonneg.mpr (Nat.cast_le.mpr h)
  · rw [Nat.dist_eq_sub_of_le_right h, Nat.cast_sub h, abs_of_nonneg]
    exact sub_nonneg.mpr (Nat.cast_le.mpr h)

namespace Format

variable {f : Format} {d e v w : Nat}

def bias (f : Format) : Nat :=
  2 ^ (f.exponentBits - 1) - 1

def unbiasedExponent (f : Format) (w : Nat) : ℤ :=
  (f.split w).exponent - f.bias

-- The number that a finite word stands for.
def toRat (f : Format) (w : Nat) : ℚ :=
  (if f.negative w then -1 else 1) * (f.units (f.magnitude w) / f.one)

structure IsNormal (f : Format) (w : Nat) : Prop where
  pos    : 0 < (f.split w).exponent
  finite : (f.split w).exponent < f.exponentMax

instance : Decidable (f.IsNormal w) :=
  decidable_of_iff (0 < (f.split w).exponent ∧ (f.split w).exponent < f.exponentMax)
    ⟨fun h => ⟨h.left, h.right⟩, fun h => ⟨h.pos, h.finite⟩⟩

-- The units in the last place of normal numbers with an exponent.
def lastPlace (e : Nat) : Nat :=
  2 ^ (e - 1)

theorem lastPlace_pos (e : Nat) : 0 < lastPlace e :=
  Nat.two_pow_pos _

theorem lastPlace_succ (he : 0 < e) : lastPlace (e + 1) = 2 * lastPlace e := by
  rw [lastPlace, lastPlace, ← Nat.pow_succ', Nat.sub_add_comm he]

theorem lastPlace_le (h : d ≤ e) : lastPlace d ≤ lastPlace e :=
  Nat.pow_le_pow_right (by decide) (Nat.sub_le_sub_right h 1)

-- The units that make up a normal number with these fields.
def normalUnits (f : Format) (x : Fields) : Nat :=
  (2 ^ f.mantissaBits + x.mantissa) * lastPlace x.exponent

theorem units_of_isNormal (hw : f.IsNormal w) :
    f.units (f.magnitude w) = f.normalUnits (f.split w) := by
  rw [magnitude_eq, ← Nat.sub_add_cancel hw.pos, units_of_exponent (f.holds_split w).mantissa]
  rfl

-- How far numbers of one sign are apart is told by their units.
theorem abs_toRat_sub (hsign : f.negative v = f.negative w) :
    |f.toRat v - f.toRat w| =
      (Nat.dist (f.units (f.magnitude v)) (f.units (f.magnitude w)) : ℚ) / f.one := by
  have hone : |(if f.negative w then -1 else 1 : ℚ)| = 1 := by
    split <;> norm_num
  rw [toRat, toRat, hsign, ← mul_sub, ← sub_div, abs_mul, abs_div, hone, one_mul, cast_dist,
    Nat.abs_cast]

theorem max_unbiasedExponent (f : Format) (v w : Nat) :
    max (f.unbiasedExponent v) (f.unbiasedExponent w) =
      (max (f.split v).exponent (f.split w).exponent : Nat) - (f.bias : ℤ) := by
  unfold unbiasedExponent
  omega

-- The weight of a place, counted from the last one.
theorem place_div_one {i : ℤ} (hf : 1 < f.exponentBits) (he : 0 < e) (n : Nat)
    (hi : i = e - f.bias - f.mantissaBits + n) :
    ((2 ^ n * lastPlace e : Nat) : ℚ) / f.one = 2 ^ i := by
  have hbias : 2 ^ 1 ≤ 2 ^ (f.exponentBits - 1) := Nat.pow_le_pow_right (by decide) (by omega)
  have hne : (f.one : ℚ) ≠ 0 := Nat.cast_ne_zero.mpr f.one_pos.ne'
  rw [div_eq_iff hne, one, lastPlace, ← Nat.pow_add, Nat.cast_pow, Nat.cast_pow, Nat.cast_ofNat,
    ← zpow_natCast, ← zpow_natCast, ← zpow_add₀ two_ne_zero]
  rw [bias] at hi
  congr 1
  omega

end Format
end Binary

namespace Accuracy

open Binary (Fields Format)
open Binary.Format (lastPlace lastPlace_pos)

variable {k : FloatKind} {f : Format} {d m v w : Nat} {x y : Fields}

theorem distance?_comm (m : Nat) (x y : Fields) : distance? m x y = distance? m y x := by
  unfold distance?
  by_cases hsign : x.sign = y.sign
  case neg => rw [if_pos hsign, if_pos (Ne.symm hsign)]
  case pos =>
    rw [if_neg (not_not_intro hsign), if_neg (not_not_intro hsign.symm)]
    by_cases heq : x.exponent = y.exponent
    case pos => rw [if_pos heq, if_pos heq.symm, Nat.add_comm]
    case neg =>
      rw [if_neg heq, if_neg (Ne.symm heq)]
      by_cases habove : x.exponent = y.exponent + 1
      case pos => rw [if_pos habove, if_neg (by omega), if_pos habove]
      case neg => rw [if_neg habove, if_neg habove]

theorem matchingBits_comm (k : FloatKind) (v w : Nat) :
    matchingBits k v w = matchingBits k w v := by
  rw [matchingBits_eq, matchingBits_eq, distance?_comm]

section Normal

variable (hx : x.mantissa < 2 ^ f.mantissaBits) (hy : y.mantissa < 2 ^ f.mantissaBits)

include hx

theorem normalUnits_lt {e : Nat} (he : x.exponent ≤ e) :
    f.normalUnits x < 2 ^ (f.mantissaBits + 1) * lastPlace e := by
  calc f.normalUnits x
    _ < 2 ^ (f.mantissaBits + 1) * lastPlace x.exponent :=
      Nat.mul_lt_mul_of_pos_right (by rw [Nat.pow_succ]; omega) (lastPlace_pos _)
    _ ≤ 2 ^ (f.mantissaBits + 1) * lastPlace e := Nat.mul_le_mul_left _ (Format.lastPlace_le he)

include hy

theorem dist_normalUnits_lt :
    Nat.dist (f.normalUnits x) (f.normalUnits y) <
      2 ^ (f.mantissaBits + 1) * lastPlace (max x.exponent y.exponent) := by
  have hltx := normalUnits_lt (f := f) hx (Nat.le_max_left x.exponent y.exponent)
  have hlty := normalUnits_lt (f := f) hy (Nat.le_max_right x.exponent y.exponent)
  unfold Nat.dist
  omega

end Normal

-- Of the distance of numbers with the same exponent, nothing is cut off.
theorem dist_of_exponent_eq (he : x.exponent = y.exponent) :
    Nat.dist (f.normalUnits x) (f.normalUnits y) / lastPlace x.exponent =
      x.mantissa - y.mantissa + (y.mantissa - x.mantissa) := by
  unfold Format.normalUnits
  rw [← he, Nat.dist_mul_right, Nat.dist_add_add_left, Nat.mul_div_cancel _ (lastPlace_pos _)]
  rfl

-- One exponent apart, the smaller number has a place that is cut off.
theorem dist_of_exponent_succ (hy : y.mantissa < 2 ^ f.mantissaBits) (hpos : 0 < y.exponent)
    (he : x.exponent = y.exponent + 1) :
    Nat.dist (f.normalUnits x) (f.normalUnits y) / lastPlace x.exponent =
      ((2 ^ f.mantissaBits + x.mantissa) * 2 - (2 ^ f.mantissaBits + y.mantissa)) / 2 := by
  unfold Format.normalUnits
  rw [he, Format.lastPlace_succ hpos, ← Nat.mul_assoc, Nat.dist_mul_right,
    Nat.mul_div_mul_right _ _ (lastPlace_pos _), Nat.dist_eq_sub_of_le_right (by omega)]

-- A distance that can be told is the true one, in the last place of the larger number.
theorem dist_of_distance? (hx : x.mantissa < 2 ^ f.mantissaBits)
    (hy : y.mantissa < 2 ^ f.mantissaBits) (hxpos : 0 < x.exponent) (hypos : 0 < y.exponent)
    (h : distance? f.mantissaBits x y = some d) :
    Nat.dist (f.normalUnits x) (f.normalUnits y) / lastPlace (max x.exponent y.exponent) = d := by
  unfold distance? at h
  split at h
  case isTrue => contradiction
  case isFalse =>
    split at h
    case isTrue heq =>
      rw [Nat.max_eq_left heq.ge, dist_of_exponent_eq heq]
      exact Option.some.inj h
    case isFalse =>
      split at h
      case isTrue habove =>
        rw [Nat.max_eq_left (by omega), dist_of_exponent_succ hy hypos habove]
        exact Option.some.inj h
      case isFalse =>
        split at h
        case isTrue hbelow =>
          rw [Nat.max_eq_right (by omega), Nat.dist_comm, dist_of_exponent_succ hx hxpos hbelow]
          exact Option.some.inj h
        case isFalse => contradiction

theorem sharedBits_le (m : Nat) : ∀ d?, sharedBits m d? ≤ m
  | none => Nat.zero_le m
  | some 0 => Nat.le_refl m
  | some (_ + 1) => Nat.sub_le m _

theorem sharedBits_succ (m d : Nat) : sharedBits m (some (d + 1)) = m - (d + 1).log2 := rfl

-- The first bit of the distance is right behind those that are shared.
theorem sharedBits_between (hd : d < 2 ^ (m + 1)) :
    d < 2 ^ (m + 1 - sharedBits m (some d)) ∧
      (sharedBits m (some d) < m → 2 ^ (m - sharedBits m (some d)) ≤ d) := by
  cases d
  case zero => exact ⟨Nat.two_pow_pos _, fun h => absurd h (Nat.lt_irrefl m)⟩
  case succ d =>
    have hlog : (d + 1).log2 < m + 1 := (Nat.log2_lt (Nat.succ_ne_zero d)).mpr hd
    have hplace : m - (m - (d + 1).log2) = (d + 1).log2 := by omega
    have hnext : m + 1 - (m - (d + 1).log2) = (d + 1).log2 + 1 := by omega
    rw [sharedBits_succ, hplace, hnext]
    exact ⟨Nat.lt_log2_self, fun _ => Nat.log2_self_le (Nat.succ_ne_zero d)⟩

-- The distance in units is between the place of the last bit that is shared and the next one.
theorem dist_between (hv : k.format.IsNormal v) (hw : k.format.IsNormal w) :
    let n := matchingBits k v w
    let place := lastPlace (max (k.format.split v).exponent (k.format.split w).exponent)
    let units := Nat.dist (k.format.units (k.format.magnitude v))
      (k.format.units (k.format.magnitude w))
    units < 2 ^ (k.format.mantissaBits + 1 - n) * place ∧
      (0 < n → n < k.format.mantissaBits → 2 ^ (k.format.mantissaBits - n) * place ≤ units) := by
  have hmv := (k.format.holds_split v).mantissa
  have hmw := (k.format.holds_split w).mantissa
  rw [Format.units_of_isNormal hv, Format.units_of_isNormal hw, matchingBits_eq]
  intro n place units
  have hplace : 0 < place := lastPlace_pos _
  have hlt : units < 2 ^ (k.format.mantissaBits + 1) * place := dist_normalUnits_lt hmv hmw
  cases hd : distance? k.format.mantissaBits (k.format.split v) (k.format.split w)
  case none =>
    have hn : n = sharedBits k.format.mantissaBits none :=
      congrArg (sharedBits k.format.mantissaBits) hd
    rw [hn]
    exact ⟨hlt, fun hpos => absurd hpos (Nat.lt_irrefl 0)⟩
  case some d =>
    have hn : n = sharedBits k.format.mantissaBits (some d) :=
      congrArg (sharedBits k.format.mantissaBits) hd
    obtain rfl : units / place = d := dist_of_distance? hmv hmw hv.pos hw.pos hd
    have ⟨hupper, hlower⟩ := sharedBits_between ((Nat.div_lt_iff_lt_mul hplace).mpr hlt)
    rw [← hn] at hupper hlower
    exact ⟨(Nat.div_lt_iff_lt_mul hplace).mp hupper,
      fun _ hshared => (Nat.le_div_iff_mul_le hplace).mp (hlower hshared)⟩

-- The bits that normal numbers of one sign share tell how far they are apart.
theorem matchingBits_measures (hv : k.format.IsNormal v) (hw : k.format.IsNormal w)
    (hsign : k.format.negative v = k.format.negative w) :
    let n := matchingBits k v w
    let e := max (k.format.unbiasedExponent v) (k.format.unbiasedExponent w)
    let distance := |k.format.toRat v - k.format.toRat w|
    n = matchingBits k w v ∧ n ≤ k.format.mantissaBits ∧ distance < 2 ^ (e + 1 - n) ∧
      (0 < n → n < k.format.mantissaBits → 2 ^ (e - n) ≤ distance) := by
  intro n e distance
  have hn : n ≤ k.format.mantissaBits := sharedBits_le _ _
  have he : e = _ := k.format.max_unbiasedExponent v w
  have hdistance : distance = _ := Format.abs_toRat_sub hsign
  have hbits : 1 < k.format.exponentBits := by cases k <;> decide
  have hone : (0 : ℚ) < k.format.one := Nat.cast_pos.mpr k.format.one_pos
  have hpositive : 0 < max (k.format.split v).exponent (k.format.split w).exponent :=
    Nat.lt_of_lt_of_le hv.pos (Nat.le_max_left _ _)
  have ⟨hupper, hlower⟩ := dist_between hv hw
  rw [hdistance]
  refine ⟨matchingBits_comm k v w, hn, ?upper, fun hshared hlt => ?lower⟩
  case upper =>
    rw [← Format.place_div_one hbits hpositive (k.format.mantissaBits + 1 - n) (by omega)]
    exact div_lt_div_of_pos_right (Nat.cast_lt.mpr hupper) hone
  case lower =>
    rw [← Format.place_div_one hbits hpositive (k.format.mantissaBits - n) (by omega)]
    exact div_le_div_of_nonneg_right (Nat.cast_le.mpr (hlower hshared hlt)) hone.le

-- Two bits of 1.5 and 1.75 are shared, so they are less than a half and at least a quarter apart.
theorem matchingBits_measures_quarter :
    FloatKind.single.format.IsNormal 0x3fc00000 ∧ FloatKind.single.format.IsNormal 0x3fe00000 ∧
      matchingBits .single 0x3fc00000 0x3fe00000 = 2 ∧
      |FloatKind.single.format.toRat 0x3fc00000 - FloatKind.single.format.toRat 0x3fe00000| <
        1 / 2 ∧
      1 / 4 ≤
        |FloatKind.single.format.toRat 0x3fc00000 - FloatKind.single.format.toRat 0x3fe00000| := by
  have hv : FloatKind.single.format.IsNormal 0x3fc00000 := by decide
  have hw : FloatKind.single.format.IsNormal 0x3fe00000 := by decide
  have hn : matchingBits .single 0x3fc00000 0x3fe00000 = 2 := by decide
  have he : max (FloatKind.single.format.unbiasedExponent 0x3fc00000)
      (FloatKind.single.format.unbiasedExponent 0x3fe00000) = 0 := by decide
  have ⟨_, _, hupper, hlower⟩ := matchingBits_measures hv hw (by decide)
  rw [he, hn] at hupper hlower
  refine ⟨hv, hw, hn, hupper.trans_eq (by norm_num), ?_⟩
  exact (by norm_num : (1 / 4 : ℚ) = _).trans_le (hlower (by decide) (by decide))

end Accuracy
end GridPress

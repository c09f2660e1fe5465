import GridPress.Proofs.Binary.Arithmetic

namespace GridPress.Double

open Binary (Format)

variable {x y : Double} {i j : Int}

theorem signedUnits_natAbs (i : Int) : signedUnits (i < 0) i.natAbs = i := by
  unfold signedUnits
  simp only [decide_eq_true_eq]
  split <;> omega

theorem place_ofInt (i : Int) : (ofInt i).place = roundPlace (i * Format.double.one) 1 := by
  rw [ofInt, place_ofUnits_eq_roundPlace Nat.one_pos, signedUnits_mul, signedUnits_natAbs]

theorem ofInt_le_ofInt (h : i ≤ j) : ofInt i ≤ ofInt j := by
  rw [le_iff, place_ofInt, place_ofInt]
  exact ⟨isNaN_ofUnits _ _ _, isNaN_ofUnits _ _ _,
    roundPlace_mono Nat.one_pos (Int.mul_le_mul_of_nonneg_right h (Int.natCast_nonneg _))⟩

theorem ofInt_natCast (n : Nat) : ofInt n = ofNat n := by
  rw [ofInt, decide_eq_false (by omega), Int.natAbs_natCast, ofNat]

theorem ofNat_le_ofNat {m n : Nat} (h : m ≤ n) : ofNat m ≤ ofNat n := by
  rw [← ofInt_natCast, ← ofInt_natCast]
  exact ofInt_le_ofInt (Int.ofNat_le.mpr h)

theorem isFinite_ofInt (h : i.natAbs ≤ 2 ^ 63) : (ofInt i).isFinite = true := by
  have hleast : (ofInt (-2 ^ 63)).isFinite = true := by decide +kernel
  have hlargest : (ofInt (2 ^ 63)).isFinite = true := by decide +kernel
  exact isFinite_of_le hleast hlargest (ofInt_le_ofInt (by omega)) (ofInt_le_ofInt (by omega))

theorem isFinite_ofNat {n : Nat} (h : n ≤ 2 ^ 63) : (ofNat n).isFinite = true := by
  rw [← ofInt_natCast]
  exact isFinite_ofInt (by omega)

-- What a hundred, which turns a figure into percent, makes of the least and the largest figures.
theorem mul_hundred :
    zero < ofNat 100 ∧ zero * ofNat 100 = zero ∧ infinity * ofNat 100 = infinity := by
  decide +kernel

-- The units of a whole number are rounded without their sign.
theorem scaled_ofInt_eq (i : Int) :
    (ofInt i).scaled = signedUnits (i < 0)
      (Format.double.units (Format.double.nearest (i.natAbs * Format.double.one) 1)) := by
  have hlt : Format.double.nearest (i.natAbs * Format.double.one) 1 < 2 ^ 63 :=
    Nat.lt_of_le_of_lt (nearest_le _ _) infinity_lt
  rw [ofInt, ofUnits, scaled, negative_ofParts _ hlt, magnitude_ofParts _ hlt]

theorem natAbs_scaled_ofInt_sub (i : Int) :
    ((ofInt i).scaled - i * Format.double.one).natAbs =
      ((Format.double.units (Format.double.nearest (i.natAbs * Format.double.one) 1) : Int) -
        (i.natAbs * Format.double.one : Nat)).natAbs := by
  have hunits : i * Format.double.one = signedUnits (i < 0) (i.natAbs * Format.double.one) := by
    rw [signedUnits_mul, signedUnits_natAbs]
  rw [scaled_ofInt_eq, hunits]
  unfold signedUnits
  split <;> omega

-- Whole numbers of at most 53 bits are doubles, however many zeros stand behind them.
theorem scaled_ofInt {q e : Nat} (hq : q < 2 ^ 53) (he : e ≤ 971) (h : i.natAbs = q * 2 ^ e) :
    (ofInt i).scaled = i * Format.double.one := by
  obtain ⟨k, hk⟩ : ∃ k, k = 1074 := ⟨_, rfl⟩
  have hunits : ∃ m, m < Format.double.infinity ∧ Format.double.units m = q * 2 ^ (e + k) :=
    Format.double.exists_units_eq_of_le hq (show e + k + 2 ≤ 2047 by omega)
  have ⟨m, hlt, hm⟩ := hunits
  have hscaled : i.natAbs * Format.double.one = Format.double.units m * 1 := by
    rw [h, hm, Nat.pow_add, two_pow_eq_one hk, Nat.mul_one, Nat.mul_assoc]
  have hsub := natAbs_scaled_ofInt_sub i
  rw [hscaled, Format.double.nearest_units Nat.one_pos, Nat.min_eq_left (Nat.le_of_lt hlt)] at hsub
  omega

-- At most ten bits of a whole number of 63 bits are dropped.
theorem two_pow_dropped_le {n : Nat} (hn : n < 2 ^ 63) :
    2 ^ Format.double.dropped (n * Format.double.one) 1 ≤ 1024 * Format.double.one := by
  obtain ⟨k, hk⟩ : ∃ k, k = 1074 := ⟨_, rfl⟩
  have hone := two_pow_eq_one hk
  have hlog : (n * Format.double.one).log2 < 63 + k := by
    by_cases hzero : n * Format.double.one = 0
    case pos =>
      rw [hzero, Nat.log2_zero]
      omega
    case neg =>
      rw [Nat.log2_lt hzero, Nat.pow_add, hone]
      exact Nat.mul_lt_mul_of_pos_right hn (Nat.two_pow_pos _)
  have hbits : Format.double.mantissaBits = 52 := rfl
  calc 2 ^ Format.double.dropped (n * Format.double.one) 1
    _ ≤ 2 ^ (10 + k) := by
      rw [Format.dropped, Nat.div_one, hbits]
      exact Nat.pow_le_pow_right (by decide) (by omega)
    _ = 1024 * Format.double.one := by rw [Nat.pow_add, hone]

-- Rounding takes or adds at most half of what the dropped bits are worth.
theorem ofInt_within (h : i.natAbs ≤ 2 ^ 63) :
    ((ofInt i).scaled - i * Format.double.one).natAbs ≤ 512 * Format.double.one := by
  by_cases hlast : i.natAbs = 2 ^ 63
  case pos =>
    rw [scaled_ofInt (q := 1) (e := 63) (by decide) (by decide) (by omega), Int.sub_self]
    exact Nat.zero_le _
  case neg =>
    have hfinite : Format.double.nearest (i.natAbs * Format.double.one) 1 <
        Format.double.infinity := by
      have hplace := isFinite_iff_place.mp (isFinite_ofInt h)
      rw [ofInt, place_ofUnits] at hplace
      split at hplace <;> omega
    have hdropped := two_pow_dropped_le (n := i.natAbs) (by omega)
    have hwithin := Format.double.nearest_within Nat.one_pos hfinite
    rw [natAbs_scaled_ofInt_sub]
    omega

-- The three ways to round differ in what becomes of the units of a number that is not negative.
def wholeOf (round : Nat → Nat) (limit : Nat) (x : Double) : Nat :=
  match x.value with
  | .finite false m => Nat.min limit (round m)
  | .infinite false => limit
  | _ => 0

variable {round : Nat → Nat} (limit : Nat)

theorem wholeOf_of_negative (hx : x.isNaN = false) (h : x.negative = true) :
    wholeOf round limit x = 0 := by
  unfold wholeOf
  cases hfinite : x.isFinite
  case true => rw [value_of_isFinite hfinite, h]
  case false => rw [value_of_not_isFinite hx hfinite, h]

theorem wholeOf_of_isFinite (hx : x.isFinite = true) (h : x.negative = false) :
    wholeOf round limit x = Nat.min limit (round (Format.double.units x.magnitude)) := by
  rw [wholeOf, value_of_isFinite hx, h]

theorem wholeOf_of_not_isFinite (hx : x.isNaN = false) (hinfinite : x.isFinite = false)
    (h : x.negative = false) : wholeOf round limit x = limit := by
  rw [wholeOf, value_of_not_isFinite hx hinfinite, h]

theorem wholeOf_mono (hround : Monotone round) (hzero : round 0 = 0) (h : x ≤ y) :
    wholeOf round limit x ≤ wholeOf round limit y := by
  have ⟨hx, hy, hplace⟩ := le_iff.mp h
  unfold place at hplace
  cases hsx : x.negative <;> cases hsy : y.negative <;> rw [hsx, hsy] at hplace
  case true.false | true.true =>
    rw [wholeOf_of_negative limit hx hsx]
    exact Nat.zero_le _
  case false.true =>
    -- Zeros are all that is not negative and not above what is.
    have hmagnitude : x.magnitude = 0 := by
      simp only [Bool.false_eq_true, if_false, if_true] at hplace
      omega
    have hunits : Format.double.units 0 = 0 := rfl
    have hfinite : x.isFinite = true := by
      rw [isFinite_iff, hmagnitude]
      decide
    rw [wholeOf_of_isFinite limit hfinite hsx, hmagnitude, hunits, hzero]
    exact Nat.le_trans (Nat.min_le_right _ _) (Nat.zero_le _)
  case false.false =>
    have hmagnitude : x.magnitude ≤ y.magnitude := by simpa using hplace
    cases hfy : y.isFinite
    case false =>
      rw [wholeOf_of_not_isFinite limit hy hfy hsy]
      cases hfx : x.isFinite
      case false => exact Nat.le_of_eq (wholeOf_of_not_isFinite limit hx hfx hsx)
      case true =>
        rw [wholeOf_of_isFinite limit hfx hsx]
        exact Nat.min_le_left _ _
    case true =>
      have hfx : x.isFinite = true :=
        isFinite_iff.mpr (Nat.lt_of_le_of_lt hmagnitude (isFinite_iff.mp hfy))
      rw [wholeOf_of_isFinite limit hfx hsx, wholeOf_of_isFinite limit hfy hsy]
      exact min_le_min (Nat.le_refl _)
        (hround (Format.double.units_strictMono.monotone hmagnitude))

theorem roundToNat_mono (h : x ≤ y) : x.roundToNat limit ≤ y.roundToNat limit := by
  have hone := Format.double.one_pos
  have hzero : (2 * 0 + Format.double.one) / (2 * Format.double.one) = 0 :=
    Nat.div_eq_of_lt (by omega)
  exact wholeOf_mono limit (fun _ _ h => Nat.div_le_div_right (by omega)) hzero h

theorem floorToNat_mono (h : x ≤ y) : x.floorToNat limit ≤ y.floorToNat limit :=
  wholeOf_mono limit (fun _ _ h => Nat.div_le_div_right h) (Nat.zero_div _) h

theorem ceilToNat_mono (h : x ≤ y) : x.ceilToNat limit ≤ y.ceilToNat limit := by
  have hone := Format.double.one_pos
  have hzero : (0 + (Format.double.one - 1)) / Format.double.one = 0 :=
    Nat.div_eq_of_lt (by omega)
  exact wholeOf_mono limit (fun _ _ h => Nat.div_le_div_right (by omega)) hzero h

theorem roundToNat_eq (hx : x.isFinite = true) :
    x.roundToNat limit =
      Nat.min limit ((2 * x.scaled.toNat + Format.double.one) / (2 * Format.double.one)) := by
  have hone : 0 < Format.double.one := Format.double.one_pos
  rw [roundToNat, value_of_isFinite hx]
  unfold scaled signedUnits
  cases x.negative
  case false => rfl
  case true =>
    have hzero : (2 * 0 + Format.double.one) / (2 * Format.double.one) = 0 :=
      Nat.div_eq_of_lt (by omega)
    simp only [if_true, Int.toNat_neg_natCast, hzero]
    exact (Nat.min_zero limit).symm

-- Rounding adds at most one half.
theorem roundToNat_le (hx : x.isFinite = true) (hpos : zero ≤ x) :
    (2 * x.roundToNat limit * Format.double.one : Nat) ≤ 2 * x.scaled + Format.double.one := by
  have hnonneg := scaled_nonneg_iff.mpr (zero_le_iff.mp hpos).right
  have hdiv := Nat.div_mul_le_self (2 * x.scaled.toNat + Format.double.one) (2 * Format.double.one)
  have hmin : x.roundToNat limit ≤
      (2 * x.scaled.toNat + Format.double.one) / (2 * Format.double.one) := by
    rw [roundToNat_eq limit hx]
    exact Nat.min_le_right _ _
  have hle : 2 * x.roundToNat limit * Format.double.one ≤
      2 * x.scaled.toNat + Format.double.one := by
    calc 2 * x.roundToNat limit * Format.double.one
      _ = x.roundToNat limit * (2 * Format.double.one) := by ring
      _ ≤ (2 * x.scaled.toNat + Format.double.one) / (2 * Format.double.one) *
          (2 * Format.double.one) := Nat.mul_le_mul_right _ hmin
      _ ≤ 2 * x.scaled.toNat + Format.double.one := hdiv
  generalize 2 * x.roundToNat limit * Format.double.one = n at *
  generalize Format.double.one = one at *
  omega

end GridPress.Double

import GridPress.Proofs.Binary.Order

namespace GridPress.Double

open Binary (Format)

variable {w x y z : Double} {m n d : Nat} {s : Bool}

theorem signedUnits_mul (s : Bool) (m n : Nat) :
    signedUnits s (m * n) = signedUnits s m * n := by
  unfold signedUnits
  split <;> simp only [Int.natCast_mul, Int.neg_mul]

-- Above zero, there is no sign, and at least one unit.
theorem parts_of_scaled_pos (h : 0 < x.scaled) :
    x.negative = false ∧ ∃ n, Format.double.units x.magnitude = n + 1 := by
  constructor
  · by_contra hneg
    rw [Bool.not_eq_false] at hneg
    simp only [scaled, signedUnits, hneg, if_true] at h
    omega
  · rw [← natAbs_scaled x]
    exact ⟨x.scaled.natAbs - 1, by omega⟩

section Operations

variable (hx : x.isFinite = true) (hy : y.isFinite = true)

include hx hy

theorem add_eq : x + y = ofSum x.negative y.negative (Format.double.units x.magnitude)
    (Format.double.units y.magnitude) := by
  change propagate x y (sum x.value y.value) = _
  rw [propagate, isNaN_of_isFinite hx, isNaN_of_isFinite hy, value_of_isFinite hx,
    value_of_isFinite hy]
  rfl

theorem sub_eq : x - y = ofSum x.negative (!y.negative) (Format.double.units x.magnitude)
    (Format.double.units y.magnitude) := by
  change propagate x y (sum x.value (negateValue y.value)) = _
  rw [propagate, isNaN_of_isFinite hx, isNaN_of_isFinite hy, value_of_isFinite hx,
    value_of_isFinite hy]
  rfl

theorem mul_eq : x * y = ofUnits (x.negative != y.negative)
    (Format.double.units x.magnitude * Format.double.units y.magnitude) Format.double.one := by
  change propagate x y (product x.value y.value) = _
  rw [propagate, isNaN_of_isFinite hx, isNaN_of_isFinite hy, value_of_isFinite hx,
    value_of_isFinite hy]
  rfl

theorem place_add : (x + y).place = roundPlace (x.scaled + y.scaled) 1 := by
  rw [add_eq hx hy, place_ofSum]
  rfl

theorem isNaN_add : (x + y).isNaN = false := by
  rw [add_eq hx hy, isNaN_ofSum]

theorem place_sub : (x - y).place = roundPlace (x.scaled - y.scaled) 1 := by
  rw [sub_eq hx hy, place_ofSum]
  unfold scaled signedUnits
  cases y.negative <;> simp [Int.sub_eq_add_neg]

theorem isNaN_sub : (x - y).isNaN = false := by
  rw [sub_eq hx hy, isNaN_ofSum]

theorem place_mul : (x * y).place = roundPlace (x.scaled * y.scaled) Format.double.one := by
  have hone : 0 < Format.double.one := Format.double.one_pos
  rw [mul_eq hx hy, place_ofUnits_eq_roundPlace hone]
  unfold scaled signedUnits
  cases x.negative <;> cases y.negative <;> simp

theorem isNaN_mul : (x * y).isNaN = false := by
  rw [mul_eq hx hy, isNaN_ofUnits]

variable (hpos : 0 < y.scaled)

include hpos

theorem div_eq : x / y = ofUnits x.negative
    (Format.double.units x.magnitude * Format.double.one) (Format.double.units y.magnitude) := by
  obtain ⟨hneg, n, hn⟩ := parts_of_scaled_pos hpos
  change propagate x y (quotient x.value y.value) = _
  rw [propagate, isNaN_of_isFinite hx, isNaN_of_isFinite hy, value_of_isFinite hx,
    value_of_isFinite hy, hn, hneg]
  -- The quotient looks for zeros among both operands.
  cases Format.double.units x.magnitude <;> cases x.negative <;> rfl

theorem place_div :
    (x / y).place = roundPlace (x.scaled * Format.double.one) y.scaled.natAbs := by
  have hunits : 0 < Format.double.units y.magnitude := by
    rw [← natAbs_scaled y]
    omega
  rw [div_eq hx hy hpos, place_ofUnits_eq_roundPlace hunits, natAbs_scaled, signedUnits_mul]
  rfl

theorem isNaN_div : (x / y).isNaN = false := by
  rw [div_eq hx hy hpos, isNaN_ofUnits]

end Operations

theorem isFinite_iff_place : x.isFinite = true ↔ x.place.natAbs < Format.double.infinity := by
  rw [isFinite_iff, natAbs_place]

theorem not_isFinite_ofParts_infinity (s : Bool) :
    (ofParts s Format.double.infinity).isFinite = false := by
  cases s <;> rfl

theorem isNaN_quiet (h : x.isNaN = true) : x.quiet.isNaN = true := by
  rw [isNaN_iff] at h ⊢
  have hor : x.quiet.toWord = x.toWord ||| 2 ^ 51 := by
    simp only [quiet, toWord, UInt64.toNat_or]
    rfl
  have hle : x.magnitude ≤ x.quiet.magnitude := by
    have hweight : Format.double.signWeight = 2 ^ 63 := rfl
    simp only [magnitude, Format.magnitude, hweight, hor, Nat.or_mod_two_pow]
    exact Nat.left_le_or
  exact Nat.lt_of_lt_of_le h hle

theorem isNaN_propagate (x y z : Double) :
    (propagate x y z).isNaN = (x.isNaN || y.isNaN || z.isNaN) := by
  unfold propagate
  cases hx : x.isNaN
  case true => simp [isNaN_quiet hx]
  case false =>
    cases hy : y.isNaN
    case true => simp [isNaN_quiet hy]
    case false => simp

theorem not_isFinite_of_isNaN (h : x.isNaN = true) : x.isFinite = false := by
  rw [isNaN_iff] at h
  rw [← Bool.not_eq_true, isFinite_iff]
  omega

theorem isFinite_of_propagate (h : (propagate x y z).isFinite = true) :
    x.isNaN = false ∧ y.isNaN = false ∧ z.isFinite = true := by
  unfold propagate at h
  cases hx : x.isNaN
  case true => simp [hx, not_isFinite_of_isNaN (isNaN_quiet hx)] at h
  case false =>
    cases hy : y.isNaN
    case true => simp [hx, hy, not_isFinite_of_isNaN (isNaN_quiet hy)] at h
    case false => simpa [hx, hy] using h

theorem value_of_not_isFinite (hx : x.isNaN = false) (h : x.isFinite = false) :
    x.value = .infinite x.negative := by
  have hfinite : ¬x.magnitude < Format.double.infinity := by simpa [isFinite] using h
  have hnan : ¬Format.double.infinity < x.magnitude := by simpa [isNaN] using hx
  rw [value, if_neg hfinite, if_pos (by omega)]

theorem not_isFinite_of_eq (h : (∃ s, x = ofParts s Format.double.infinity) ∨ x = indefinite) :
    x.isFinite = false := by
  rcases h with ⟨s, rfl⟩ | rfl
  · exact not_isFinite_ofParts_infinity s
  · rfl

theorem not_isFinite_sum_left (s : Bool) (v : Value) : (sum (.infinite s) v).isFinite = false := by
  apply not_isFinite_of_eq
  cases v
  case infinite t =>
    by_cases hst : s = t
    case pos => exact .inl ⟨s, if_pos hst⟩
    case neg => exact .inr (if_neg hst)
  all_goals exact .inl ⟨s, rfl⟩

theorem not_isFinite_sum_right (v : Value) (s : Bool) : (sum v (.infinite s)).isFinite = false := by
  cases v
  case infinite t => exact not_isFinite_sum_left t _
  all_goals exact not_isFinite_of_eq (.inl ⟨s, rfl⟩)

theorem not_isFinite_quotient (s : Bool) (v : Value) :
    (quotient (.infinite s) v).isFinite = false := by
  apply not_isFinite_of_eq
  cases v
  case finite t n => exact .inl ⟨s != t, rfl⟩
  all_goals exact .inr rfl

theorem isFinite_of_add (h : (x + y).isFinite = true) :
    x.isFinite = true ∧ y.isFinite = true := by
  have ⟨hx, hy, hsum⟩ := isFinite_of_propagate h
  constructor
  · by_contra hinf
    rw [value_of_not_isFinite hx (by simpa using hinf), not_isFinite_sum_left] at hsum
    contradiction
  · by_contra hinf
    rw [value_of_not_isFinite hy (by simpa using hinf), not_isFinite_sum_right] at hsum
    contradiction

theorem isFinite_of_sub (h : (x - y).isFinite = true) :
    x.isFinite = true ∧ y.isFinite = true := by
  have ⟨hx, hy, hsum⟩ := isFinite_of_propagate h
  constructor
  · by_contra hinf
    rw [value_of_not_isFinite hx (by simpa using hinf), not_isFinite_sum_left] at hsum
    contradiction
  · by_contra hinf
    rw [value_of_not_isFinite hy (by simpa using hinf), negateValue, not_isFinite_sum_right] at hsum
    contradiction

theorem isFinite_of_div (h : (x / y).isFinite = true) : x.isFinite = true := by
  have ⟨hx, _, hquotient⟩ := isFinite_of_propagate h
  by_contra hinf
  rw [value_of_not_isFinite hx (by simpa using hinf), not_isFinite_quotient] at hquotient
  contradiction

theorem isNaN_ofParts_infinity (s : Bool) : (ofParts s Format.double.infinity).isNaN = false :=
  isNaN_ofParts s (Nat.le_refl _)

-- Two infinities are equal, or they differ in sign.
theorem eq_ofParts_of_not_isFinite (hx : x.isNaN = false) (h : x.isFinite = false) :
    x = ofParts x.negative Format.double.infinity := by
  have hfinite : ¬x.magnitude < Format.double.infinity := by simpa [isFinite] using h
  have hnan : ¬Format.double.infinity < x.magnitude := by simpa [isNaN] using hx
  have hmagnitude : x.magnitude = Format.double.infinity := by omega
  rw [← hmagnitude, ofParts_parts]

theorem place_of_not_isFinite (hx : x.isNaN = false) (h : x.isFinite = false) :
    x.place = if x.negative then -(Format.double.infinity : Int) else Format.double.infinity := by
  rw [eq_ofParts_of_not_isFinite hx h, place_ofParts _ infinity_lt,
    negative_ofParts _ infinity_lt]

theorem natAbs_place_le (hx : x.isNaN = false) : x.place.natAbs ≤ Format.double.infinity := by
  rw [natAbs_place]
  simpa [isNaN] using hx

theorem sum_infinite (s : Bool) :
    sum (.infinite s) (.infinite s) = ofParts s Format.double.infinity :=
  if_pos rfl

-- The difference of numbers that are not equal is a number.
theorem isNaN_sum_of_not_equal (hx : x.isNaN = false) (hy : y.isNaN = false)
    (h : ¬x.equal y = true) : (sum x.value (negateValue y.value)).isNaN = false := by
  cases hfx : x.isFinite <;> cases hfy : y.isFinite
  case true.true =>
    rw [value_of_isFinite hfx, value_of_isFinite hfy]
    exact isNaN_ofSum _ _ _ _
  case true.false =>
    rw [value_of_isFinite hfx, value_of_not_isFinite hy hfy]
    exact isNaN_ofParts_infinity _
  case false.true =>
    rw [value_of_not_isFinite hx hfx, value_of_isFinite hfy]
    exact isNaN_ofParts_infinity _
  case false.false =>
    have hne : x.negative ≠ y.negative := by
      intro hxy
      refine h (equal_iff.mpr ⟨hx, hy, ?_⟩)
      rw [place_of_not_isFinite hx hfx, place_of_not_isFinite hy hfy, hxy]
    rw [value_of_not_isFinite hx hfx, value_of_not_isFinite hy hfy, negateValue,
      ← Bool.eq_not_of_ne hne, sum_infinite]
    exact isNaN_ofParts_infinity _

-- A difference is a number if both operands are, unless they are equal infinities.
theorem isNaN_sub_iff (h : ¬x.equal y = true) :
    (x - y).isNaN = true ↔ x.isNaN = true ∨ y.isNaN = true := by
  change (propagate x y (sum x.value (negateValue y.value))).isNaN = true ↔ _
  rw [isNaN_propagate]
  cases hx : x.isNaN
  case true => simp
  case false =>
    cases hy : y.isNaN
    case true => simp
    case false => simp [isNaN_sum_of_not_equal hx hy h]

theorem isNaN_sub_of_isFinite (hx : x.isFinite = true) : (x - y).isNaN = y.isNaN := by
  change (propagate x y (sum x.value (negateValue y.value))).isNaN = _
  rw [isNaN_propagate, isNaN_of_isFinite hx, value_of_isFinite hx, Bool.false_or]
  cases hy : y.isNaN
  case true => exact Bool.true_or _
  case false =>
    rw [Bool.false_or]
    cases hfy : y.isFinite
    case true =>
      rw [value_of_isFinite hfy]
      exact isNaN_ofSum _ _ _ _
    case false =>
      rw [value_of_not_isFinite hy hfy]
      exact isNaN_ofParts_infinity _

-- No infinity is left of itself.
theorem isNaN_sub_of_equal (h : x.equal y = true) (hx : x.isFinite = false) :
    (x - y).isNaN = true := by
  have ⟨hnan, _, hplace⟩ := equal_iff.mp h
  have hne : x.place ≠ 0 := by
    intro hzero
    rw [← Bool.not_eq_true, isFinite_iff_place, hzero] at hx
    exact hx (by decide)
  obtain rfl := eq_of_place_eq hplace hne
  change (propagate x x (sum x.value (negateValue x.value))).isNaN = true
  rw [isNaN_propagate, value_of_not_isFinite hnan hx]
  cases x.negative <;> exact Bool.or_true _

-- What lies between finite doubles is finite.
theorem isFinite_of_le (hx : x.isFinite = true) (hz : z.isFinite = true) (hxy : x ≤ y)
    (hyz : y ≤ z) : y.isFinite = true := by
  have ⟨_, _, hxy⟩ := le_iff.mp hxy
  have ⟨_, _, hyz⟩ := le_iff.mp hyz
  rw [isFinite_iff_place] at hx hz ⊢
  omega

theorem lt_infinity (h : x.isFinite = true) : x < infinity := by
  have hplace : infinity.place = Format.double.infinity := rfl
  rw [isFinite_iff_place] at h
  rw [lt_iff, hplace]
  exact ⟨isNaN_of_isFinite (isFinite_iff_place.mpr h), rfl, by omega⟩

theorem zero_lt_iff : zero < x ↔ x.isNaN = false ∧ 0 < x.place := by
  have hnan : zero.isNaN = false := rfl
  have hplace : zero.place = 0 := rfl
  rw [lt_iff, hnan, hplace]
  simp

theorem zero_le_iff : zero ≤ x ↔ x.isNaN = false ∧ 0 ≤ x.place := by
  have hnan : zero.isNaN = false := rfl
  have hplace : zero.place = 0 := rfl
  rw [le_iff, hnan, hplace]
  simp

theorem equal_zero_iff : x.equal zero = true ↔ x.isNaN = false ∧ x.place = 0 := by
  have hnan : zero.isNaN = false := rfl
  have hplace : zero.place = 0 := rfl
  rw [equal_iff, hnan, hplace]
  simp

theorem equal_zero_of_not_lt (h : zero ≤ x) (hlt : ¬zero < x) : x.equal zero = true := by
  have ⟨hnan, hplace⟩ := zero_le_iff.mp h
  rw [zero_lt_iff, and_iff_right hnan] at hlt
  exact equal_zero_iff.mpr ⟨hnan, by omega⟩

theorem equal_zero_abs (x : Double) : x.abs.equal zero = x.equal zero := by
  rw [Bool.eq_iff_iff, equal_zero_iff, equal_zero_iff, isNaN_abs, place_abs]
  refine and_congr_right fun _ => ?_
  omega

theorem not_lt_zero (h : zero ≤ x) : ¬x < zero :=
  not_lt_of_le h

theorem scaled_pos_iff : 0 < x.scaled ↔ 0 < x.place := by
  have h := scaled_le_scaled_iff (x := x) (y := zero)
  have hplace : zero.place = 0 := rfl
  have hscaled : zero.scaled = 0 := rfl
  rw [hplace, hscaled] at h
  omega

theorem scaled_nonneg_iff : 0 ≤ x.scaled ↔ 0 ≤ x.place :=
  scaled_le_scaled_iff (x := zero)

theorem scaled_le_of_le (h : x ≤ y) : x.scaled ≤ y.scaled :=
  scaled_le_scaled_iff.mpr (le_iff.mp h).right.right

theorem sub_le_sub_right (hx : x.isFinite = true) (hy : y.isFinite = true) (hz : z.isFinite = true)
    (h : x ≤ y) : x - z ≤ y - z := by
  have hscaled := scaled_le_of_le h
  rw [le_iff, place_sub hx hz, place_sub hy hz]
  exact ⟨isNaN_sub hx hz, isNaN_sub hy hz, roundPlace_mono (by decide) (by omega)⟩

theorem zero_le_sub (hx : x.isFinite = true) (hy : y.isFinite = true) (h : y ≤ x) :
    zero ≤ x - y := by
  have hscaled := scaled_le_of_le h
  have hzero : roundPlace 0 1 = 0 := rfl
  rw [zero_le_iff, place_sub hx hy, ← hzero]
  exact ⟨isNaN_sub hx hy, roundPlace_mono (by decide) (by omega)⟩

-- Underflow is gradual, and so a difference is zero only between equal numbers.
theorem equal_of_sub (h : (x - y).equal zero = true) : x.equal y = true := by
  have ⟨_, hplace⟩ := equal_zero_iff.mp h
  have hfinite : (x - y).isFinite = true := by
    rw [isFinite_iff_place, hplace]
    decide
  have ⟨hx, hy⟩ := isFinite_of_sub hfinite
  rw [place_sub hx hy] at hplace
  have hscaled := eq_zero_of_roundPlace hplace
  rw [equal_iff]
  refine ⟨isNaN_of_isFinite hx, isNaN_of_isFinite hy, ?_⟩
  exact Int.le_antisymm (scaled_le_scaled_iff.mp (by omega)) (scaled_le_scaled_iff.mp (by omega))

theorem sub_of_equal (hx : x.isFinite = true) (hy : y.isFinite = true) (h : x.equal y = true) :
    (x - y).equal zero = true := by
  have hzero : roundPlace 0 1 = 0 := rfl
  have ⟨_, _, hplace⟩ := equal_iff.mp h
  have hle := scaled_le_scaled_iff.mpr (Int.le_of_eq hplace)
  have hge := scaled_le_scaled_iff.mpr (Int.le_of_eq hplace.symm)
  rw [equal_zero_iff, place_sub hx hy, Int.le_antisymm hle hge, Int.sub_self]
  exact ⟨isNaN_sub hx hy, hzero⟩

-- What is left of a number without itself.
theorem abs_sub_self (hx : x.isFinite = true) : (x - x).abs = zero := by
  have hzero : roundPlace 0 1 = 0 := rfl
  have hplace : (x - x).place = 0 := by rw [place_sub hx hx, Int.sub_self, hzero]
  have hmagnitude : (x - x).magnitude = 0 := by rw [← natAbs_place, hplace, Int.natAbs_zero]
  rw [abs, hmagnitude]
  rfl

-- A quotient by infinity is zero.
theorem place_div_infinite (hx : x.isFinite = true) (hy : y.isNaN = false)
    (hinf : y.isFinite = false) : (x / y).isNaN = false ∧ (x / y).place = 0 := by
  have hdiv : x / y = ofParts (x.negative != y.negative) 0 := by
    change propagate x y (quotient x.value y.value) = _
    rw [propagate, isNaN_of_isFinite hx, hy, value_of_isFinite hx, value_of_not_isFinite hy hinf]
    cases Format.double.units x.magnitude <;> rfl
  rw [hdiv]
  exact ⟨isNaN_ofParts _ (Nat.zero_le _), by rw [place_ofParts _ (by decide)]; simp⟩

theorem div_le_div_right (hx : x.isFinite = true) (hy : y.isFinite = true) (hz : zero < z)
    (h : x ≤ y) : x / z ≤ y / z := by
  have ⟨_, _, hplace⟩ := le_iff.mp h
  have ⟨hnan, hpos⟩ := zero_lt_iff.mp hz
  rw [le_iff]
  cases hfinite : z.isFinite
  case false =>
    have ⟨hxnan, hxplace⟩ := place_div_infinite hx hnan hfinite
    have ⟨hynan, hyplace⟩ := place_div_infinite hy hnan hfinite
    rw [hxplace, hyplace]
    exact ⟨hxnan, hynan, Int.le_refl 0⟩
  case true =>
    have hscaled := scaled_pos_iff.mpr hpos
    rw [place_div hx hfinite hscaled, place_div hy hfinite hscaled]
    refine ⟨isNaN_div hx hfinite hscaled, isNaN_div hy hfinite hscaled, ?_⟩
    refine roundPlace_mono (by omega) (Int.mul_le_mul_of_nonneg_right ?_ (Int.natCast_nonneg _))
    exact scaled_le_scaled_iff.mpr hplace

theorem zero_le_div (hx : x.isFinite = true) (h : zero ≤ x) (hz : zero < z) : zero ≤ x / z := by
  have ⟨hnan, hzpos⟩ := zero_lt_iff.mp hz
  have ⟨_, hpos⟩ := zero_le_iff.mp h
  rw [zero_le_iff]
  cases hfinite : z.isFinite
  case false =>
    have ⟨hxnan, hplace⟩ := place_div_infinite hx hnan hfinite
    exact ⟨hxnan, Int.le_of_eq hplace.symm⟩
  case true =>
    have hscaled := scaled_pos_iff.mpr hzpos
    have hzero : roundPlace (zero.scaled * (z.scaled.natAbs : Int)) z.scaled.natAbs = 0 :=
      roundPlace_scaled rfl (by omega)
    have hnonneg : 0 ≤ x.scaled * (Format.double.one : Int) :=
      Int.mul_nonneg (scaled_nonneg_iff.mpr hpos) (Int.natCast_nonneg _)
    rw [place_div hx hfinite hscaled, ← hzero]
    refine ⟨isNaN_div hx hfinite hscaled, roundPlace_mono (by omega) ?_⟩
    rwa [show zero.scaled = 0 from rfl, Int.zero_mul]

-- A quotient by a number that is not zero is a number unless both operands are infinities.
theorem isNaN_div_of_not_zero (hx : x.isNaN = false) (hy : y.isNaN = false)
    (hzero : ¬y.equal zero = true) : (x / y).isNaN = !(x.isFinite || y.isFinite) := by
  change (propagate x y (quotient x.value y.value)).isNaN = _
  rw [isNaN_propagate, hx, hy, Bool.false_or, Bool.false_or]
  cases hfx : x.isFinite <;> cases hfy : y.isFinite
  case false.false =>
    have hindefinite : indefinite.isNaN = true := rfl
    rw [value_of_not_isFinite hx hfx, value_of_not_isFinite hy hfy]
    exact hindefinite
  case false.true =>
    rw [value_of_not_isFinite hx hfx, value_of_isFinite hfy]
    exact isNaN_ofParts_infinity _
  case true.false =>
    rw [value_of_isFinite hfx, value_of_not_isFinite hy hfy]
    cases Format.double.units x.magnitude <;> exact isNaN_ofParts _ (Nat.zero_le _)
  case true.true =>
    have hunits : Format.double.units y.magnitude ≠ 0 := by
      intro hunits
      refine hzero (equal_zero_iff.mpr ⟨hy, ?_⟩)
      rw [← Int.natAbs_eq_zero, natAbs_place, units_eq_zero_iff.mp hunits]
    obtain ⟨n, hn⟩ := Nat.exists_eq_succ_of_ne_zero hunits
    rw [value_of_isFinite hfx, value_of_isFinite hfy, hn]
    cases Format.double.units x.magnitude <;> exact isNaN_ofUnits _ _ _

section Positive

variable (hz : z.isFinite = true) (hpos : zero < z)

include hz hpos

theorem mul_of_not_isFinite (hx : x.isNaN = false) (h : x.isFinite = false) : x * z = x := by
  obtain ⟨hneg, n, hn⟩ := parts_of_scaled_pos (scaled_pos_iff.mpr (zero_lt_iff.mp hpos).right)
  change propagate x z (product x.value z.value) = x
  rw [propagate, hx, isNaN_of_isFinite hz, value_of_not_isFinite hx h, value_of_isFinite hz, hn,
    hneg]
  have hsign : ofParts (x.negative != false) Format.double.infinity = x := by
    rw [Bool.bne_false, ← eq_ofParts_of_not_isFinite hx h]
  exact hsign

theorem isNaN_mul_right : (x * z).isNaN = x.isNaN := by
  cases hx : x.isNaN
  case true =>
    change (propagate x z (product x.value z.value)).isNaN = _
    rw [isNaN_propagate, hx]
    rfl
  case false =>
    cases h : x.isFinite
    case true => exact isNaN_mul h hz
    case false => rw [mul_of_not_isFinite hz hpos hx h, hx]

theorem mul_le_mul_right (h : x ≤ y) : x * z ≤ y * z := by
  have ⟨hx, hy, hplace⟩ := le_iff.mp h
  have hlex := natAbs_place_le hx
  have hley := natAbs_place_le hy
  have hlexz := natAbs_place_le ((isNaN_mul_right hz hpos).trans hx)
  have hleyz := natAbs_place_le ((isNaN_mul_right hz hpos).trans hy)
  rw [le_iff, isNaN_mul_right hz hpos, isNaN_mul_right hz hpos]
  refine ⟨hx, hy, ?_⟩
  cases hfx : x.isFinite <;> cases hfy : y.isFinite
  case true.true =>
    have hscaled := scaled_pos_iff.mpr (zero_lt_iff.mp hpos).right
    rw [place_mul hfx hz, place_mul hfy hz]
    exact roundPlace_mono (Nat.two_pow_pos _)
      (Int.mul_le_mul_of_nonneg_right (scaled_le_of_le h) (Int.le_of_lt hscaled))
  case true.false =>
    have hinf := isFinite_iff_place (x := x) |>.mp hfx
    have hinfinite := place_of_not_isFinite hy hfy
    rw [mul_of_not_isFinite hz hpos hy hfy]
    split at hinfinite <;> omega
  case false.true =>
    have hinf := isFinite_iff_place (x := y) |>.mp hfy
    have hinfinite := place_of_not_isFinite hx hfx
    rw [mul_of_not_isFinite hz hpos hx hfx]
    split at hinfinite <;> omega
  case false.false =>
    rw [mul_of_not_isFinite hz hpos hx hfx, mul_of_not_isFinite hz hpos hy hfy]
    exact hplace

theorem lt_max_mul_iff : w < x.max y * z ↔ w < x * z ∨ w < y * z :=
  lt_map_max_iff (f := (· * z)) (fun u hu => (isNaN_mul_right hz hpos (x := u)).trans hu)
    fun _ _ h => mul_le_mul_right hz hpos h

end Positive
theorem le_add_of_scaled_le (hx : x.isFinite = true) (hy : y.isFinite = true)
    (hz : z.isFinite = true) (h : z.scaled ≤ x.scaled + y.scaled) : z ≤ x + y := by
  rw [le_iff, place_add hx hy, ← roundPlace_scaled hz (d := 1) (by decide)]
  exact ⟨isNaN_of_isFinite hz, isNaN_add hx hy, roundPlace_mono (by decide) (by omega)⟩

theorem scaled_ofParts (hm : m < 2 ^ 63) : (ofParts false m).scaled = Format.double.units m := by
  rw [scaled, negative_ofParts _ hm, magnitude_ofParts _ hm]
  rfl

theorem isFinite_ofParts (s : Bool) (hm : m < Format.double.infinity) :
    (ofParts s m).isFinite = true := by
  rwa [isFinite_iff, magnitude_ofParts s (Nat.lt_trans hm infinity_lt)]

-- Numbers of units with at most one bit more than the mantissa, however far they are shifted.
theorem exists_scaled_eq {q e : Nat} (hq : q < 2 ^ 53) (he : e ≤ 2045) :
    ∃ x : Double, x.isFinite = true ∧ x.scaled = (q * 2 ^ e : Nat) := by
  have ⟨m, hlt, hm⟩ := Format.double.exists_units_eq_of_le hq (Nat.add_le_add_right he 2)
  exact ⟨ofParts false m, isFinite_ofParts _ hlt,
    hm ▸ scaled_ofParts (Nat.lt_trans hlt infinity_lt)⟩

theorem ofUnits_units (s : Bool) (hm : m < Format.double.infinity) :
    ofUnits s (Format.double.units m) 1 = ofParts s m := by
  have hnearest := Format.double.nearest_units (d := 1) (by decide) m
  rw [Nat.mul_one, Nat.min_eq_left (Nat.le_of_lt hm)] at hnearest
  rw [ofUnits, hnearest]

-- Whole numbers of at most 53 bits are doubles.
theorem scaled_ofNat (hn : n < 2 ^ 53) :
    (ofNat n).isFinite = true ∧ (ofNat n).scaled = (n * Format.double.one : Nat) := by
  have hunits : ∃ m, m < Format.double.infinity ∧
      Format.double.units m = n * Format.double.one :=
    Format.double.exists_units_eq_of_le hn (by decide)
  have ⟨m, hlt, hm⟩ := hunits
  rw [ofNat, ← hm, ofUnits_units false hlt]
  exact ⟨isFinite_ofParts _ hlt, scaled_ofParts (Nat.lt_trans hlt infinity_lt)⟩

-- A sum reaches every half of a whole number that its exact value reaches.
theorem half_le_add {a : Nat} (ha : a < 2 ^ 53) (hx : x.isFinite = true) (hy : y.isFinite = true)
    (h : (a * Format.double.one : Nat) ≤ 2 * (x.scaled + y.scaled)) :
    (a * Format.double.one : Nat) ≤ 2 * (x + y).scaled := by
  obtain ⟨e, he⟩ : ∃ e, e = 1073 := ⟨_, rfl⟩
  have hone : 2 * 2 ^ e = Format.double.one := by
    rw [← Nat.pow_succ']
    exact two_pow_eq_one (by omega)
  have ⟨u, hu, hscaled⟩ := exists_scaled_eq ha (show e ≤ 2045 by omega)
  have htwice : (a * Format.double.one : Nat) = 2 * u.scaled := by
    rw [hscaled, ← hone, Nat.mul_left_comm, Int.natCast_mul]
    rfl
  rw [htwice] at h ⊢
  have hle : u ≤ x + y := le_add_of_scaled_le hx hy hu (by omega)
  have := scaled_le_of_le hle
  omega

end GridPress.Double

import GridPress.Proofs.Binary.Kind
import GridPress.Proofs.Stage.Sigbits.Layout

namespace GridPress.Stage.Sigbits

open Binary (Format)

variable {k : FloatKind} {f : Format} {bits shift unit m n v w : Nat}

-- The multiple of a unit nearest to `m`, the upper one of two.
def halfUp (unit m : Nat) : Nat :=
  (m + unit / 2) / unit * unit

-- A magnitude whose lowest bits are rounded away, or cut off if rounding would lead to infinity.
def roundMagnitude (f : Format) (shift m : Nat) : Nat :=
  if halfUp (2 ^ shift) m = f.infinity then m / 2 ^ shift * 2 ^ shift else halfUp (2 ^ shift) m

-- Without bits to drop, half a unit is nothing.
theorem halfUp_one (m : Nat) : halfUp 1 m = m := by
  simp [halfUp]

section Unit

variable (hunit : 0 < unit)

include hunit

theorem div_le_halfUp (m : Nat) :
    m / unit ≤ (m + unit / 2) / unit ∧ (m + unit / 2) / unit ≤ m / unit + 1 := by
  have hhalf : m + unit / 2 ≤ m + unit := Nat.add_le_add_left (Nat.div_le_self unit 2) m
  have hnext := Nat.div_le_div_right (c := unit) hhalf
  rw [Nat.add_div_right m hunit] at hnext
  exact ⟨Nat.div_le_div_right (Nat.le_add_right m _), hnext⟩

theorem halfUp_of_carry (hm : m < n * unit) (hcarry : n ≤ (m + unit / 2) / unit) :
    halfUp unit m = n * unit := by
  have ⟨_, hnext⟩ := div_le_halfUp hunit m
  have hlt := (Nat.div_lt_iff_lt_mul hunit).mpr hm
  rw [halfUp, show (m + unit / 2) / unit = n by omega]

-- Multiples of the unit stay out of rounding.
theorem halfUp_mul_add (q m : Nat) : halfUp unit (q * unit + m) = q * unit + halfUp unit m := by
  rw [halfUp, halfUp, Nat.add_assoc, Nat.mul_comm q, Nat.mul_add_div hunit, Nat.add_mul,
    Nat.mul_comm q]

theorem cut_mul_add (q m : Nat) :
    (q * unit + m) / unit * unit = q * unit + m / unit * unit := by
  rw [Nat.mul_comm q, Nat.mul_add_div hunit, Nat.add_mul, Nat.mul_comm q]

end Unit

theorem roundMagnitude_mono (f : Format) (shift : Nat) (h : m ≤ n) :
    roundMagnitude f shift m ≤ roundMagnitude f shift n := by
  have hunit := Nat.two_pow_pos shift
  unfold roundMagnitude halfUp
  generalize 2 ^ shift = unit at hunit ⊢
  have hcut : m / unit ≤ n / unit := Nat.div_le_div_right h
  have hup : (m + unit / 2) / unit ≤ (n + unit / 2) / unit :=
    Nat.div_le_div_right (Nat.add_le_add_right h _)
  have ⟨hm, _⟩ := div_le_halfUp hunit m
  have ⟨_, hn⟩ := div_le_halfUp hunit n
  split
  case isTrue =>
    split
    case isTrue => exact Nat.mul_le_mul_right unit hcut
    case isFalse => exact Nat.mul_le_mul_right unit (Nat.le_trans hm hup)
  case isFalse hbelow =>
    split
    case isTrue hinfinity =>
      -- Only `n` is cut off, by no more than the unit that is between the two.
      have hne : (m + unit / 2) / unit ≠ (n + unit / 2) / unit := by
        intro heq
        exact hbelow (heq ▸ hinfinity)
      exact Nat.mul_le_mul_right unit (by omega)
    case isFalse => exact Nat.mul_le_mul_right unit hup

-- The mantissa is rounded, and carries into the exponent.
theorem roundMagnitude_add (hb : bits ≤ f.mantissaBits) (e m : Nat) :
    roundMagnitude f (f.mantissaBits - bits) (e * 2 ^ f.mantissaBits + m) =
      e * 2 ^ f.mantissaBits +
        if e * 2 ^ f.mantissaBits + halfUp (2 ^ (f.mantissaBits - bits)) m = f.infinity then
          m / 2 ^ (f.mantissaBits - bits) * 2 ^ (f.mantissaBits - bits)
        else
          halfUp (2 ^ (f.mantissaBits - bits)) m := by
  have hunit := Nat.two_pow_pos (f.mantissaBits - bits)
  have hplace : e * 2 ^ f.mantissaBits = e * 2 ^ bits * 2 ^ (f.mantissaBits - bits) := by
    rw [Nat.mul_assoc, pow_mul_pow_sub 2 hb]
  rw [hplace, roundMagnitude, halfUp_mul_add hunit, cut_mul_add hunit, apply_ite (_ + ·)]

theorem roundFields_of_mantissa {q : Nat} (hb : bits ≤ k.format.mantissaBits)
    (hq : (k.format.split w).mantissa = q * 2 ^ (k.format.mantissaBits - bits)) :
    roundFields k bits w = { k.format.split w with mantissa := q } := by
  have hlt : q < 2 ^ bits := by
    have hfits := (k.format.holds_split w).mantissa
    rw [hq, ← pow_mul_pow_sub 2 hb] at hfits
    exact Nat.lt_of_mul_lt_mul_right hfits
  unfold roundFields
  dsimp only
  rw [hq]
  generalize k.format.mantissaBits - bits = s at hq ⊢
  have hunit : 0 < 2 ^ s := Nat.two_pow_pos s
  have hcut : q * 2 ^ s / 2 ^ s = q := Nat.mul_div_cancel q hunit
  rw [hcut]
  -- The cases in order: nothing to drop, not finite, no carry.
  split
  case isTrue hs =>
    rw [hs, Nat.pow_zero, Nat.mul_one] at hq
    rw [← hq]
  case isFalse hs =>
    split
    case isTrue =>
      have hnone : ¬(q * 2 ^ s ≠ 0 ∧ q = 0 ∧ 0 < bits) := by
        rintro ⟨hne, rfl, -⟩
        exact hne (Nat.zero_mul _)
      rw [if_neg hnone]
    case isFalse =>
      have hhalf : 2 ^ (s - 1) < 2 ^ s := Nat.pow_lt_pow_right (by decide) (by omega)
      rw [Nat.add_comm, Nat.add_mul_div_right _ _ hunit, Nat.div_eq_of_lt hhalf, Nat.zero_add,
        if_pos hlt]

-- Rounding leaves a word alone exactly if it has nothing to drop.
theorem roundedFields_eq_split_iff (hb : bits ≤ k.format.mantissaBits) :
    roundedFields k bits w = k.format.split w ↔
      2 ^ (k.format.mantissaBits - bits) ∣ (k.format.split w).mantissa := by
  constructor
  case mp =>
    intro h
    rw [← h]
    exact Nat.dvd_mul_left _ _
  case mpr =>
    rintro ⟨q, hq⟩
    rw [Nat.mul_comm] at hq
    unfold roundedFields
    rw [roundFields_of_mantissa hb hq]
    dsimp only
    rw [← hq]

theorem two_pow_sub_one (h : shift ≠ 0) : 2 ^ (shift - 1) = 2 ^ shift / 2 := by
  rw [← Nat.two_pow_pred_mul_two (Nat.pos_of_ne_zero h), Nat.mul_div_cancel _ (by decide)]

-- The rounded fields of a finite word make up its rounded magnitude.
theorem roundedFields_of_finite (hb : bits ≤ k.format.mantissaBits)
    (hw : k.format.magnitude w < k.format.infinity) :
    (roundedFields k bits w).exponent * 2 ^ k.format.mantissaBits +
      (roundedFields k bits w).mantissa =
        roundMagnitude k.format (k.format.mantissaBits - bits) (k.format.magnitude w) := by
  have hexponent := Format.magnitude_lt_infinity_iff.mp hw
  have hmantissa := (k.format.holds_split w).mantissa
  have hunit := Nat.two_pow_pos (k.format.mantissaBits - bits)
  have hnext : ((k.format.split w).exponent + 1) * 2 ^ k.format.mantissaBits =
      (k.format.split w).exponent * 2 ^ k.format.mantissaBits + 2 ^ k.format.mantissaBits :=
    Nat.succ_mul _ _
  rw [k.format.magnitude_eq] at hw ⊢
  rw [roundMagnitude_add hb]
  unfold roundedFields roundFields
  dsimp only
  -- The cases in order: nothing to drop, not finite, no carry, a carry into infinity.
  split
  case isTrue hshift =>
    rw [hshift, Nat.pow_zero, halfUp_one, if_neg (Nat.ne_of_lt hw), Nat.mul_one]
  case isFalse hshift =>
    rw [if_neg (Nat.ne_of_lt hexponent), two_pow_sub_one hshift]
    split
    case isTrue hlt =>
      have hfits : halfUp (2 ^ (k.format.mantissaBits - bits)) (k.format.split w).mantissa <
          2 ^ k.format.mantissaBits := by
        rw [← pow_mul_pow_sub 2 hb]
        exact Nat.mul_lt_mul_of_pos_right hlt hunit
      have hle : ((k.format.split w).exponent + 1) * 2 ^ k.format.mantissaBits ≤
          k.format.infinity := Nat.mul_le_mul_right _ hexponent
      rw [if_neg (by omega)]
      rfl
    case isFalse hcarry =>
      rw [← pow_mul_pow_sub 2 hb] at hmantissa
      rw [halfUp_of_carry hunit hmantissa (Nat.not_lt.mp hcarry), pow_mul_pow_sub 2 hb, ← hnext]
      have hlast : ((k.format.split w).exponent + 1) * 2 ^ k.format.mantissaBits =
          k.format.infinity ↔ (k.format.split w).exponent + 1 = k.format.exponentMax :=
        Nat.mul_left_inj (Nat.two_pow_pos _).ne'
      split
      case isTrue hcut => rw [if_pos (hlast.mpr hcut)]
      case isFalse hbelow => rw [if_neg (mt hlast.mp hbelow), Nat.zero_mul, Nat.add_zero, hnext]

theorem exponent_roundedFields_lt (hb : bits ≤ k.format.mantissaBits)
    (he : (k.format.split w).exponent < k.format.exponentMax) :
    (roundedFields k bits w).exponent < k.format.exponentMax := by
  change (roundFields k bits w).exponent < k.format.exponentMax
  have hrounds := rounds_roundFields hb w
  generalize roundFields k bits w = x at hrounds ⊢
  cases hrounds
  case stays => exact he
  case carries hnext => exact hnext

-- What is not finite keeps its exponent, and some of its mantissa if there is a bit for it.
theorem roundedFields_of_exponent (bits : Nat)
    (he : (k.format.split w).exponent = k.format.exponentMax) :
    (roundedFields k bits w).exponent = k.format.exponentMax ∧
      ((k.format.split w).mantissa ≠ 0 → 0 < bits → (roundedFields k bits w).mantissa ≠ 0) := by
  have hunit := Nat.two_pow_pos (k.format.mantissaBits - bits)
  unfold roundedFields roundFields
  dsimp only
  split
  case isTrue => exact ⟨he, fun hne _ => Nat.mul_ne_zero hne (Nat.ne_of_gt hunit)⟩
  case isFalse =>
    split
    case isTrue => exact ⟨he, fun _ _ => Nat.mul_ne_zero Nat.one_ne_zero (Nat.ne_of_gt hunit)⟩
    case isFalse hkept =>
      have hcut (hne : (k.format.split w).mantissa ≠ 0) (hbits : 0 < bits) :
          (k.format.split w).mantissa / 2 ^ (k.format.mantissaBits - bits) ≠ 0 :=
        fun hzero => hkept ⟨hne, hzero, hbits⟩
      exact ⟨he, fun hne hbits => Nat.mul_ne_zero (hcut hne hbits) (Nat.ne_of_gt hunit)⟩

-- What `decode` makes of the code of a word.
def roundWord (k : FloatKind) (bits w : Nat) : Nat :=
  k.format.join (roundedFields k bits w)

section Words

variable (hb : bits ≤ k.format.mantissaBits)

include hb

theorem split_roundWord (w : Nat) : k.format.split (roundWord k bits w) = roundedFields k bits w :=
  Format.split_join (holds_roundedFields hb w)

theorem roundWord_of_dvd (hlt : w < 2 ^ k.datatype.width)
    (hdvd : 2 ^ (k.format.mantissaBits - bits) ∣ (k.format.split w).mantissa) :
    roundWord k bits w = w := by
  rw [k.two_pow_width] at hlt
  rw [roundWord, (roundedFields_eq_split_iff hb).mpr hdvd, Format.join_split hlt]

theorem roundWord_roundWord (w : Nat) :
    roundWord k bits (roundWord k bits w) = roundWord k bits w := by
  have hlt := Format.join_lt (holds_roundedFields hb w)
  refine roundWord_of_dvd hb ?_ ?_
  · rw [k.two_pow_width]
    exact hlt
  · rw [split_roundWord hb]
    exact Nat.dvd_mul_left _ _

theorem negative_roundWord (w : Nat) :
    k.format.negative (roundWord k bits w) = k.format.negative w := by
  have hsign : (roundedFields k bits w).sign = (k.format.split w).sign :=
    (rounds_roundFields hb w).sign_eq
  rw [k.format.negative_eq, split_roundWord hb, hsign, k.format.negative_eq]

theorem magnitude_roundWord (hw : k.format.magnitude w < k.format.infinity) :
    k.format.magnitude (roundWord k bits w) =
      roundMagnitude k.format (k.format.mantissaBits - bits) (k.format.magnitude w) := by
  rw [k.format.magnitude_eq, split_roundWord hb, roundedFields_of_finite hb hw]

end Words

-- Rounding the mantissas of words to so many bits.
structure IsRounding (k : FloatKind) (bits : Nat) (round : Nat → Nat) : Prop where
  negative   : ∀ w, k.format.negative (round w) = k.format.negative w
  finite     : ∀ w, k.format.magnitude w < k.format.infinity →
    k.format.magnitude (round w) < k.format.infinity
  magnitude  : ∀ w, k.format.magnitude w < k.format.infinity → k.format.magnitude (round w) =
    roundMagnitude k.format (k.format.mantissaBits - bits) (k.format.magnitude w)
  infinite   : ∀ w < 2 ^ k.datatype.width, k.format.magnitude w = k.format.infinity → round w = w
  nan        : 0 < bits → ∀ w, k.format.infinity < k.format.magnitude w →
    k.format.infinity < k.format.magnitude (round w)
  idempotent : ∀ w, round (round w) = round w
  monotone   : ∀ v w, k.format.magnitude v ≤ k.format.magnitude w →
    k.format.magnitude w < k.format.infinity →
      k.format.magnitude (round v) ≤ k.format.magnitude (round w)

-- Rounded fields make up rounded words.
theorem isRounding_roundWord (hb : bits ≤ k.format.mantissaBits) :
    IsRounding k bits (roundWord k bits) where
  negative := negative_roundWord hb
  finite := by
    intro w hw
    rw [Format.magnitude_lt_infinity_iff, split_roundWord hb]
    exact exponent_roundedFields_lt hb (Format.magnitude_lt_infinity_iff.mp hw)
  magnitude := fun _ => magnitude_roundWord hb
  infinite := by
    intro w hlt hw
    have hzero : (k.format.split w).mantissa = 0 := by
      have hmagnitude := Format.magnitude_of_infinity_le (Nat.le_of_eq hw.symm)
      omega
    refine roundWord_of_dvd hb hlt ?_
    rw [hzero]
    exact Nat.dvd_zero _
  nan := by
    intro hbits w hw
    have hne : (k.format.split w).mantissa ≠ 0 := by
      have hmagnitude := Format.magnitude_of_infinity_le (Nat.le_of_lt hw)
      omega
    have hlargest := Format.exponent_split_of_infinity_le (Nat.le_of_lt hw)
    have ⟨hexponent, hmantissa⟩ := roundedFields_of_exponent bits hlargest
    rw [k.format.magnitude_eq, split_roundWord hb, hexponent]
    exact Nat.lt_add_of_pos_right (Nat.pos_of_ne_zero (hmantissa hne hbits))
  idempotent := roundWord_roundWord hb
  monotone := by
    intro v w hle hw
    rw [magnitude_roundWord hb hw, magnitude_roundWord hb (Nat.lt_of_le_of_lt hle hw)]
    exact roundMagnitude_mono _ _ hle

-- Just below 2 there is a carry, and the largest number is cut off.
theorem isRounding_four :
    IsRounding .single 4 (roundWord .single 4) ∧
      roundWord .single 4 0x3fffffff = 0x40000000 ∧ roundWord .single 4 0x7f7fffff = 0x7f780000 :=
  ⟨isRounding_roundWord (by decide), by decide, by decide⟩

end GridPress.Stage.Sigbits

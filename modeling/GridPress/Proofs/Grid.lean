import GridPress.Grid
import GridPress.Proofs.Binary.Log
import GridPress.Proofs.Binary.Whole
import GridPress.Proofs.Results

namespace GridPress.Grid

open Binary (Format)

section Range

variable {low high x : Double} {xs : List Double} {excluded : Double → Bool}

theorem isFinite_min {y : Double} (hx : x.isFinite = true) (hy : y.isFinite = true) :
    (x.min y).isFinite = true := by
  rcases x.min_eq_or y with h | h <;> rwa [h]

theorem isFinite_max {y : Double} (hx : x.isFinite = true) (hy : y.isFinite = true) :
    (x.max y).isFinite = true := by
  rcases x.max_eq_or y with h | h <;> rwa [h]

theorem foldl_widen (hlow : low.isFinite = true) (hhigh : high.isFinite = true)
    (hxs : ∀ x ∈ xs, x.isFinite = true) :
    ∃ low' high', xs.foldl widen (some (low, high)) = some (low', high') ∧
      low'.isFinite = true ∧ high'.isFinite = true ∧ low' ≤ low ∧ high ≤ high' ∧
      ∀ x ∈ xs, low' ≤ x ∧ x ≤ high' := by
  induction xs generalizing low high
  case nil =>
    have hl := Double.isNaN_of_isFinite hlow
    have hh := Double.isNaN_of_isFinite hhigh
    exact ⟨low, high, rfl, hlow, hhigh, Double.le_refl hl, Double.le_refl hh, by simp⟩
  case cons x xs ih =>
    have hx := hxs x (by simp)
    have ⟨low', high', hfold, hl, hh, hlow', hhigh', hmem⟩ :=
      ih (isFinite_min hlow hx) (isFinite_max hhigh hx) fun y hy => hxs y (by simp [hy])
    have ⟨hminlow, hminx⟩ :=
      Double.min_le (Double.isNaN_of_isFinite hlow) (Double.isNaN_of_isFinite hx)
    have ⟨hmaxhigh, hmaxx⟩ :=
      Double.le_max (Double.isNaN_of_isFinite hhigh) (Double.isNaN_of_isFinite hx)
    refine ⟨low', high', hfold, hl, hh, Double.le_trans hlow' hminlow,
      Double.le_trans hmaxhigh hhigh', ?_⟩
    intro y hy
    cases List.mem_cons.mp hy
    case inl hy => exact hy ▸ ⟨Double.le_trans hlow' hminx, Double.le_trans hmaxx hhigh'⟩
    case inr hy => exact hmem y hy

-- What is finite and not excluded lies in the range.
theorem exists_range?_eq (hx : x ∈ xs) (hfinite : x.isFinite = true) (he : excluded x = false) :
    ∃ low high, range? excluded xs = some (low, high) ∧ low ≤ x ∧ x ≤ high := by
  unfold range?
  generalize hys : xs.filter (fun x => x.isFinite && !excluded x) = ys
  have hmem : x ∈ ys := by
    rw [← hys, List.mem_filter]
    exact ⟨hx, by simp [hfinite, he]⟩
  have hall : ∀ y ∈ ys, y.isFinite = true := by
    intro y hy
    rw [← hys, List.mem_filter, Bool.and_eq_true] at hy
    exact hy.right.left
  cases ys
  case nil => contradiction
  case cons y ys =>
    have hy := hall y (by simp)
    have hys : ∀ z ∈ ys, z.isFinite = true := fun z hz => hall z (by simp [hz])
    have ⟨low, high, hfold, _, _, hlow, hhigh, hmem'⟩ := foldl_widen hy hy hys
    refine ⟨low, high, hfold, ?_⟩
    cases List.mem_cons.mp hmem
    case inl hxy => exact hxy ▸ ⟨hlow, hhigh⟩
    case inr hxy => exact hmem' x hxy

end Range

-- A grid on which codes of `bits` bits number the points from the origin up to `high`.
structure Covers (g : Grid) (high : Double) (reserved bits : Nat) : Prop where
  step_pos : Double.zero < g.step
  ordered  : g.origin ≤ high
  finite   : (codeCount g.origin high g.half reserved).isFinite = true
  log      : (codeCount g.origin high g.half reserved).ceilLog2 = bits
  bits_le  : bits ≤ maxBits

theorem step_pos {g : Grid} (hfinite : g.half.isFinite = true) (hpos : Double.zero < g.half) :
    Double.zero < g.step := by
  have ⟨hnan, hplace⟩ := Double.zero_lt_iff.mp hpos
  have hscaled := Double.scaled_pos_iff.mpr hplace
  have ⟨htwo, hvalue⟩ := Double.scaled_ofNat (n := 2) (by decide)
  have hone : 0 < Format.double.one := Format.double.one_pos
  rw [Double.zero_lt_iff, step, Double.place_mul htwo hfinite]
  refine ⟨Double.isNaN_mul htwo hfinite, Int.lt_of_lt_of_le hplace ?_⟩
  rw [← Double.roundPlace_scaled hfinite hone]
  refine Double.roundPlace_mono hone ?_
  rw [hvalue, Int.mul_comm]
  exact Int.mul_le_mul_of_nonneg_right (by omega) (by omega)

theorem codeCount_eq (g : Grid) (high : Double) (reserved : Nat) :
    codeCount g.origin high g.half reserved =
      .ofNat 1 + (high - g.origin) / g.step + .ofNat reserved := rfl

theorem covers_of_bitsNeeded {low high half : Double} {reserved bits : Nat}
    (h : bitsNeeded low high half reserved = .ok bits) :
    Covers ⟨low, half⟩ high reserved bits := by
  unfold bitsNeeded at h
  split at h
  case isTrue => exact nomatch h
  case isFalse hhalf =>
    split at h
    case isTrue => exact nomatch h
    case isFalse hrange =>
      simp only [Bool.or_eq_true, Bool.not_eq_true', decide_eq_true_eq, not_or,
        Bool.not_eq_false, Bool.not_eq_true] at hhalf hrange
      have ⟨hfinite, hpos⟩ := hhalf
      have ⟨⟨hlow, hhigh⟩, hle⟩ := hrange
      dsimp only at h
      split at h
      case isFalse => exact nomatch h
      case isTrue hcodes =>
        simp only [Bool.and_eq_true, decide_eq_true_eq] at hcodes
        have hlog := Except.ok.inj h
        exact {
          step_pos :=
            step_pos hfinite (Double.lt_of_not_le (Double.isNaN_of_isFinite hfinite) rfl hpos)
          ordered := Double.le_of_not_lt hhigh hlow hle
          finite := hcodes.left
          log := hlog
          bits_le := hlog ▸ hcodes.right }

-- The code of every number up to `high`, and so many reserved codes on top of it, are numbers of
-- `bits` bits.
def Fits (g : Grid) (high : Double) (reserved bits : Nat) : Prop :=
  ∀ x, g.origin ≤ x → x ≤ high → g.code x + reserved ≤ 2 ^ bits - 1

-- The quotient behind the code of `high` leaves room for its rounding and the reserved codes, as
-- exact numbers: with one half and `reserved` on top, it is less than `2 ^ bits`.
def HasRoom (g : Grid) (high : Double) (reserved bits : Nat) : Prop :=
  2 * ((high - g.origin) / g.step).scaled + ((2 * reserved + 1) * Format.double.one : Nat) <
    (2 ^ (bits + 1) * Format.double.one : Nat)

instance (g : Grid) (high : Double) (reserved bits : Nat) :
    Decidable (g.HasRoom high reserved bits) :=
  inferInstanceAs (Decidable (_ < _))

namespace Covers

variable {g : Grid} {high x : Double} {reserved bits : Nat} (h : g.Covers high reserved bits)

include h

theorem isFinite_points : (.ofNat 1 + (high - g.origin) / g.step : Double).isFinite = true :=
  (Double.isFinite_of_add h.finite).left

theorem isFinite_quotient : ((high - g.origin) / g.step).isFinite = true :=
  (Double.isFinite_of_add h.isFinite_points).right

theorem isFinite_difference : (high - g.origin).isFinite = true :=
  Double.isFinite_of_div h.isFinite_quotient

theorem isFinite_high : high.isFinite = true :=
  (Double.isFinite_of_sub h.isFinite_difference).left

theorem isFinite_origin : g.origin.isFinite = true :=
  (Double.isFinite_of_sub h.isFinite_difference).right

theorem zero_le_quotient : Double.zero ≤ (high - g.origin) / g.step :=
  Double.zero_le_div h.isFinite_difference
    (Double.zero_le_sub h.isFinite_high h.isFinite_origin h.ordered) h.step_pos

theorem scaled_quotient_nonneg : 0 ≤ ((high - g.origin) / g.step).scaled :=
  Double.scaled_nonneg_iff.mpr (Double.zero_le_iff.mp h.zero_le_quotient).right

-- The code of the upper end is the largest.
theorem code_le (hlow : g.origin ≤ x) (hhigh : x ≤ high) : g.code x ≤ g.code high := by
  have hx := Double.isFinite_of_le h.isFinite_origin h.isFinite_high hlow hhigh
  have hpos := Double.zero_le_sub hx h.isFinite_origin hlow
  have hle := Double.sub_le_sub_right hx h.isFinite_high h.isFinite_origin hhigh
  have hdifference := Double.isFinite_of_le rfl h.isFinite_difference hpos hle
  have hqle := Double.div_le_div_right hdifference h.isFinite_difference h.step_pos hle
  exact Double.roundToNat_mono _ hqle

theorem code_high_le :
    (2 * g.code high * Format.double.one : Nat) ≤
      2 * ((high - g.origin) / g.step).scaled + Format.double.one :=
  Double.roundToNat_le _ h.isFinite_quotient h.zero_le_quotient

theorem code_high_lt (hreserved : reserved < 2 ^ 53) : g.code high < 2 ^ 63 := by
  by_contra hge
  have ⟨hone, hone'⟩ := Double.scaled_ofNat (n := 1) (by decide)
  have ⟨hr, hr'⟩ := Double.scaled_ofNat hreserved
  have hquotient : ((high - g.origin) / g.step).scaled ≤
      (.ofNat 1 + (high - g.origin) / g.step : Double).scaled :=
    Double.scaled_le_of_le
      (Double.le_add_of_scaled_le hone h.isFinite_quotient h.isFinite_quotient (by omega))
  have hcount : (.ofNat 1 + (high - g.origin) / g.step : Double).scaled ≤
      (codeCount g.origin high g.half reserved).scaled := by
    rw [codeCount_eq]
    exact Double.scaled_le_of_le
      (Double.le_add_of_scaled_le h.isFinite_points hr h.isFinite_points (by omega))
  have hlog := Double.scaled_lt_of_ceilLog2_le (h.log ▸ h.bits_le)
  have hcode := h.code_high_le
  have hmul := Nat.mul_le_mul_right Format.double.one (Nat.mul_le_mul_left 2 (Nat.not_lt.mp hge))
  simp only [maxBits] at hlog
  omega

-- Below 48 bits, the reserved codes fit above the others, given that logarithms are rounded
-- correctly.
theorem code_high_add_lt (hbits : bits < 48) (hreserved : reserved < 2 ^ 53) :
    g.code high + reserved < 2 ^ bits := by
  by_contra hge
  have hcode := h.code_high_le
  have ⟨hone, hone'⟩ := Double.scaled_ofNat (n := 1) (by decide)
  have ⟨hr, hr'⟩ := Double.scaled_ofNat hreserved
  have hpow : 2 ^ (bits + 1) ≤ 2 ^ 48 := Nat.pow_le_pow_right (by decide) hbits
  -- The grid points are at least this many halves.
  obtain ⟨a, ha⟩ : ∃ a, a = 2 ^ (bits + 1) + 1 - 2 * reserved := ⟨_, rfl⟩
  have hfirst : (a * Format.double.one : Nat) ≤
      2 * (.ofNat 1 + (high - g.origin) / g.step : Double).scaled := by
    refine Double.half_le_add (by omega) hone h.isFinite_quotient ?_
    have hle : a ≤ 2 * g.code high + 1 := by
      rw [Nat.pow_succ] at ha
      omega
    have hmul := Nat.mul_le_mul_right Format.double.one hle
    rw [Nat.add_mul] at hmul
    omega
  have hsecond : ((2 ^ (bits + 1) + 1) * Format.double.one : Nat) ≤
      2 * (codeCount g.origin high g.half reserved).scaled := by
    rw [codeCount_eq]
    refine Double.half_le_add (by omega) h.isFinite_points hr ?_
    have hle : 2 ^ (bits + 1) + 1 ≤ a + 2 * reserved := by omega
    have hmul := Nat.mul_le_mul_right Format.double.one hle
    rw [Nat.add_mul _ (2 * reserved), Nat.mul_assoc] at hmul
    rw [hr']
    omega
  exact Nat.lt_irrefl _ (h.log ▸ Double.lt_ceilLog2 hbits hsecond)

-- The code of the upper end is the quotient rounded to the nearest, as it is far from the largest
-- size.
theorem code_high_lt_iff {n : Nat} (hn : n ≤ 2 ^ 53) :
    g.code high < n ↔ 2 * ((high - g.origin) / g.step).scaled + Format.double.one <
      (2 * n * Format.double.one : Nat) := by
  have hone : 0 < 2 * Format.double.one := Nat.mul_pos (by decide) Format.double.one_pos
  have hmax : n ≤ Size.max := Nat.le_trans hn (by decide)
  have hquotient := h.scaled_quotient_nonneg
  rw [code, Double.roundToNat_eq _ h.isFinite_quotient]
  generalize ((high - g.origin) / g.step).scaled = q at *
  calc Nat.min Size.max ((2 * q.toNat + Format.double.one) / (2 * Format.double.one)) < n
    _ ↔ (2 * q.toNat + Format.double.one) / (2 * Format.double.one) < n := by
      change min _ _ < n ↔ _
      omega
    _ ↔ 2 * q.toNat + Format.double.one < 2 * n * Format.double.one := by
      rw [Nat.div_lt_iff_lt_mul hone, Nat.mul_left_comm, Nat.mul_assoc]
    _ ↔ 2 * q + Format.double.one < (2 * n * Format.double.one : Nat) := by
      generalize 2 * n * Format.double.one = m
      generalize Format.double.one = one
      omega

-- The codes and the reserved ones fit if and only if there is room for them.
theorem code_high_add_lt_iff :
    g.code high + reserved < 2 ^ bits ↔ g.HasRoom high reserved bits := by
  have hpow : 2 ^ bits ≤ 2 ^ 53 := Nat.pow_le_pow_right (by decide) h.bits_le
  by_cases hle : reserved ≤ 2 ^ bits
  case pos =>
    obtain ⟨n, hn⟩ := Nat.exists_eq_add_of_le hle
    have hmul : 2 ^ (bits + 1) * Format.double.one =
        2 * n * Format.double.one + 2 * reserved * Format.double.one := by
      rw [Nat.pow_succ, hn]
      ring
    have hiff := h.code_high_lt_iff (n := n) (by omega)
    rw [HasRoom, hmul, Nat.add_mul]
    generalize 2 * n * Format.double.one = a at *
    generalize 2 * reserved * Format.double.one = b at *
    generalize Format.double.one = one at *
    omega
  case neg =>
    have hmul := Nat.mul_le_mul_right Format.double.one
      (Nat.mul_le_mul_left 2 (Nat.le_of_lt (Nat.not_le.mp hle)))
    have hquotient := h.scaled_quotient_nonneg
    rw [HasRoom, Nat.add_mul, Nat.pow_succ']
    omega

-- What a double does not count exactly needs more bits.
theorem reserved_lt (hbits : bits < 52) : reserved < 2 ^ 53 := by
  by_contra hge
  have ⟨hexact, hscaled⟩ := Double.scaled_ofNat (n := 2 ^ 52) (by decide)
  have hreserved : Double.ofNat (2 ^ 52) ≤ .ofNat reserved := Double.ofNat_le_ofNat (by omega)
  have hpoints : 0 ≤ (.ofNat 1 + (high - g.origin) / g.step : Double).scaled := by
    have hzero : Double.zero.scaled = 0 := rfl
    have ⟨hone, hscaled⟩ := Double.scaled_ofNat (n := 1) (by decide)
    have hquotient := h.scaled_quotient_nonneg
    rw [← hzero]
    exact Double.scaled_le_of_le
      (Double.le_add_of_scaled_le hone h.isFinite_quotient rfl (by omega))
  have hcount : (Double.ofNat (2 ^ 52)).scaled ≤
      (codeCount g.origin high g.half reserved).scaled := by
    have hscaled := Double.scaled_le_of_le hreserved
    rw [codeCount_eq]
    exact Double.scaled_le_of_le (Double.le_add_of_scaled_le h.isFinite_points
      (Double.isFinite_of_add h.finite).right hexact (by omega))
  have hlog := Double.scaled_lt_of_ceilLog2_le (Nat.le_of_eq h.log)
  have hmul := Nat.mul_le_mul_right Format.double.one
    (Nat.pow_le_pow_right (n := 2) (by decide) (show bits + 1 ≤ 52 from hbits))
  omega

theorem hasRoom (hbits : bits < 48) : g.HasRoom high reserved bits :=
  h.code_high_add_lt_iff.mp (h.code_high_add_lt hbits (h.reserved_lt (by omega)))

-- The code of the upper end decides, as it is the largest.
theorem fits_iff : g.Fits high reserved bits ↔ g.HasRoom high reserved bits := by
  rw [← h.code_high_add_lt_iff]
  constructor
  case mp =>
    intro hfits
    have hle := hfits high h.ordered (Double.le_refl (Double.isNaN_of_isFinite h.isFinite_high))
    have hpow := Nat.two_pow_pos bits
    omega
  case mpr =>
    intro hlt x hlow hhigh
    have hle := h.code_le hlow hhigh
    omega

end Covers

-- The bits that are needed suffice if and only if there is room. There is below 48 bits, where a
-- correctly rounded logarithm loses nothing.
theorem fits_iff_of_bitsNeeded {low high half : Double} {reserved bits : Nat}
    (h : bitsNeeded low high half reserved = .ok bits) :
    (Fits ⟨low, half⟩ high reserved bits ↔ HasRoom ⟨low, half⟩ high reserved bits) ∧
      (bits < 48 → HasRoom ⟨low, half⟩ high reserved bits) :=
  have hcovers := covers_of_bitsNeeded h
  ⟨hcovers.fits_iff, hcovers.hasRoom⟩

end GridPress.Grid

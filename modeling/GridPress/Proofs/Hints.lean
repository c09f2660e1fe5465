import GridPress.Codec.Bundled
import GridPress.Proofs.Binary.Whole
import GridPress.Proofs.Results

namespace GridPress

namespace Hints

variable {t : Datatype} {h : Hints} {m n : Int}

theorem bitsOfDecimals_of_nonpos (hn : n ≤ 0) : bitsOfDecimals n = n :=
  if_pos hn

theorem bitsOfDecimals_nonneg (hn : 0 < n) : 0 ≤ bitsOfDecimals n := by
  rw [bitsOfDecimals, if_neg (Int.not_le.mpr hn)]
  exact Int.natCast_nonneg _

theorem decimalsOfBits_of_nonpos (hn : n ≤ 0) : decimalsOfBits n = n :=
  if_pos hn

theorem decimalsOfBits_nonneg (hn : 0 < n) : 0 ≤ decimalsOfBits n := by
  unfold decimalsOfBits
  rw [if_neg (Int.not_le.mpr hn)]
  dsimp only
  split
  case isTrue => exact Int.add_nonneg (Int.natCast_nonneg _) (by decide)
  case isFalse => exact Int.natCast_nonneg _

theorem bitsOfDecimals_mono (hmn : m ≤ n) : bitsOfDecimals m ≤ bitsOfDecimals n := by
  by_cases hm : 0 < m
  case pos =>
    have hn : 0 < n := Int.lt_of_lt_of_le hm hmn
    have hscale : Double.zero < bitsPerDecimal := by decide
    have hproduct := Double.mul_le_mul_right (z := bitsPerDecimal) (by decide) hscale
      (Double.ofInt_le_ofInt hmn)
    rw [bitsOfDecimals, bitsOfDecimals, if_neg (Int.not_le.mpr hm), if_neg (Int.not_le.mpr hn)]
    exact Int.ofNat_le.mpr (Double.ceilToNat_mono precisionLimit hproduct)
  case neg =>
    rw [bitsOfDecimals_of_nonpos (Int.not_lt.mp hm)]
    by_cases hn : 0 < n
    case pos =>
      have := bitsOfDecimals_nonneg hn
      omega
    case neg => rwa [bitsOfDecimals_of_nonpos (Int.not_lt.mp hn)]

theorem decimalsOfBits_mono (hmn : m ≤ n) : decimalsOfBits m ≤ decimalsOfBits n := by
  by_cases hm : 0 < m
  case pos =>
    have hn : 0 < n := Int.lt_of_lt_of_le hm hmn
    have hscale : Double.zero < decimalsPerBit := by decide
    have hproduct := Double.mul_le_mul_right (z := decimalsPerBit) (by decide) hscale
      (Double.ofInt_le_ofInt hmn)
    have hfloor := Double.floorToNat_mono precisionLimit hproduct
    rw [decimalsOfBits, decimalsOfBits, if_neg (Int.not_le.mpr hm), if_neg (Int.not_le.mpr hn)]
    generalize (Double.ofInt m * decimalsPerBit).floorToNat precisionLimit = a at *
    generalize (Double.ofInt n * decimalsPerBit).floorToNat precisionLimit = b at *
    -- Where both are rounded down to the same digits, the larger one is moved up with the other.
    cases Nat.lt_or_eq_of_le hfloor
    case inl hlt => dsimp only; split <;> split <;> omega
    case inr heq => subst heq; dsimp only; split <;> split <;> omega
  case neg =>
    rw [decimalsOfBits_of_nonpos (Int.not_lt.mp hm)]
    by_cases hn : 0 < n
    case pos =>
      have := decimalsOfBits_nonneg hn
      omega
    case neg => rwa [decimalsOfBits_of_nonpos (Int.not_lt.mp hn)]

-- The bits that carry some digits amount to these digits again.
theorem le_decimalsOfBits (hn : n ≤ 15) : n ≤ decimalsOfBits (bitsOfDecimals n) := by
  have hall : ∀ k ≤ 15, ((k : Nat) : Int) ≤ decimalsOfBits (bitsOfDecimals (k : Nat)) := by
    decide +kernel
  by_cases hpos : 0 < n
  case pos =>
    obtain ⟨k, rfl⟩ := Int.eq_ofNat_of_zero_le (Int.le_of_lt hpos)
    exact hall k (by omega)
  case neg =>
    have hnonpos := Int.not_lt.mp hpos
    rw [bitsOfDecimals_of_nonpos hnonpos, decimalsOfBits_of_nonpos hnonpos]

def HasFinestPrecision (h : Hints) : Prop :=
  h.significantDigits = finestPrecision ∨ h.significantBits = finestPrecision

def KeepsFinestPrecision (h : Hints) : Prop :=
  (h.significantDigits = finestPrecision ∧ h.significantBits ≤ 0) ∨
    (h.significantBits = finestPrecision ∧ h.significantDigits ≤ 0)

theorem keeps_raiseBits_iff : h.raiseBits.KeepsFinestPrecision ↔ h.KeepsFinestPrecision := by
  unfold raiseBits KeepsFinestPrecision finestPrecision
  split
  case isTrue => rfl
  case isFalse =>
    by_cases hpos : 0 < h.significantDigits
    case pos =>
      have hbits := bitsOfDecimals_nonneg hpos
      dsimp only
      omega
    case neg =>
      dsimp only
      rw [bitsOfDecimals_of_nonpos (Int.not_lt.mp hpos)]
      omega

theorem bits_raiseBits_nonneg (hpos : 0 < h.raiseBits.significantDigits) :
    0 ≤ h.raiseBits.significantBits := by
  unfold raiseBits at hpos ⊢
  split at hpos
  case isTrue hzero => exact absurd hpos (by omega)
  case isFalse hne =>
    rw [if_neg hne]
    exact Int.le_trans (bitsOfDecimals_nonneg hpos) (Int.le_max_right _ _)

theorem hasFinest_raiseDigits_iff (hbits : 0 < h.significantDigits → 0 ≤ h.significantBits) :
    h.raiseDigits.HasFinestPrecision ↔ h.KeepsFinestPrecision := by
  unfold raiseDigits HasFinestPrecision KeepsFinestPrecision finestPrecision
  split
  case isTrue => omega
  case isFalse =>
    dsimp only
    by_cases hpos : 0 < h.significantBits
    case pos =>
      have hdigits := decimalsOfBits_nonneg hpos
      split <;> omega
    case neg =>
      rw [decimalsOfBits_of_nonpos (Int.not_lt.mp hpos)]
      split <;> omega

def tolerances (h : Hints) : List Double :=
  [h.absoluteTolerance, h.absoluteFloor, h.relativeTolerance]

-- Whether some tolerance leaves no room.
def HasFinestTolerance (h : Hints) : Prop :=
  ∃ x ∈ h.tolerances, ¬x.equal .zero = true ∧ x ≤ finestTolerance

def ExceedsType (t : Datatype) (h : Hints) : Prop :=
  maxDigits t < h.significantDigits ∨ maxBits t < h.significantBits

theorem tolerances_clampPrecision (t : Datatype) (h : Hints) :
    (h.clampPrecision t).tolerances = h.tolerances := by
  unfold clampPrecision
  split <;> rfl

theorem tolerances_raiseBits (h : Hints) : h.raiseBits.tolerances = h.tolerances := by
  unfold raiseBits
  split <;> rfl

theorem tolerances_raiseDigits (h : Hints) : h.raiseDigits.tolerances = h.tolerances := by
  unfold raiseDigits
  split <;> rfl

theorem tolerances_openTolerances (h : Hints) :
    h.openTolerances.tolerances = h.tolerances.map openTolerance :=
  rfl

theorem zero_lt_of_finest_lt {x : Double} (hx : finestTolerance < x) : .zero < x := by
  have hfinest : Double.zero < finestTolerance := by decide
  exact Double.lt_of_lt_of_le hfinest (Double.le_of_lt hx)

theorem openTolerance_of_finest_lt {x : Double} (hx : finestTolerance < x) :
    openTolerance x = x := by
  have ⟨_, hpos⟩ := Double.zero_lt_iff.mp (zero_lt_of_finest_lt hx)
  have hzero : ¬x.equal .zero = true := by
    rw [Double.equal_zero_iff]
    omega
  exact if_neg hzero

theorem isNaN_openTolerance (x : Double) : (openTolerance x).isNaN = x.isNaN := by
  unfold openTolerance
  split
  case isTrue hzero =>
    rw [(Double.equal_zero_iff.mp hzero).left]
    rfl
  case isFalse => rfl

theorem keeps_clampPrecision_iff :
    (h.clampPrecision t).KeepsFinestPrecision ↔ h.ExceedsType t ∨ h.KeepsFinestPrecision := by
  unfold clampPrecision
  split
  case isTrue hexceeds =>
    exact ⟨fun _ => .inl hexceeds, fun _ => .inl ⟨rfl, Int.negSucc_le_zero 0⟩⟩
  case isFalse hexceeds => exact (or_iff_right hexceeds).symm

theorem digits_raiseBits (h : Hints) : h.raiseBits.significantDigits = h.significantDigits := by
  unfold raiseBits
  split <;> rfl

theorem bits_raiseDigits (h : Hints) : h.raiseDigits.significantBits = h.significantBits := by
  unfold raiseDigits
  split <;> rfl

theorem bitsOfDecimals_maxDigits_le (t : Datatype) : bitsOfDecimals (maxDigits t) ≤ maxBits t := by
  cases t <;> decide +kernel

theorem bits_raiseBits_le (hfits : ¬h.ExceedsType t) :
    h.raiseBits.significantBits ≤ maxBits t := by
  have ⟨hdigits, hbits⟩ := not_or.mp hfits
  unfold raiseBits
  split
  case isTrue => exact Int.not_lt.mp hbits
  case isFalse =>
    refine Int.max_le.mpr ⟨Int.not_lt.mp hbits, ?_⟩
    exact Int.le_trans (bitsOfDecimals_mono (Int.not_lt.mp hdigits)) (bitsOfDecimals_maxDigits_le t)

theorem bitsOfDecimals_le_raiseBits (hpos : 0 < h.significantDigits) :
    bitsOfDecimals h.significantDigits ≤ h.raiseBits.significantBits := by
  rw [raiseBits, if_neg (Int.ne_of_gt hpos)]
  exact Int.le_max_right _ _

theorem digits_raiseDigits_le (hdigits : h.significantDigits ≤ 15) (hn : 0 ≤ n)
    (hbits : h.raiseBits.significantBits ≤ n) :
    h.raiseBits.raiseDigits.significantDigits ≤ decimalsOfBits n := by
  have hnonneg : 0 ≤ decimalsOfBits n :=
    decimalsOfBits_of_nonpos (Int.le_refl 0) ▸ decimalsOfBits_mono hn
  have hasked : h.significantDigits ≤ decimalsOfBits n := by
    by_cases hpos : 0 < h.significantDigits
    case pos =>
      calc h.significantDigits
        _ ≤ decimalsOfBits (bitsOfDecimals h.significantDigits) := le_decimalsOfBits hdigits
        _ ≤ decimalsOfBits h.raiseBits.significantBits :=
          decimalsOfBits_mono (bitsOfDecimals_le_raiseBits hpos)
        _ ≤ decimalsOfBits n := decimalsOfBits_mono hbits
    case neg => omega
  have hraised := decimalsOfBits_mono hbits
  unfold raiseDigits
  split
  case isTrue => rwa [digits_raiseBits]
  case isFalse =>
    dsimp only
    split
    case isTrue => exact hraised
    case isFalse => exact Int.max_le.mpr ⟨hraised, digits_raiseBits h ▸ hasked⟩

theorem requiresLossless_iff :
    h.requiresLossless = true ↔ h.HasFinestTolerance ∨ h.HasFinestPrecision := by
  simp [requiresLossless, HasFinestTolerance, tolerances, HasFinestPrecision, isFinest, or_assoc]

theorem requiresLossless_resolved_iff :
    ((h.clampPrecision t).raiseBits).raiseDigits.requiresLossless = true ↔
      h.HasFinestTolerance ∨ h.ExceedsType t ∨ h.KeepsFinestPrecision := by
  rw [requiresLossless_iff, HasFinestTolerance, tolerances_raiseDigits, tolerances_raiseBits,
    tolerances_clampPrecision, ← HasFinestTolerance,
    hasFinest_raiseDigits_iff bits_raiseBits_nonneg, keeps_raiseBits_iff, keeps_clampPrecision_iff]

end Hints

namespace Context

variable {t : Datatype} {h : Hints} {c : Context}

theorem make_eq_ok [Codecs] (hc : make t h = .ok c) :
    c.datatype = t ∧ c.hints = (((h.clampPrecision t).raiseBits).raiseDigits).openTolerances ∧
      c.lossless = (((h.clampPrecision t).raiseBits).raiseDigits).requiresLossless := by
  have ⟨_, _, hc⟩ := Result.bind_eq_ok_iff.mp hc
  rw [← Except.ok.inj hc]
  exact ⟨rfl, rfl, rfl⟩

-- A context keeps the tolerances of its hints, apart from those of no interest.
theorem tolerances_of_make [Codecs] (hc : make t h = .ok c) :
    c.datatype = t ∧ c.hints.tolerances = h.tolerances.map Hints.openTolerance := by
  have ⟨hdatatype, hhints, _⟩ := make_eq_ok hc
  rw [hhints, Hints.tolerances_openTolerances, Hints.tolerances_raiseDigits,
    Hints.tolerances_raiseBits, Hints.tolerances_clampPrecision]
  exact ⟨hdatatype, rfl⟩

-- A tolerance that no error meets requires lossless compression.
theorem not_lt_zero_of_make [Codecs] (hc : make t h = .ok c) (hl : c.lossless = false) :
    ∀ x ∈ c.hints.tolerances, ¬x < .zero := by
  have ⟨_, _, hlossless⟩ := make_eq_ok hc
  have hroom : ¬h.HasFinestTolerance := by
    intro hfinest
    rw [hlossless, Hints.requiresLossless_resolved_iff.mpr (.inl hfinest)] at hl
    contradiction
  rw [(tolerances_of_make hc).right]
  intro _ hopen
  obtain ⟨x, hx, rfl⟩ := List.mem_map.mp hopen
  unfold Hints.openTolerance
  split
  case isTrue => decide
  case isFalse hzero =>
    intro hlt
    have hfinest : Double.zero ≤ Hints.finestTolerance := by decide
    exact hroom ⟨x, hx, hzero, Double.le_trans (Double.le_of_lt hlt) hfinest⟩

-- Where lossless compression is not required, the digits are those of bits that the type carries.
theorem precision_of_make [Codecs] (hc : make t h = .ok c) (hl : c.lossless = false) :
    c.hints.significantBits ≤ Hints.maxBits t ∧
      ∀ n, 0 ≤ n → c.hints.significantBits ≤ n →
        c.hints.significantDigits ≤ Hints.decimalsOfBits n := by
  have ⟨_, hhints, hlossless⟩ := make_eq_ok hc
  have hfits : ¬h.ExceedsType t := by
    intro hexceeds
    rw [hlossless, Hints.requiresLossless_resolved_iff.mpr (.inr (.inl hexceeds))] at hl
    contradiction
  have hclamp : h.clampPrecision t = h := if_neg hfits
  have hdigits : (Hints.maxDigits t : Int) ≤ 15 := by cases t <;> decide
  have hbits : c.hints.significantBits = h.raiseBits.significantBits := by
    rw [hhints, hclamp]
    exact Hints.bits_raiseDigits _
  rw [hbits]
  refine ⟨Hints.bits_raiseBits_le hfits, fun n hn hle => ?_⟩
  rw [hhints, hclamp]
  exact Hints.digits_raiseDigits_le
    (Int.le_trans (Int.not_lt.mp (not_or.mp hfits).left) hdigits) hn hle

-- The finest precision requires lossless compression if the other precision is not positive.
theorem lossless_make_iff [Codecs] (hc : make t h = .ok c) :
    c.lossless = true ↔
      h.HasFinestTolerance ∨ h.ExceedsType t ∨ h.KeepsFinestPrecision := by
  have ⟨_, _, hc⟩ := Result.bind_eq_ok_iff.mp hc
  rw [← Hints.requiresLossless_resolved_iff, ← Except.ok.inj hc]

theorem lossless_make_double :
    ∃ c, make .double { significantDigits := Hints.finestPrecision } = .ok c ∧
      c.lossless = true := by
  have hkeeps : Hints.KeepsFinestPrecision { significantDigits := Hints.finestPrecision } :=
    .inl ⟨rfl, Int.le_refl 0⟩
  exact ⟨_, rfl, (lossless_make_iff rfl).mpr (.inr (.inr hkeeps))⟩

-- Next to five bits, the finest number of digits is taken for the smaller precision and is lost.
theorem not_lossless_of_finestPrecision :
    ¬∀ (t : Datatype) (h : Hints) (c : Context), make t h = .ok c →
      (c.lossless = true ↔
        h.HasFinestTolerance ∨ h.HasFinestPrecision ∨ h.ExceedsType t) := by
  intro hall
  have hlossless := (hall .double
    { significantDigits := Hints.finestPrecision, significantBits := 5 } _ rfl).mpr
    (.inr (.inl (.inl rfl)))
  exact absurd hlossless (by decide +kernel)

end Context
end GridPress

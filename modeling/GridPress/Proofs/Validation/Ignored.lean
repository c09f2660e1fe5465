import GridPress.Proofs.Validation.Floor

namespace GridPress

namespace Double

theorem largest_lt_iff {x : Double} : largest < x ↔ x = infinity := by
  have hlargest : largest.place = (Binary.Format.double.infinity - 1 : Nat) := rfl
  have hinfinity : infinity.place = (Binary.Format.double.infinity : Nat) := rfl
  constructor
  case mp =>
    intro hlt
    have ⟨_, hnan, hplace⟩ := lt_iff.mp hlt
    have hle := natAbs_place_le hnan
    have hpos : 0 < Binary.Format.double.infinity := by decide
    exact eq_of_place_eq (by omega) (by omega)
  case mpr =>
    rintro rfl
    exact lt_infinity rfl

end Double

theorem Hints.openTolerance_of_equal_zero {x : Double} (hx : x.equal .zero = true) :
    openTolerance x = .largest :=
  if_pos hx

namespace Accuracy

variable {t : Datatype} {p : Nat × Nat} {floor : Double} {original restored : Bytes}

-- Integers are never infinitely far apart.
theorem isFinite_measuredError (ht : t.kind? = none) (p : Nat × Nat) :
    (measuredError t p).isFinite = true := by
  have hbound : Binary.Format.double.nearest
      (2 * ((Double.ofInt (2 ^ 63)).scaled - (Double.ofInt (-2 ^ 63)).scaled).natAbs) 1 <
        Binary.Format.double.infinity := by
    decide +kernel
  have hscaled : ∀ w, (Double.ofInt (-2 ^ 63)).scaled ≤ (Element.toDouble t w).scaled ∧
      (Element.toDouble t w).scaled ≤ (Double.ofInt (2 ^ 63)).scaled := by
    intro w
    have hle := Element.natAbs_toInt_le_of_integer t w
    rw [Element.toDouble_of_integer ht]
    exact ⟨Double.scaled_le_of_le (Double.ofInt_le_ofInt (by omega)),
      Double.scaled_le_of_le (Double.ofInt_le_ofInt (by omega))⟩
  have hx := hscaled p.1
  have hy := hscaled p.2
  rw [Double.isFinite_iff_place, place_measuredError ht, Int.natAbs_natCast]
  refine Nat.lt_of_le_of_lt (Binary.Format.double.nearest_mono Nat.one_pos ?_) hbound
  omega

-- Whether the error of an element is judged by its proportion to the element, and this, in percent,
-- is infinite. That of zero is.
def ProportionOverflows (t : Datatype) (floor : Double) (p : Nat × Nat) : Prop :=
  let x := Element.toDouble t p.1
  let y := Element.toDouble t p.2
  ¬Agrees t p ∧ floor ≤ measuredError t p ∧
    (x.equal .zero = true ∨ (.ofNat 1 - y / x).abs * .ofNat 100 = .infinity)

theorem counts_comparison_iff :
    (comparison t p).Counts floor ↔ ¬Agrees t p ∧ floor ≤ measuredError t p := by
  rw [Comparison.Counts, equal_zero_error_comparison_iff]
  refine and_congr_right fun hdiffer => ?_
  rw [error_comparison_of_not_agrees hdiffer]

theorem largest_lt_relativeError_iff :
    Double.largest < (comparison t p).relativeError * .ofNat 100 ↔
      (Element.toDouble t p.1).equal .zero = true ∨
        (.ofNat 1 - Element.toDouble t p.2 / Element.toDouble t p.1).abs * .ofNat 100 =
          .infinity := by
  have hinfinite : Double.infinity * .ofNat 100 = .infinity := Double.mul_hundred.right.right
  rw [Double.largest_lt_iff, Comparison.relativeError, original_comparison,
    reconstructed_comparison]
  by_cases hzero : (Element.toDouble t p.1).equal .zero = true
  case pos =>
    rw [if_pos hzero]
    exact iff_of_true hinfinite (.inl hzero)
  case neg => rw [if_neg hzero, or_iff_right hzero]

theorem largest_lt_relative_measured_iff :
    Double.largest < (measured t floor original restored).relative ↔
      ∃ p ∈ pairs t original restored, ProportionOverflows t floor p := by
  have hnone : ¬Double.largest < Double.zero * .ofNat 100 := by
    rw [Double.mul_hundred.right.left]
    decide
  have hlt : Double.largest < (measured t floor original restored).relative ↔ _ :=
    lt_relative_iff Double.isFinite_hundred Double.zero_lt_hundred
  rw [hlt, or_iff_right hnone, exists_comparison_iff]
  refine exists_congr fun p => and_congr_right fun _ => ?_
  rw [counts_comparison_iff, largest_lt_relativeError_iff, and_assoc]
  rfl

end Accuracy

namespace Validation

section

variable [Codecs] {t : Datatype} {h : Hints} {made c : Context} {dims : Dims}
  {original restored stream : Bytes}

-- Tolerances of no interest are missed where an error is infinite, which no absolute error of
-- integers is. That for the floor is not reported behind an error that is finite.
theorem ignored_missed_iff (hmake : Context.make t h = .ok made) (hkept : made.KeptBy c)
    (hl : c.lossless = false) (hd : Stream.decompress t dims stream = .ok restored)
    (hlength : original.length = restored.length) (hm : restored.length ≤ Size.maxArray) :
    ∃ r, validate c dims original stream = .ok r ∧
      (h.absoluteTolerance.equal .zero = true → (.absoluteTolerance ∈ r.failures ↔
        ∃ p ∈ Accuracy.pairs t original restored, Accuracy.measuredError t p = .infinity)) ∧
      (h.relativeTolerance.equal .zero = true → (.relativeTolerance ∈ r.failures ↔
        ∃ p ∈ Accuracy.pairs t original restored,
          Accuracy.ProportionOverflows t (Hints.openTolerance h.absoluteFloor) p)) ∧
      (h.absoluteFloor.equal .zero = true → (.absoluteFloor ∈ r.failures ↔
        (∃ p ∈ Accuracy.pairs t original restored, Accuracy.measuredError t p = .infinity) ∧
          ∀ p ∈ Accuracy.pairs t original restored,
            Accuracy.measuredError t p < .largest → Accuracy.Agrees t p)) ∧
      (t.kind? = none →
        ∀ p ∈ Accuracy.pairs t original restored, Accuracy.measuredError t p ≠ .infinity) := by
  obtain ⟨rfl, habsolute, hfloor, hrelative⟩ := Context.tolerances_of_keptBy hmake hkept
  have hnonneg : Double.zero ≤ .largest := by decide
  have ⟨r, hreport, hmissed⟩ := exists_validate_eq_ok hl hd hlength hm
  rw [hfloor] at hmissed
  refine ⟨r, hreport, fun hzero => ?absolute, fun hzero => ?relative, fun hzero => ?floor,
    fun ht p _ hinfinite => ?integer⟩
  case absolute =>
    rw [hmissed _ (by decide), isMissed, habsolute, Hints.openTolerance_of_equal_zero hzero,
      decide_eq_true_eq, Accuracy.lt_absolute_measured_iff hnonneg]
    simp only [Double.largest_lt_iff]
  case relative =>
    rw [hmissed _ (by decide), isMissed, hrelative, Hints.openTolerance_of_equal_zero hzero,
      decide_eq_true_eq]
    exact Accuracy.largest_lt_relative_measured_iff
  case floor =>
    rw [hmissed _ (by decide), isMissed, hfloor, Hints.openTolerance_of_equal_zero hzero,
      decide_eq_true_eq, Accuracy.lt_floor_measured_iff hnonneg]
    simp only [Double.largest_lt_iff]
  case integer =>
    have hfinite := Accuracy.isFinite_measuredError ht p
    rw [hinfinite] at hfinite
    contradiction

end

-- Plus infinity and the number 4.
def infinityAndFour : Bytes :=
  [0, 0, 0, 0, 0, 0, 240, 127] ++ four

-- A stream of the number 4, twice.
def fours : Bytes :=
  1 :: four ++ four ++ [0]

-- Nothing is of interest, and yet the error of infinity is reported.
theorem ignored_missed_infinity :
    let c : Context := ⟨.double, Hints.openTolerances {}, false, none⟩
    ∃ r, Context.make .double {} = .ok c ∧
      Stream.decompress .double .two fours = .ok (four ++ four) ∧
      validate c .two infinityAndFour fours = .ok r ∧ .absoluteTolerance ∈ r.failures ∧
      .relativeTolerance ∉ r.failures ∧ .absoluteFloor ∈ r.failures := by
  intro c
  have hmake : Context.make .double {} = .ok c := rfl
  have hd : Stream.decompress .double .two fours = .ok (four ++ four) := by decide +kernel
  have hlength : infinityAndFour.length = (four ++ four).length := by decide
  have ⟨r, hreport, habsolute, hrelative, hfloor, _⟩ := ignored_missed_iff hmake (.refl c) rfl hd
    hlength (by decide)
  refine ⟨r, hmake, hd, hreport, (habsolute (by decide +kernel)).mpr (by decide +kernel),
    (hrelative (by decide +kernel)).not.mpr ?_,
    (hfloor (by decide +kernel)).mpr (by decide +kernel)⟩
  unfold Accuracy.ProportionOverflows
  decide +kernel

end Validation

-- Only errors of at least 1 are judged by their proportion, and no proportion is asked for.
def Hints.floorOne : Hints where
  absoluteFloor := .ofWord 0x3ff0000000000000

namespace Validation

-- The proportion of an error to zero is reported, although it is of no interest.
theorem not_ignored_met :
    ¬∀ (t : Datatype) (h : Hints) (c : Context) (dims : Dims) (original stream : Bytes)
      (r : Report), Context.make t h = .ok c → c.lossless = false →
      validate c dims original stream = .ok r →
      (h.absoluteTolerance.equal .zero = true → .absoluteTolerance ∉ r.failures) ∧
        (h.relativeTolerance.equal .zero = true → .relativeTolerance ∉ r.failures) ∧
        (h.absoluteFloor.equal .zero = true → .absoluteFloor ∉ r.failures) := by
  intro hall
  let c : Context := ⟨.int8, Hints.floorOne.openTolerances, false, none⟩
  let one : Double := .ofWord 0x3ff0000000000000
  have hreport : validate c .one [0] [1, 1, 0] =
      .ok ⟨⟨one, .infinity, one, 0, 0⟩, [.relativeTolerance], false⟩ := by decide +kernel
  have ⟨_, hmet, _⟩ := hall .int8 .floorOne c .one [0] [1, 1, 0] _ rfl rfl hreport
  exact hmet (by decide) (by decide)

end Validation
end GridPress

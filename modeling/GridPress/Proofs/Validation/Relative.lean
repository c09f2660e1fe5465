import GridPress.Proofs.Accuracy
import GridPress.Proofs.Hints
import GridPress.Proofs.Session

namespace GridPress

namespace Double

variable {x y : Double}

theorem isFinite_hundred : (ofNat 100).isFinite = true :=
  isFinite_ofNat (by decide)

theorem zero_lt_hundred : zero < ofNat 100 :=
  mul_hundred.left

-- The relative error in percent is a number unless both numbers are infinities.
theorem isNaN_percent (hx : x.isNaN = false) (hy : y.isNaN = false) (hzero : ¬x.equal zero = true) :
    ((ofNat 1 - y / x).abs * ofNat 100).isNaN = !(y.isFinite || x.isFinite) := by
  have hone : (ofNat 1).isFinite = true := isFinite_ofNat (by decide)
  rw [isNaN_mul_right isFinite_hundred zero_lt_hundred, isNaN_abs, isNaN_sub_of_isFinite hone,
    isNaN_div_of_not_zero hy hx hzero]

end Double

namespace Accuracy

variable {k : FloatKind} {t floor p z : Double} {v w : Nat} {vs ws : List Nat} {worst : Worst}
  {c : Comparison} {cs : List Comparison}

-- Whether an error is judged by its proportion.
def Comparison.Counts (floor : Double) (c : Comparison) : Prop :=
  ¬c.error.equal .zero = true ∧ floor ≤ c.error

-- Whether the error between an element and its reconstruction is tolerated when it is judged by
-- its proportion to the element, in percent. An error below the floor is. Where one of them is no
-- number there is no error to speak of, and between infinities no proportion.
def RelativelyWithin (k : FloatKind) (floor p : Double) (v w : Nat) : Prop :=
  let x := k.toDouble v
  let y := k.toDouble w
  x.equal y = true ∨ x.isNaN = true ∨ y.isNaN = true ∨
    (x.isFinite = false ∧ y.isFinite = false) ∨ (x - y).abs < floor ∨
    (x.equal .zero = false ∧ (.ofNat 1 - y / x).abs * .ofNat 100 ≤ p)

section Scaled

variable (hz : z.isFinite = true) (hpos : .zero < z)

include hz hpos

theorem lt_relative_record_iff :
    t < (worst.record floor c).relative * z ↔
      t < worst.relative * z ∨ (c.Counts floor ∧ t < c.relativeError * z) := by
  unfold Worst.record Comparison.Counts
  by_cases hzero : c.error.equal .zero = true
  case pos => simp [hzero]
  case neg =>
    by_cases hfloor : floor ≤ c.error
    case pos =>
      simp only [if_neg hzero, if_pos hfloor, Double.lt_max_mul_iff hz hpos]
      simp [hzero, hfloor]
    case neg => simp [hzero, hfloor]

-- The worst relative error exceeds a bound as soon as one of those that count does.
theorem lt_relative_iff :
    t < (cs.foldl (Worst.record floor) worst).relative * z ↔
      t < worst.relative * z ∨ ∃ c ∈ cs, c.Counts floor ∧ t < c.relativeError * z :=
  foldl_record_iff (t < ·.relative * z) (fun c => c.Counts floor ∧ t < c.relativeError * z)
    fun _ _ => lt_relative_record_iff hz hpos

end Scaled

-- An error counts if it is one between numbers that are not equal, and not below the floor.
theorem counts_compareFloats_iff (hfloor : floor.isNaN = false) :
    (compareFloats k v w).Counts floor ↔
      ¬(k.toDouble v).equal (k.toDouble w) = true ∧ (k.toDouble v).isNaN = false ∧
        (k.toDouble w).isNaN = false ∧ ¬(k.toDouble v - k.toDouble w).abs < floor := by
  unfold Comparison.Counts
  by_cases hequal : (k.toDouble v).equal (k.toDouble w) = true
  case pos =>
    have herror : (compareFloats k v w).error = .zero := if_pos hequal
    have hzero : Double.zero.equal .zero = true := rfl
    simp [herror, hzero, hequal]
  case neg =>
    have herror : (compareFloats k v w).error = (k.toDouble v - k.toDouble w).abs := if_neg hequal
    have hzero : ¬(k.toDouble v - k.toDouble w).abs.equal .zero = true := by
      rw [Double.equal_zero_abs]
      exact mt Double.equal_of_sub hequal
    have hnumbers : (k.toDouble v - k.toDouble w).isNaN = false ↔
        (k.toDouble v).isNaN = false ∧ (k.toDouble w).isNaN = false := by
      simpa only [not_or, Bool.not_eq_true] using not_congr (Double.isNaN_sub_iff hequal)
    rw [herror, and_iff_right hzero, and_iff_right hequal, Double.le_iff_not_lt hfloor,
      Double.isNaN_abs, hnumbers, and_assoc]

-- An error exceeds a tolerance unless it is one between infinities or within it. That of a zero
-- exceeds every tolerance.
theorem lt_relativeError_iff (hfinite : p.isFinite = true)
    (hx : c.original.isNaN = false) (hy : c.reconstructed.isNaN = false) :
    p < c.relativeError * .ofNat 100 ↔
      ¬(c.original.isFinite = false ∧ c.reconstructed.isFinite = false) ∧
        ¬(c.original.equal .zero = false ∧
          (.ofNat 1 - c.reconstructed / c.original).abs * .ofNat 100 ≤ p) := by
  cases hzero : c.original.equal .zero
  case true =>
    have hrelative : c.relativeError = .infinity := if_pos hzero
    have hinfinite : Double.infinity * .ofNat 100 = .infinity := Double.mul_hundred.right.right
    have horiginal : c.original.isFinite = true := by
      rw [Double.isFinite_iff_place, (Double.equal_zero_iff.mp hzero).right]
      decide
    rw [hrelative, hinfinite]
    simp [Double.lt_infinity hfinite, horiginal]
  case false =>
    have hnonzero : ¬c.original.equal .zero = true := by simp [hzero]
    have hrelative : c.relativeError = (.ofNat 1 - c.reconstructed / c.original).abs :=
      if_neg hnonzero
    have hnan := Double.isNaN_percent hx hy hnonzero
    rw [hrelative, and_iff_right rfl]
    cases hnumber : c.reconstructed.isFinite || c.original.isFinite
    case true =>
      rw [hnumber] at hnan
      rw [Double.lt_iff_not_le (Double.isNaN_of_isFinite hfinite) hnan]
      refine (and_iff_right ?_).symm
      rintro ⟨hx, hy⟩
      simp [hx, hy] at hnumber
    case false =>
      rw [hnumber] at hnan
      have ⟨hy, hx⟩ := Bool.or_eq_false_iff.mp hnumber
      exact iff_of_false (Double.not_lt_of_isNaN hnan) fun h => h.left ⟨hx, hy⟩

theorem counts_and_lt_iff (hfinite : p.isFinite = true) (hfloor : floor.isNaN = false) :
    (compareFloats k v w).Counts floor ∧ p < (compareFloats k v w).relativeError * .ofNat 100 ↔
      ¬RelativelyWithin k floor p v w := by
  rw [counts_compareFloats_iff hfloor, RelativelyWithin]
  simp only [not_or, Bool.not_eq_true]
  constructor
  case mp =>
    rintro ⟨⟨hequal, hx, hy, hbelow⟩, hlt⟩
    have ⟨hinfinite, hpercent⟩ := (lt_relativeError_iff hfinite hx hy).mp hlt
    exact ⟨hequal, hx, hy, hinfinite, hbelow, hpercent⟩
  case mpr =>
    rintro ⟨hequal, hx, hy, hinfinite, hbelow, hpercent⟩
    exact ⟨⟨hequal, hx, hy, hbelow⟩,
      (lt_relativeError_iff hfinite hx hy).mpr ⟨hinfinite, hpercent⟩⟩

-- Over arrays of equal length, the worst relative error stays within a tolerance if all errors do.
theorem not_lt_relative_iff (hp : .zero ≤ p) (hfinite : p.isFinite = true)
    (hfloor : floor.isNaN = false) (hl : vs.length = ws.length) (bits : Nat) :
    ¬p < ((List.zipWith (compareFloats k) vs ws).foldl (Worst.record floor)
      { bits := bits }).relative * .ofNat 100 ↔
      List.Forall₂ (RelativelyWithin k floor p) vs ws := by
  have hzero : Double.zero * .ofNat 100 = .zero := Double.mul_hundred.right.left
  rw [lt_relative_iff Double.isFinite_hundred Double.zero_lt_hundred, hzero,
    or_iff_right (Double.not_lt_zero hp)]
  exact not_exists_comparison_iff hl fun _ _ => counts_and_lt_iff hfinite hfloor

end Accuracy

-- What was called on a context does not change the tolerances that it was made with.
theorem Context.tolerances_of_keptBy [Codecs] {t : Datatype} {h : Hints} {made c : Context}
    (hmake : make t h = .ok made) (hkept : made.KeptBy c) :
    c.datatype = t ∧ c.hints.absoluteTolerance = Hints.openTolerance h.absoluteTolerance ∧
      c.hints.absoluteFloor = Hints.openTolerance h.absoluteFloor ∧
      c.hints.relativeTolerance = Hints.openTolerance h.relativeTolerance := by
  have ⟨hdatatype, htolerances⟩ := tolerances_of_make hmake
  rw [← hkept.hints] at htolerances
  rw [← hkept.datatype] at hdatatype
  exact ⟨hdatatype, by simpa [Hints.tolerances] using htolerances⟩

namespace Validation

section

variable [Codecs] {t : Datatype} {h : Hints} {k : FloatKind} {made c : Context} {dims : Dims}
  {original stream : Bytes} {r : Report}

theorem relativeTolerance_met_iff (hmake : Context.make t h = .ok made) (hkept : made.KeptBy c)
    (hk : t.kind? = some k) (hl : c.lossless = false)
    (hfinest : Hints.finestTolerance < h.relativeTolerance)
    (hlargest : h.relativeTolerance < .largest) (hfloor : h.absoluteFloor.isNaN = false)
    (hv : validate c dims original stream = .ok r) :
    ∃ restored, Stream.decompress t dims stream = .ok restored ∧
      (.relativeTolerance ∉ r.failures ↔
        List.Forall₂ (Accuracy.RelativelyWithin k (Hints.openTolerance h.absoluteFloor)
            h.relativeTolerance) (Element.split t original) (Element.split t restored)) := by
  obtain ⟨rfl, _, hopen, hrelative⟩ := Context.tolerances_of_keptBy hmake hkept
  rw [Hints.openTolerance_of_finest_lt hfinest] at hrelative
  have hfinite : h.relativeTolerance.isFinite = true :=
    Double.isFinite_of_le (by decide +kernel) (by decide +kernel) (Double.le_of_lt hfinest)
      (Double.le_of_lt hlargest)
  have hpos := Double.le_of_lt (Hints.zero_lt_of_finest_lt hfinest)
  obtain ⟨restored, a, hrestored, ha, rfl⟩ := validate_eq_ok_iff.mp hv
  refine ⟨restored, hrestored, ?_⟩
  have ⟨hlength, ha⟩ := Accuracy.determine_eq_ok ha
  have hmissed : Requirement.relativeTolerance ∈ failures c a original restored ↔
      h.relativeTolerance < a.relative := by
    simp [failures, hl, tolerances, isMissed, hrelative]
  have hwords : (Element.split c.datatype original).length =
      (Element.split c.datatype restored).length := by
    rw [Element.length_split, Element.length_split, hlength]
  rw [← Hints.isNaN_openTolerance] at hfloor
  rw [hmissed, ← Accuracy.not_lt_relative_iff hpos hfinite hfloor hwords
    (Accuracy.bestBits c.datatype), ha, hopen]
  simp only [Accuracy.comparisons, hk, Accuracy.Worst.summary]

end

end Validation

-- An error of half a number is tolerated, and one less than 2.
def Hints.half : Hints where
  relativeTolerance := .ofWord 0x4049000000000000
  absoluteFloor     := .ofWord 0x4000000000000000

def Hints.onePercent : Hints where
  relativeTolerance := .ofWord 0x3ff0000000000000

namespace Validation

-- The numbers 4, NaN, infinity, 1 and -8.
def fiveLarger : Bytes :=
  [0, 0, 0, 0, 0, 0, 16, 64, 0, 0, 0, 0, 0, 0, 248, 127, 0, 0, 0, 0, 0, 0, 240, 127,
    0, 0, 0, 0, 0, 0, 240, 63, 0, 0, 0, 0, 0, 0, 32, 192]

-- A stream of 6, NaN, infinity, 2 and -9, of which 2 is below the floor.
def nearLarger : Bytes :=
  [1, 0, 0, 0, 0, 0, 0, 24, 64, 0, 0, 0, 0, 0, 0, 248, 127, 0, 0, 0, 0, 0, 0, 240, 127,
    0, 0, 0, 0, 0, 0, 0, 64, 0, 0, 0, 0, 0, 0, 34, 192, 0]

theorem relativeTolerance_met_five :
    let c : Context := ⟨.double, Hints.half.openTolerances, false, none⟩
    ∃ r restored, Context.make .double .half = .ok c ∧
      validate c .five fiveLarger nearLarger = .ok r ∧ r.failures = [] ∧
      Stream.decompress .double .five nearLarger = .ok restored ∧
      List.Forall₂ (Accuracy.RelativelyWithin .double (Hints.openTolerance Hints.half.absoluteFloor)
        Hints.half.relativeTolerance) (Element.split .double fiveLarger)
        (Element.split .double restored) := by
  intro c
  have hmake : Context.make .double .half = .ok c := rfl
  have hreport : validate c .five fiveLarger nearLarger =
      .ok ⟨⟨.ofWord 0x4000000000000000, .ofWord 0x4049000000000000, .ofWord 0x3ff0000000000000,
        1, 1⟩, [], false⟩ := by decide +kernel
  have ⟨restored, hrestored, hmet⟩ := relativeTolerance_met_iff (k := .double) hmake (.refl c) rfl
    rfl (by decide +kernel) (by decide +kernel) (by decide +kernel) hreport
  exact ⟨_, restored, hmake, hreport, rfl, hrestored, hmet.mp List.not_mem_nil⟩

def four : Bytes :=
  [0, 0, 0, 0, 0, 0, 16, 64]

-- A stream of the number 6.
def six : Bytes :=
  [1, 0, 0, 0, 0, 0, 0, 24, 64, 0]

-- Without a floor, an error of half a number passes for one percent, as no error is judged.
theorem not_relativelyWithin_of_passed :
    ¬∀ (t : Datatype) (h : Hints) (c : Context) (k : FloatKind) (dims : Dims)
      (original stream : Bytes) (r : Report),
      Context.make t h = .ok c → t.kind? = some k → c.lossless = false →
      Hints.finestTolerance < h.relativeTolerance → h.relativeTolerance < .largest →
      h.absoluteFloor.equal .zero = true → validate c dims original stream = .ok r →
      .relativeTolerance ∉ r.failures →
      ∃ restored, Stream.decompress t dims stream = .ok restored ∧
        List.Forall₂ (fun v w => (k.toDouble v).isFinite = true → (k.toDouble w).isFinite = true →
            if (k.toDouble v).equal .zero then (k.toDouble w).equal .zero = true
            else (.ofNat 1 - k.toDouble w / k.toDouble v).abs * .ofNat 100 ≤ h.relativeTolerance)
          (Element.split t original) (Element.split t restored) := by
  intro hall
  let c : Context := ⟨.double, Hints.onePercent.openTolerances, false, none⟩
  let two : Double := .ofWord 0x4000000000000000
  have hmake : Context.make .double .onePercent = .ok c := rfl
  have hreport : validate c .one four six = .ok ⟨⟨two, .zero, two, 1, 1⟩, [], false⟩ := by
    decide +kernel
  have ⟨restored, hrestored, hclose⟩ := hall .double .onePercent c .double .one four six _ hmake
    rfl rfl (by decide +kernel) (by decide +kernel) rfl hreport List.not_mem_nil
  have hsix : Stream.decompress .double .one six = .ok [0, 0, 0, 0, 0, 0, 24, 64] := by
    decide +kernel
  obtain rfl := Except.ok.inj (hsix.symm.trans hrestored)
  exact absurd hclose (by decide +kernel)

end Validation
end GridPress

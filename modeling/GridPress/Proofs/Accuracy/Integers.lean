import GridPress.Proofs.Accuracy

namespace GridPress

namespace Datatype

variable {t : Datatype} {v w : Nat}

theorem natAbs_toInt_le (t : Datatype) (w : Nat) : (t.toInt w).natAbs ≤ 2 ^ (t.width - 1) := by
  have hwidth : 2 ^ t.width = 2 * 2 ^ (t.width - 1) := by cases t <;> rfl
  have hlow := Int.le_bmod (x := w) (Nat.two_pow_pos t.width)
  have hhigh := Int.bmod_lt (x := w) (Nat.two_pow_pos t.width)
  unfold toInt
  omega

-- No two words of a type stand for one integer.
theorem eq_of_toInt_eq (hv : v < 2 ^ t.width) (hw : w < 2 ^ t.width) (h : t.toInt v = t.toInt w) :
    v = w := by
  have hmod : (v : Int) % (2 ^ t.width : Nat) = (w : Int) % (2 ^ t.width : Nat) := by
    rw [← Int.bmod_emod (x := v), ← Int.bmod_emod (x := w)]
    exact congrArg (· % _) h
  rw [Int.emod_eq_of_lt (by omega) (by omega), Int.emod_eq_of_lt (by omega) (by omega)] at hmod
  exact Int.ofNat.inj hmod

end Datatype

namespace Element

variable {t : Datatype}

theorem toDouble_of_integer (ht : t.kind? = none) (w : Nat) :
    toDouble t w = .ofInt (t.toInt w) := by
  rw [toDouble, ht]

theorem natAbs_toInt_le_of_integer (t : Datatype) (w : Nat) : (t.toInt w).natAbs ≤ 2 ^ 63 :=
  Nat.le_trans (t.natAbs_toInt_le w) (Nat.pow_le_pow_right (by decide) (by cases t <;> decide))

-- Integers are numbers.
theorem isFinite_toDouble (ht : t.kind? = none) (w : Nat) : (toDouble t w).isFinite = true := by
  rw [toDouble_of_integer ht]
  exact Double.isFinite_ofInt (natAbs_toInt_le_of_integer t w)

end Element

namespace Accuracy

variable {t : Datatype} {floor m x : Double} {p : Nat × Nat} {original restored : Bytes}
  {cs : List Comparison} {worst : Worst} {n : Nat}

-- The double nearest to the error between two integers.
def exactError (t : Datatype) (p : Nat × Nat) : Double :=
  .ofNat (t.toInt p.1 - t.toInt p.2).natAbs

-- The error between the doubles nearest to two integers.
def measuredError (t : Datatype) (p : Nat × Nat) : Double :=
  (Element.toDouble t p.1 - Element.toDouble t p.2).abs

-- The elements of an array, each with its reconstruction.
def pairs (t : Datatype) (original restored : Bytes) : List (Nat × Nat) :=
  (Element.split t original).zip (Element.split t restored)

-- What can be asked of the worst error: it is none only if the arrays are identical, and no error
-- is larger.
structure Faithful (t : Datatype) (original restored : Bytes) (a : Accuracy) : Prop where
  exact  : a.absolute.equal .zero = true → restored = original
  covers : ∀ p ∈ pairs t original restored, exactError t p ≤ a.absolute

theorem place_exactError (t : Datatype) (p : Nat × Nat) :
    (exactError t p).place = Binary.Format.double.nearest
      ((t.toInt p.1 - t.toInt p.2).natAbs * Binary.Format.double.one) 1 :=
  Double.place_ofUnits _ _ _

-- Only equal integers have no error.
theorem toInt_eq_of_exactError (h : exactError t p ≤ .zero) : t.toInt p.1 = t.toInt p.2 := by
  have hzero : Double.zero.place = 0 := rfl
  have hone : 0 < Binary.Format.double.one := Binary.Format.double.one_pos
  have ⟨_, _, hplace⟩ := Double.le_iff.mp h
  have hround : Double.roundPlace
      ((t.toInt p.1 - t.toInt p.2).natAbs * Binary.Format.double.one : Nat) 1 = 0 := by
    rw [place_exactError, hzero] at hplace
    rw [Double.roundPlace, if_neg (Int.not_lt.mpr (Int.natCast_nonneg _)), Int.natAbs_natCast]
    omega
  have hnone := Int.natCast_eq_zero.mp (Double.eq_zero_of_roundPlace hround)
  have herror := (Nat.mul_eq_zero.mp hnone).resolve_right (Nat.ne_of_gt hone)
  omega

section Pair

variable (ht : t.kind? = none)

include ht

theorem isNaN_measuredError (p : Nat × Nat) : (measuredError t p).isNaN = false := by
  have hx := Element.isFinite_toDouble ht p.1
  have hy := Element.isFinite_toDouble ht p.2
  rw [measuredError, Double.isNaN_abs, Double.isNaN_sub hx hy]

theorem place_measuredError (p : Nat × Nat) :
    (measuredError t p).place = Binary.Format.double.nearest
      ((Element.toDouble t p.1).scaled - (Element.toDouble t p.2).scaled).natAbs 1 := by
  have hx := Element.isFinite_toDouble ht p.1
  have hy := Element.isFinite_toDouble ht p.2
  rw [measuredError, Double.place_abs, Double.place_sub hx hy]
  unfold Double.roundPlace
  split <;> omega

theorem zero_le_measuredError (p : Nat × Nat) : .zero ≤ measuredError t p := by
  rw [Double.zero_le_iff, place_measuredError ht]
  exact ⟨isNaN_measuredError ht p, Int.natCast_nonneg _⟩

theorem ofNat_le_measuredError
    (h : n * Binary.Format.double.one ≤
      ((Element.toDouble t p.1).scaled - (Element.toDouble t p.2).scaled).natAbs) :
    .ofNat n ≤ measuredError t p := by
  rw [Double.le_iff, place_measuredError ht, Double.ofNat, Double.place_ofUnits]
  exact ⟨Double.isNaN_ofUnits _ _ _, isNaN_measuredError ht p,
    Int.ofNat_le.mpr (Binary.Format.double.nearest_mono Nat.one_pos h)⟩

-- Between integers that are doubles, the error is measured as it is.
theorem exactError_le_measuredError
    (hx : (Element.toDouble t p.1).scaled = t.toInt p.1 * Binary.Format.double.one)
    (hy : (Element.toDouble t p.2).scaled = t.toInt p.2 * Binary.Format.double.one) :
    exactError t p ≤ measuredError t p := by
  apply ofNat_le_measuredError ht
  rw [hx, hy, ← Int.sub_mul, Int.natAbs_mul]
  exact Nat.le_refl _

-- Each integer moves by at most 512 when it is turned into a double.
theorem ofNat_sub_le_measuredError (p : Nat × Nat) :
    .ofNat ((t.toInt p.1 - t.toInt p.2).natAbs - 1024) ≤ measuredError t p := by
  have hx := Double.ofInt_within (Element.natAbs_toInt_le_of_integer t p.1)
  have hy := Double.ofInt_within (Element.natAbs_toInt_le_of_integer t p.2)
  rw [← Element.toDouble_of_integer ht] at hx hy
  have herror : ((t.toInt p.1 - t.toInt p.2).natAbs - 1024) * Binary.Format.double.one =
      (t.toInt p.1 * Binary.Format.double.one - t.toInt p.2 * Binary.Format.double.one).natAbs -
        1024 * Binary.Format.double.one := by
    rw [Nat.sub_mul, ← Int.sub_mul, Int.natAbs_mul]
    rfl
  apply ofNat_le_measuredError ht
  rw [herror]
  generalize t.toInt p.1 * Binary.Format.double.one = a at hx ⊢
  generalize t.toInt p.2 * Binary.Format.double.one = b at hy ⊢
  generalize Binary.Format.double.one = one at *
  omega

theorem equal_zero_measuredError_iff :
    (measuredError t p).equal .zero = true ↔
      (Element.toDouble t p.1).equal (Element.toDouble t p.2) = true := by
  have hx := Element.isFinite_toDouble ht p.1
  have hy := Element.isFinite_toDouble ht p.2
  rw [measuredError, Double.equal_zero_abs]
  exact ⟨Double.equal_of_sub, Double.sub_of_equal hx hy⟩

-- Integers that are not larger than the mantissa are doubles.
theorem scaled_toDouble {w : Nat} (hw : (t.toInt w).natAbs ≤ 2 ^ 53) :
    (Element.toDouble t w).scaled = t.toInt w * Binary.Format.double.one := by
  rw [Element.toDouble_of_integer ht]
  cases Nat.eq_or_lt_of_le hw
  case inl heq => exact Double.scaled_ofInt (q := 1) (e := 53) (by decide) (by decide) (by omega)
  case inr hlt => exact Double.scaled_ofInt (e := 0) hlt (by decide) (Nat.mul_one _).symm

end Pair

theorem le_absolute_iff :
    x ≤ (cs.foldl (Worst.record floor) worst).absolute ↔
      x ≤ worst.absolute ∨ ∃ c ∈ cs, x ≤ c.error := by
  refine foldl_record_iff (x ≤ ·.absolute) (x ≤ ·.error) fun worst c => ?_
  rw [absolute_record, Double.le_max_iff]

-- Whether `m` is the largest of the measured errors, or zero if there are none.
def IsWorst (t : Datatype) (ps : List (Nat × Nat)) (m : Double) : Prop :=
  ∀ x, x ≤ m ↔ x ≤ .zero ∨ ∃ p ∈ ps, x ≤ measuredError t p

section Arrays

variable {ps : List (Nat × Nat)}

theorem exists_determine_eq_ok (ht : t.kind? = none) (hd : original.length % t.size = 0)
    (hl : restored.length = original.length) (floor : Double) :
    ∃ a, determine t floor original restored = .ok a ∧
      IsWorst t (pairs t original restored) a.absolute := by
  refine ⟨_, determine_of_length hd hl floor, fun x => ?_⟩
  have hpairs : ∀ vs ws : List Nat,
      List.zipWith (compareInts t) vs ws = (vs.zip ws).map fun p => compareInts t p.1 p.2 :=
    fun _ _ => List.map_uncurry_zip_eq_zipWith.symm
  simp only [Worst.summary, le_absolute_iff, comparisons, ht, hpairs, List.mem_map,
    exists_exists_and_eq_and]
  rfl

variable (ht : t.kind? = none) (hm : IsWorst t ps m)

include ht hm

theorem measuredError_le (hp : p ∈ ps) : measuredError t p ≤ m :=
  (hm _).mpr (.inr ⟨p, hp, Double.le_refl (isNaN_measuredError ht p)⟩)

-- The worst error is as large as another one if one of those that are measured is.
theorem exactError_le_iff (hp : p ∈ ps) :
    exactError t p ≤ m ↔ ∃ q ∈ ps, exactError t p ≤ measuredError t q := by
  rw [hm]
  refine or_iff_right_of_imp fun hzero => ⟨p, hp, ?_⟩
  exact Double.le_trans hzero (zero_le_measuredError ht p)

theorem equal_zero_iff_forall :
    m.equal .zero = true ↔
      ∀ p ∈ ps, (Element.toDouble t p.1).equal (Element.toDouble t p.2) = true := by
  have hnonneg : .zero ≤ m := (hm _).mpr (.inl (Double.le_refl rfl))
  have ⟨hnan, hplace⟩ := Double.zero_le_iff.mp hnonneg
  rw [Double.equal_zero_iff]
  constructor
  case mp =>
    rintro ⟨_, hzero⟩ p hp
    have ⟨_, _, hle⟩ := Double.le_iff.mp (measuredError_le ht hm hp)
    have ⟨herror, hge⟩ := Double.zero_le_iff.mp (zero_le_measuredError ht p)
    rw [← equal_zero_measuredError_iff ht, Double.equal_zero_iff]
    exact ⟨herror, by omega⟩
  case mpr =>
    intro hequal
    have hle : m ≤ .zero := by
      rcases (hm m).mp (Double.le_refl hnan) with hle | ⟨p, hp, hle⟩
      · exact hle
      · have hzero := (equal_zero_measuredError_iff ht).mpr (hequal p hp)
        exact Double.le_trans hle (Double.le_of_equal hzero)
    have ⟨_, _, hzero⟩ := Double.le_iff.mp hle
    exact ⟨hnan, Int.le_antisymm hzero hplace⟩

end Arrays

-- Arrays whose integers are equal are identical.
theorem eq_of_forall_pairs (hd : original.length % t.size = 0)
    (hl : restored.length = original.length)
    (h : ∀ p ∈ pairs t original restored, t.toInt p.1 = t.toInt p.2) : restored = original := by
  have hwords : List.Forall₂ (· = ·) (Element.split t original) (Element.split t restored) := by
    rw [List.forall₂_iff_zip]
    refine ⟨by rw [Element.length_split, Element.length_split, hl], fun {v w} hvw => ?_⟩
    have ⟨hv, hw⟩ := List.of_mem_zip hvw
    exact Datatype.eq_of_toInt_eq (Element.lt_of_mem_split hv) (Element.lt_of_mem_split hw)
      (h _ hvw)
  rw [List.forall₂_eq_eq_eq] at hwords
  rw [← Element.join_split hd, hwords, Element.join_split (hl ▸ hd)]

theorem faithful_iff {a : Accuracy} (hd : original.length % t.size = 0)
    (hl : restored.length = original.length) :
    Faithful t original restored a ↔
      ∀ p ∈ pairs t original restored, exactError t p ≤ a.absolute := by
  refine ⟨Faithful.covers, fun h => ⟨fun hzero => ?_, h⟩⟩
  refine eq_of_forall_pairs hd hl fun p hp => toInt_eq_of_exactError ?_
  exact Double.le_trans (h p hp) (Double.le_of_equal hzero)

-- Integers are compared as the doubles that are nearest to them. This tells of errors of at most
-- 32 bits all that can be asked for, of others all but 1024, and it tells two arrays apart as far
-- as their doubles differ.
theorem determine_integers (ht : t.kind? = none) (hd : original.length % t.size = 0)
    (hl : restored.length = original.length) (floor : Double) :
    ∃ a, determine t floor original restored = .ok a ∧
      (t ≠ .int64 → Faithful t original restored a) ∧
      (Faithful t original restored a ↔ ∀ p ∈ pairs t original restored,
        ∃ q ∈ pairs t original restored, exactError t p ≤ measuredError t q) ∧
      (a.absolute.equal .zero = true ↔ ∀ p ∈ pairs t original restored,
        (Element.toDouble t p.1).equal (Element.toDouble t p.2) = true) ∧
      (∀ p ∈ pairs t original restored, .ofNat ((t.toInt p.1 - t.toInt p.2).natAbs - 1024) ≤
        a.absolute) ∧
      ∀ p ∈ pairs t original restored, (t.toInt p.1).natAbs ≤ 2 ^ 53 →
        (t.toInt p.2).natAbs ≤ 2 ^ 53 → exactError t p ≤ a.absolute := by
  have ⟨a, ha, hm⟩ := exists_determine_eq_ok ht hd hl floor
  have hheld : ∀ p ∈ pairs t original restored, (t.toInt p.1).natAbs ≤ 2 ^ 53 →
      (t.toInt p.2).natAbs ≤ 2 ^ 53 → exactError t p ≤ a.absolute := by
    intro p hp hx hy
    have herror := exactError_le_measuredError ht (scaled_toDouble ht hx) (scaled_toDouble ht hy)
    exact Double.le_trans herror (measuredError_le ht hm hp)
  refine ⟨a, ha, fun hnarrow => ?_, ?_, equal_zero_iff_forall ht hm, fun p hp => ?_, hheld⟩
  · have hwidth : t.width - 1 ≤ 53 := by
      revert ht hnarrow
      cases t <;> decide
    have hle : ∀ w, (t.toInt w).natAbs ≤ 2 ^ 53 := fun w =>
      Nat.le_trans (t.natAbs_toInt_le w) (Nat.pow_le_pow_right (by decide) hwidth)
    exact (faithful_iff hd hl).mpr fun p hp => hheld p hp (hle _) (hle _)
  · rw [faithful_iff hd hl]
    exact forall₂_congr fun p hp => exactError_le_iff ht hm hp
  · exact Double.le_trans (ofNat_sub_le_measuredError ht p) (measuredError_le ht hm hp)

def wide : List Nat :=
  [2 ^ 63, 2 ^ 53 + 1]

def wideRestored : List Nat :=
  [2 ^ 63 - 1, 2 ^ 53]

-- The least integer comes back as the largest one, an error that hides the other one.
theorem determine_integers_wide :
    let original := Element.join .int64 wide
    let restored := Element.join .int64 wideRestored
    ∃ a, determine .int64 .zero original restored = .ok a ∧
      Faithful .int64 original restored a ∧ ¬a.absolute.equal .zero = true ∧
      .ofNat (2 ^ 64 - 1 - 1024) ≤ a.absolute := by
  have hwhole : (Element.join .int64 wide).length % Datatype.int64.size = 0 := by decide +kernel
  have hlength : (Element.join .int64 wideRestored).length = (Element.join .int64 wide).length := by
    decide +kernel
  have ⟨a, ha, _, hfaithful, hzero, hle, _⟩ := determine_integers rfl hwhole hlength .zero
  have herror : (Datatype.int64.toInt (2 ^ 63) - Datatype.int64.toInt (2 ^ 63 - 1)).natAbs =
      2 ^ 64 - 1 := by decide +kernel
  have hlargest := hle (2 ^ 63, 2 ^ 63 - 1) (by decide +kernel)
  rw [herror] at hlargest
  exact ⟨a, ha, hfaithful.mpr (by decide +kernel), hzero.not.mpr (by decide +kernel), hlargest⟩

-- Two integers whose error of 1 is not noticed.
theorem not_faithful_of_determine :
    ¬∀ (t : Datatype) (original restored : Bytes) (floor : Double) (a : Accuracy),
      t.kind? = none → original.length % t.size = 0 → restored.length = original.length →
      determine t floor original restored = .ok a → Faithful t original restored a := by
  intro hall
  have hdetermine : determine .int64 .zero (Element.join .int64 [2 ^ 53])
      (Element.join .int64 [2 ^ 53 + 1]) = .ok ⟨.zero, .zero, .zero, 63, 19⟩ := by decide +kernel
  have hfaithful := hall .int64 _ _ _ _ rfl (by decide +kernel) (by decide +kernel) hdetermine
  exact absurd (hfaithful.exact (by decide +kernel)) (by decide +kernel)

end Accuracy
end GridPress

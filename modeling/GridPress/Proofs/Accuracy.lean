import GridPress.Codec.Bundled
import GridPress.Proofs.Stage.Placement
import GridPress.Proofs.Stream.Framing
import GridPress.Validation
import Mathlib.Data.List.Zip

namespace GridPress

namespace Accuracy

variable {k : FloatKind} {t floor : Double} {v w : Nat} {vs ws : List Nat} {worst : Worst}
  {c : Comparison} {cs : List Comparison}

-- Whether the error between an element and its reconstruction is tolerated. Where one of them is no
-- number there is no error to speak of.
def Within (k : FloatKind) (t : Double) (v w : Nat) : Prop :=
  (k.toDouble v).equal (k.toDouble w) = true ∨ (k.toDouble v).isNaN = true ∨
    (k.toDouble w).isNaN = true ∨ (k.toDouble v - k.toDouble w).abs ≤ t

theorem absolute_record (floor : Double) (worst : Worst) (c : Comparison) :
    (worst.record floor c).absolute = worst.absolute.max c.error := by
  unfold Worst.record
  split
  case isTrue => rfl
  case isFalse => split <;> rfl

-- The worst figures become bad, and stay so, with the first comparison that makes them bad.
theorem foldl_record_iff (bad : Worst → Prop) (worse : Comparison → Prop)
    (hrecord : ∀ worst c, bad (worst.record floor c) ↔ bad worst ∨ worse c) :
    bad (cs.foldl (Worst.record floor) worst) ↔ bad worst ∨ ∃ c ∈ cs, worse c := by
  induction cs generalizing worst
  case nil => simp
  case cons c cs ih =>
    rw [List.foldl_cons, ih, hrecord, or_assoc, List.exists_mem_cons_iff]

-- The worst error exceeds a bound as soon as one of the errors does.
theorem lt_absolute_iff :
    t < (cs.foldl (Worst.record floor) worst).absolute ↔
      t < worst.absolute ∨ ∃ c ∈ cs, t < c.error := by
  refine foldl_record_iff (t < ·.absolute) (t < ·.error) fun worst c => ?_
  rw [absolute_record, Double.lt_max_iff]

theorem lt_error_iff (ht : .zero ≤ t) : t < (compareFloats k v w).error ↔ ¬Within k t v w := by
  unfold Within
  by_cases hequal : (k.toDouble v).equal (k.toDouble w) = true
  case pos =>
    have herror : (compareFloats k v w).error = .zero := if_pos hequal
    simp [herror, hequal, Double.not_lt_zero ht]
  case neg =>
    have herror : (compareFloats k v w).error = (k.toDouble v - k.toDouble w).abs := if_neg hequal
    have htnan := (Double.zero_le_iff.mp ht).left
    have hnan := Double.isNaN_sub_iff hequal
    rw [← Double.isNaN_abs] at hnan
    rw [herror, ← or_assoc (a := (k.toDouble v).isNaN = true), ← hnan]
    cases habs : (k.toDouble v - k.toDouble w).abs.isNaN
    case true => simp [hequal, Double.lt_iff, habs]
    case false => simp [hequal, Double.lt_iff_not_le htnan habs]

-- Over arrays of equal length, no comparison is bad if each pair is good.
theorem not_exists_comparison_iff {bad : Comparison → Prop} {good : Nat → Nat → Prop}
    (hl : vs.length = ws.length) (h : ∀ v w, bad (compareFloats k v w) ↔ ¬good v w) :
    (¬∃ c ∈ List.zipWith (compareFloats k) vs ws, bad c) ↔ List.Forall₂ good vs ws := by
  have hpairs : (∀ c ∈ List.zipWith (compareFloats k) vs ws, ¬bad c) ↔
      List.Forall₂ (fun v w => ¬bad (compareFloats k v w)) vs ws := by
    rw [← List.forall_iff_forall_mem, List.forall_zipWith hl]
  have hgood : (fun v w => ¬bad (compareFloats k v w)) = good := by
    funext v w
    rw [h, not_not]
  rw [← hgood, ← hpairs]
  simp

theorem not_lt_absolute_iff (ht : .zero ≤ t) (hl : vs.length = ws.length) (floor : Double)
    (bits : Nat) :
    ¬t < ((List.zipWith (compareFloats k) vs ws).foldl (Worst.record floor)
      { bits := bits }).absolute ↔ List.Forall₂ (Within k t) vs ws := by
  rw [lt_absolute_iff, or_iff_right (Double.not_lt_zero ht)]
  exact not_exists_comparison_iff hl fun _ _ => lt_error_iff ht

theorem determine_eq_ok {t : Datatype} {original restored : Bytes} {a : Accuracy}
    (h : determine t floor original restored = .ok a) :
    original.length = restored.length ∧
      a = ((comparisons t (Element.split t original) (Element.split t restored)).foldl
        (Worst.record floor) { bits := bestBits t }).summary := by
  unfold determine at h
  obtain ⟨hlength, h⟩ := Result.guard_eq_ok_iff.mp h
  obtain ⟨vs, hvs, h⟩ := Result.bind_eq_ok_iff.mp h
  obtain ⟨ws, hws, h⟩ := Result.bind_eq_ok_iff.mp h
  rw [← (Element.decode_eq_ok_iff.mp hvs).right, ← (Element.decode_eq_ok_iff.mp hws).right]
  exact ⟨not_not.mp hlength, (Except.ok.inj h).symm⟩

-- Arrays of equal length are compared.
theorem determine_of_length {t : Datatype} {original restored : Bytes}
    (hd : original.length % t.size = 0) (hl : restored.length = original.length)
    (floor : Double) :
    determine t floor original restored =
      .ok ((comparisons t (Element.split t original) (Element.split t restored)).foldl
        (Worst.record floor) { bits := bestBits t }).summary := by
  have hvs : Element.decode t original = .ok _ := Element.decode_eq_ok_iff.mpr ⟨hd, rfl⟩
  have hws : Element.decode t restored = .ok _ := Element.decode_eq_ok_iff.mpr ⟨hl ▸ hd, rfl⟩
  simp only [determine, hl, hvs, hws, ne_eq, not_true_eq_false, if_false, Result.ok_bind,
    Result.pure_eq]

end Accuracy

namespace Validation

variable [Codecs] {c : Context} {dims : Dims} {original stream : Bytes} {r : Report}
  {k : FloatKind}

theorem validate_eq_ok_iff :
    validate c dims original stream = .ok r ↔
      ∃ restored a, Stream.decompress c.datatype dims stream = .ok restored ∧
        Accuracy.determine c.datatype c.hints.absoluteFloor original restored = .ok a ∧
        r = ⟨a, failures c a original restored, c.lossless⟩ := by
  simp only [validate, Result.bind_eq_ok_iff, Result.pure_eq, Except.ok.injEq]
  constructor
  case mp =>
    rintro ⟨restored, hrestored, a, ha, rfl⟩
    exact ⟨restored, a, hrestored, ha, rfl⟩
  case mpr =>
    rintro ⟨restored, a, hrestored, ha, rfl⟩
    exact ⟨restored, hrestored, a, ha, rfl⟩

theorem absoluteTolerance_met_iff (hk : c.datatype.kind? = some k) (hl : c.lossless = false)
    (ht : .zero ≤ c.hints.absoluteTolerance) (hv : validate c dims original stream = .ok r) :
    ∃ restored, Stream.decompress c.datatype dims stream = .ok restored ∧
      (.absoluteTolerance ∉ r.failures ↔
        List.Forall₂ (Accuracy.Within k c.hints.absoluteTolerance)
          (Element.split c.datatype original) (Element.split c.datatype restored)) := by
  obtain ⟨restored, a, hrestored, ha, rfl⟩ := validate_eq_ok_iff.mp hv
  refine ⟨restored, hrestored, ?_⟩
  have ⟨hlength, ha⟩ := Accuracy.determine_eq_ok ha
  have hmissed : Requirement.absoluteTolerance ∈ failures c a original restored ↔
      c.hints.absoluteTolerance < a.absolute := by
    simp [failures, hl, tolerances, isMissed]
  have hwords : (Element.split c.datatype original).length =
      (Element.split c.datatype restored).length := by
    rw [Element.length_split, Element.length_split, hlength]
  rw [hmissed, ← Accuracy.not_lt_absolute_iff ht hwords c.hints.absoluteFloor
    (Accuracy.bestBits c.datatype), ha]
  simp only [Accuracy.comparisons, hk, Accuracy.Worst.summary]

end Validation

def Context.toleratesOne : Context :=
  ⟨.double, Hints.openTolerances { absoluteTolerance := .ofWord 0x3ff0000000000000 }, false, none⟩

namespace Validation

-- The numbers 5, NaN, infinity, 3 and -1.
def fiveNumbers : Bytes :=
  [0, 0, 0, 0, 0, 0, 20, 64, 0, 0, 0, 0, 0, 0, 248, 127, 0, 0, 0, 0, 0, 0, 240, 127,
    0, 0, 0, 0, 0, 0, 8, 64, 0, 0, 0, 0, 0, 0, 240, 191]

-- A stream of 4.5, NaN, infinity, 3.25 and -1.
def nearFive : Bytes :=
  [1, 0, 0, 0, 0, 0, 0, 18, 64, 0, 0, 0, 0, 0, 0, 248, 127, 0, 0, 0, 0, 0, 0, 240, 127,
    0, 0, 0, 0, 0, 0, 10, 64, 0, 0, 0, 0, 0, 0, 240, 191, 0]

theorem absoluteTolerance_met_five :
    ∃ r restored, validate .toleratesOne .five fiveNumbers nearFive = .ok r ∧ r.failures = [] ∧
      Stream.decompress .double .five nearFive = .ok restored ∧
      List.Forall₂ (Accuracy.Within .double Context.toleratesOne.hints.absoluteTolerance)
        (Element.split .double fiveNumbers) (Element.split .double restored) := by
  let half : Double := .ofWord 0x3fe0000000000000
  have hreport : validate .toleratesOne .five fiveNumbers nearFive =
      .ok ⟨⟨half, .zero, half, 3, 1⟩, [], false⟩ := by decide +kernel
  have ⟨restored, hrestored, hmet⟩ :=
    absoluteTolerance_met_iff (k := .double) rfl rfl (by decide +kernel) hreport
  exact ⟨_, restored, hreport, rfl, hrestored, hmet.mp List.not_mem_nil⟩

-- The number 5.
def five : Bytes :=
  [0, 0, 0, 0, 0, 0, 20, 64]

-- The number that comes back as none is not noticed.
theorem not_within_of_passed :
    ¬∀ (c : Context) (k : FloatKind) (dims : Dims) (original stream : Bytes) (r : Report),
      c.datatype.kind? = some k → c.lossless = false →
      Hints.finestTolerance < c.hints.absoluteTolerance →
      c.hints.absoluteTolerance < .largest → validate c dims original stream = .ok r →
      .absoluteTolerance ∉ r.failures →
      ∃ restored, Stream.decompress c.datatype dims stream = .ok restored ∧
        List.Forall₂ (fun v w => (k.toDouble v).equal (k.toDouble w) = true ∨
            ((k.toDouble v).isNaN = true ∧ (k.toDouble w).isNaN = true) ∨
            (k.toDouble v - k.toDouble w).abs ≤ c.hints.absoluteTolerance)
          (Element.split c.datatype original) (Element.split c.datatype restored) := by
  intro hall
  have hreport : validate .toleratesOne .one five [1, 0, 0, 0, 0, 0, 0, 248, 127, 0] =
      .ok ⟨⟨.zero, .zero, .zero, 0, 0⟩, [], false⟩ := by decide +kernel
  have ⟨restored, hrestored, hclose⟩ := hall .toleratesOne .double .one five _ _ rfl rfl
    (by decide +kernel) (by decide +kernel) hreport List.not_mem_nil
  have hnan : Stream.decompress .double .one [1, 0, 0, 0, 0, 0, 0, 248, 127, 0] =
      .ok [0, 0, 0, 0, 0, 0, 248, 127] := by decide +kernel
  obtain rfl := Except.ok.inj (hnan.symm.trans hrestored)
  exact absurd hclose (by decide +kernel)

end Validation
end GridPress

import GridPress.Proofs.Accuracy.Integers
import GridPress.Proofs.Hints
import GridPress.Proofs.Session
import GridPress.Proofs.Stream.Inspection

namespace GridPress

namespace Accuracy

variable {t : Datatype} {bits : Nat} {ws : List Nat} {c : Comparison} {cs : List Comparison}
  {original : Bytes}

-- The comparison of an element with itself, of which there is no error to speak of, all bits agree.
structure Comparison.IsExact (bits : Nat) (c : Comparison) : Prop where
  error : c.error = .zero ∨ c.error.isNaN = true
  bits  : c.bits = bits

theorem matchingBits_self (k : FloatKind) (w : Nat) :
    matchingBits k w w = k.format.mantissaBits := by
  simp [matchingBits]

theorem isExact_compareFloats (k : FloatKind) (w : Nat) :
    (compareFloats k w w).IsExact k.format.mantissaBits where
  error := by
    by_cases hequal : (k.toDouble w).equal (k.toDouble w) = true
    case pos => exact .inl (if_pos hequal)
    case neg =>
      have herror : (compareFloats k w w).error = (k.toDouble w - k.toDouble w).abs := if_neg hequal
      have hnan : (k.toDouble w).isNaN = true := by
        simpa [Double.equal_iff] using hequal
      exact .inr (by rw [herror, Double.isNaN_abs, Double.isNaN_sub_iff hequal, or_self, hnan])
  bits := matchingBits_self k w

theorem isExact_compareInts (ht : t.kind? = none) (w : Nat) :
    (compareInts t w w).IsExact (valueBits t) where
  error := .inl (Double.abs_sub_self (Element.isFinite_toDouble ht w))
  bits := by
    have hzero : Double.zero.equal .zero = true := rfl
    unfold compareInts
    dsimp only
    rw [Double.abs_sub_self (Element.isFinite_toDouble ht w), if_pos hzero]

theorem record_of_isExact (floor : Double) (hc : c.IsExact bits) :
    Worst.record floor { bits := bits } c = { bits := bits } := by
  unfold Worst.record
  cases hc.error
  case inl herror =>
    have hzero : Double.zero.equal .zero = true := rfl
    have hmax : Double.zero.max .zero = .zero := rfl
    simp only [herror, hzero, hmax, hc.bits, Nat.min_self, if_true]
  case inr hnan =>
    have hmax : Double.zero.max c.error = .zero := Double.max_of_isNaN rfl hnan
    have hzero : ¬c.error.equal .zero = true := by simp [Double.equal_zero_iff, hnan]
    have hfloor : ¬floor ≤ c.error := by simp [Double.le_iff, hnan]
    simp only [if_neg hzero, if_neg hfloor, hmax, hc.bits, Nat.min_self]

theorem foldl_record_of_isExact (floor : Double) (hcs : ∀ c ∈ cs, c.IsExact bits) :
    cs.foldl (Worst.record floor) { bits := bits } = { bits := bits } := by
  induction cs
  case nil => rfl
  case cons c cs ih =>
    obtain ⟨hc, hcs⟩ := List.forall_mem_cons.mp hcs
    rw [List.foldl_cons, record_of_isExact floor hc, ih hcs]

theorem isExact_of_mem_comparisons (hc : c ∈ comparisons t ws ws) : c.IsExact (bestBits t) := by
  unfold comparisons at hc
  unfold bestBits Datatype.mantissaBits?
  cases ht : t.kind?
  case none =>
    simp only [ht, List.zipWith_self] at hc
    obtain ⟨w, _, rfl⟩ := List.mem_map.mp hc
    exact isExact_compareInts ht w
  case some k =>
    simp only [ht, List.zipWith_self] at hc
    obtain ⟨w, _, rfl⟩ := List.mem_map.mp hc
    exact isExact_compareFloats k w

-- What an exact reproduction scores.
def best (t : Datatype) : Accuracy :=
  ⟨.zero, .zero, .zero, bestBits t, Hints.decimalsOfBits (bestBits t)⟩

theorem summary_best (t : Datatype) : Worst.summary { bits := bestBits t } = best t := by
  have hzero : Double.zero * .ofNat 100 = .zero := Double.mul_hundred.right.left
  simp only [Worst.summary, hzero, ite_self]
  rfl

theorem determine_self (floor : Double) (h : original.length % t.size = 0) :
    determine t floor original original = .ok (best t) := by
  have hworst : (comparisons t (Element.split t original) (Element.split t original)).foldl
      (Worst.record floor) { bits := bestBits t } = { bits := bestBits t } :=
    foldl_record_of_isExact floor fun _ => isExact_of_mem_comparisons
  rw [determine_of_length h rfl, hworst, summary_best]

theorem maxBits_le_bestBits (h : t ∉ [.int8, .int16, .int32]) : Hints.maxBits t ≤ bestBits t := by
  cases t
  case float | double | int64 => decide
  all_goals simp at h

end Accuracy

namespace Validation

section

variable [Codecs] {t : Datatype} {h : Hints} {made c : Context} {dims : Dims}
  {original stream : Bytes}

-- An exact reproduction leaves no errors, and so only too much precision is missed.
theorem precision_of_isMissed {q : Requirement} (hmake : Context.make t h = .ok made)
    (hkept : made.KeptBy c) (hl : c.lossless = false) (hq : q ∈ tolerances)
    (hmissed : isMissed c.hints (.best t) q = true) :
    (q = .significantDigits ∨ q = .significantBits) ∧
      Accuracy.bestBits t < c.hints.significantBits := by
  have hmade := hkept.lossless_eq_false hl
  have htolerances := Context.not_lt_zero_of_make hmake hmade
  have ⟨_, hdigits⟩ := Context.precision_of_make hmake hmade
  rw [← hkept.hints] at htolerances hdigits
  simp only [Hints.tolerances, List.forall_mem_cons] at htolerances
  obtain ⟨habsolute, hfloor, hrelative, _⟩ := htolerances
  simp only [tolerances, List.mem_cons, List.not_mem_nil, or_false] at hq
  rcases hq with rfl | rfl | rfl | rfl | rfl
  · exact absurd (of_decide_eq_true hmissed) habsolute
  · exact absurd (of_decide_eq_true hmissed) hrelative
  · exact absurd (of_decide_eq_true hmissed) hfloor
  · refine ⟨.inl rfl, Int.not_le.mp fun hbits => ?_⟩
    have hcarried := hdigits _ (Int.natCast_nonneg _) hbits
    exact Int.not_lt.mpr hcarried (of_decide_eq_true hmissed)
  · exact ⟨.inr rfl, of_decide_eq_true hmissed⟩

theorem failures_best_iff (hmake : Context.make t h = .ok made) (hkept : made.KeptBy c)
    (hl : c.lossless = false) :
    failures c (.best t) original original = [] ↔
      c.hints.significantBits ≤ Accuracy.bestBits t := by
  rw [failures, hl, if_neg Bool.false_ne_true, List.filter_eq_nil_iff]
  constructor
  case mp =>
    intro hmet
    have hbits := hmet .significantBits (by decide)
    exact Int.not_lt.mp fun hlt => hbits (decide_eq_true hlt)
  case mpr =>
    intro hbits q hq hmissed
    exact absurd hbits (Int.not_le.mpr (precision_of_isMissed hmake hkept hl hq hmissed).right)

theorem exact_passes_iff (hmake : Context.make t h = .ok made) (hkept : made.KeptBy c)
    (hm : original.length ≤ Size.maxArray)
    (hd : Stream.decompress t dims stream = .ok original) :
    ∃ r, validate c dims original stream = .ok r ∧
      (r.failures = [] ↔ c.lossless = true ∨ c.hints.significantBits ≤ Accuracy.bestBits t) ∧
      (∀ q ∈ r.failures, q = .significantDigits ∨ q = .significantBits) ∧
      (t ∉ [.int8, .int16, .int32] → r.failures = []) := by
  have hdatatype : c.datatype = t := hkept.datatype.trans (Context.make_eq_ok hmake).left
  have hlength := Stream.length_of_decompress hd
  have hwhole : original.length % t.size = 0 := by
    rw [hlength] at hm ⊢
    exact Dims.byteSize_mod_size hm
  have hreport : validate c dims original stream =
      .ok ⟨.best t, failures c (.best t) original original, c.lossless⟩ := by
    rw [validate_eq_ok_iff, hdatatype]
    exact ⟨original, _, hd, Accuracy.determine_self _ hwhole, rfl⟩
  refine ⟨_, hreport, ?_⟩
  cases hl : c.lossless
  case true =>
    have hpassed : failures c (.best t) original original = [] := by
      rw [failures, if_pos hl, if_pos rfl]
    refine ⟨iff_of_true hpassed (.inl rfl), fun q hq => ?_, fun _ => hpassed⟩
    exact absurd (hpassed ▸ hq) List.not_mem_nil
  case false =>
    have hpassed : failures c (.best t) original original = [] ↔ _ :=
      failures_best_iff hmake hkept hl
    refine ⟨hpassed.trans (or_iff_right Bool.false_ne_true).symm, ?precision, ?wide⟩
    case precision =>
      intro q hq
      rw [failures, hl, if_neg Bool.false_ne_true, List.mem_filter] at hq
      exact (precision_of_isMissed hmake hkept hl hq.left hq.right).left
    case wide =>
      intro ht
      have hbits := (Context.precision_of_make hmake (hkept.lossless_eq_false hl)).left
      rw [← hkept.hints] at hbits
      exact hpassed.mpr
        (Int.le_trans hbits (Int.ofNat_le.mpr (Accuracy.maxBits_le_bestBits ht)))

end

end Validation

-- As many bits as an eight-bit integer has, with the sign.
def Hints.eightBits : Hints where
  significantBits := 8

def Hints.sevenBits : Hints where
  significantBits := 7

namespace Validation

-- A stream of the numbers 5, -128, 127, 0 and -1 in eight bits.
def narrowNumbers : Bytes :=
  [1, 5, 128, 127, 0, 255, 0]

theorem exact_passes_narrowFive :
    ∃ c r, Context.make .int8 .sevenBits = .ok c ∧
      Stream.decompress .int8 .five narrowNumbers = .ok [5, 128, 127, 0, 255] ∧
      validate c .five [5, 128, 127, 0, 255] narrowNumbers = .ok r ∧ c.lossless = false ∧
      r.failures = [] := by
  have ⟨c, hmake⟩ : ∃ c, Context.make .int8 .sevenBits = .ok c := ⟨_, rfl⟩
  have ⟨_, hhints, hlossless⟩ := Context.make_eq_ok hmake
  have hl : c.lossless = false := by
    rw [hlossless]
    decide +kernel
  have hbits : c.hints.significantBits ≤ Accuracy.bestBits .int8 := by
    rw [hhints]
    decide +kernel
  have hd : Stream.decompress .int8 .five narrowNumbers = .ok [5, 128, 127, 0, 255] := rfl
  have ⟨r, hreport, hpassed, _⟩ := exact_passes_iff hmake (.refl c) (by decide) hd
  exact ⟨c, r, hmake, hd, hreport, hl, hpassed.mpr (.inr hbits)⟩

-- A stream of the number 5 in eight bits.
def narrowFive : Bytes :=
  [1, 5, 0]

-- The sign does not count, and so the best score of an eight-bit integer is 7 bits.
theorem not_passed_of_exact :
    ¬∀ (t : Datatype) (h : Hints) (c : Context) (dims : Dims) (original stream : Bytes),
      Context.make t h = .ok c → Stream.decompress t dims stream = .ok original →
      ∃ r, validate c dims original stream = .ok r ∧ r.failures = [] := by
  intro hall
  let resolved := ((Hints.eightBits.clampPrecision .int8).raiseBits).raiseDigits
  let c : Context := ⟨.int8, resolved.openTolerances, resolved.requiresLossless, none⟩
  have hmake : Context.make .int8 .eightBits = .ok c := rfl
  have hreport : validate c .one [5] narrowFive =
      .ok ⟨.best .int8, [.significantDigits, .significantBits], false⟩ := by decide +kernel
  have ⟨r, hr, hpassed⟩ := hall .int8 .eightBits c .one [5] narrowFive hmake rfl
  obtain rfl := Except.ok.inj (hreport.symm.trans hr)
  contradiction

end Validation
end GridPress

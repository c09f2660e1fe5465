import GridPress.Proofs.Accuracy.Integers
import GridPress.Proofs.Stream.Inspection
import GridPress.Proofs.Validation.Relative

namespace GridPress

namespace Accuracy

variable {t : Datatype} {p : Nat × Nat} {original restored : Bytes} {bad : Comparison → Prop}
  {x floor : Double} {q : Double → Prop} {worst : Worst} {c : Comparison} {cs : List Comparison}

-- The comparison of an element of type `t` with its reconstruction.
def comparison (t : Datatype) (p : Nat × Nat) : Comparison :=
  match t.kind? with
  | some k => compareFloats k p.1 p.2
  | none => compareInts t p.1 p.2

-- Whether an element and its reconstruction are one number.
def Agrees (t : Datatype) (p : Nat × Nat) : Prop :=
  (Element.toDouble t p.1).equal (Element.toDouble t p.2) = true

instance : Decidable (Agrees t p) :=
  inferInstanceAs (Decidable (_ = true))

theorem comparisons_eq (t : Datatype) (original restored : Bytes) :
    comparisons t (Element.split t original) (Element.split t restored) =
      (pairs t original restored).map (comparison t) := by
  unfold comparisons pairs
  have hzip : ∀ f : Nat → Nat → Comparison, ∀ vs ws : List Nat,
      List.zipWith f vs ws = (vs.zip ws).map fun p => f p.1 p.2 :=
    fun _ _ _ => List.map_uncurry_zip_eq_zipWith.symm
  cases ht : t.kind? <;> simp only [hzip] <;> congr 1 <;> funext p <;> simp only [comparison, ht]

theorem exists_comparison_iff :
    (∃ c ∈ comparisons t (Element.split t original) (Element.split t restored), bad c) ↔
      ∃ p ∈ pairs t original restored, bad (comparison t p) := by
  simp only [comparisons_eq, List.mem_map, exists_exists_and_eq_and]

theorem original_comparison (t : Datatype) (p : Nat × Nat) :
    (comparison t p).original = Element.toDouble t p.1 := by
  unfold comparison Element.toDouble
  cases ht : t.kind? <;> simp [compareFloats, compareInts, Element.toDouble, ht]

theorem reconstructed_comparison (t : Datatype) (p : Nat × Nat) :
    (comparison t p).reconstructed = Element.toDouble t p.2 := by
  unfold comparison Element.toDouble
  cases ht : t.kind? <;> simp [compareFloats, compareInts, Element.toDouble, ht]

theorem error_comparison_of_not_agrees (h : ¬Agrees t p) :
    (comparison t p).error = measuredError t p := by
  unfold Agrees Element.toDouble at h
  unfold comparison measuredError Element.toDouble
  cases ht : t.kind?
  case none => simp only [compareInts, Element.toDouble, ht]
  case some k =>
    simp only [ht] at h
    simp only [compareFloats, if_neg h]

theorem equal_zero_error_comparison_iff :
    (comparison t p).error.equal .zero = true ↔ Agrees t p := by
  constructor
  case mp =>
    intro hzero
    by_contra hdiffer
    rw [error_comparison_of_not_agrees hdiffer, measuredError, Double.equal_zero_abs] at hzero
    exact hdiffer (Double.equal_of_sub hzero)
  case mpr =>
    intro hagrees
    cases ht : t.kind?
    case none =>
      have herror : (comparison t p).error = measuredError t p := by
        simp only [comparison, compareInts, measuredError, ht]
      rw [herror]
      exact (equal_zero_measuredError_iff ht).mpr hagrees
    case some k =>
      have hequal : (k.toDouble p.1).equal (k.toDouble p.2) = true := by
        simpa only [Agrees, Element.toDouble, ht] using hagrees
      have herror : (comparison t p).error = .zero := by
        simp only [comparison, compareFloats, ht, if_pos hequal]
      rw [herror]
      rfl

-- Between equal numbers there is no error, unless both are infinite, and then it is no number.
theorem not_lt_measuredError_of_agrees (hx : .zero ≤ x) (h : Agrees t p) :
    ¬x < measuredError t p := by
  intro hlt
  cases hfinite : (Element.toDouble t p.1).isFinite
  case false =>
    refine Double.not_lt_of_isNaN ?_ hlt
    rw [measuredError, Double.isNaN_abs, Double.isNaN_sub_of_equal h hfinite]
  case true =>
    have hplace := (Double.equal_iff.mp h).right.right
    have hfinite' : (Element.toDouble t p.2).isFinite = true := by
      rwa [Double.isFinite_iff_place, ← hplace, ← Double.isFinite_iff_place]
    have hzero : (measuredError t p).equal .zero = true := by
      rw [measuredError, Double.equal_zero_abs]
      exact Double.sub_of_equal hfinite hfinite' h
    exact Double.not_lt_zero hx (Double.lt_of_lt_of_le hlt (Double.le_of_equal hzero))

theorem lt_error_comparison_iff (hx : .zero ≤ x) :
    x < (comparison t p).error ↔ x < measuredError t p := by
  by_cases hagrees : Agrees t p
  case pos =>
    refine iff_of_false (fun hlt => ?_) (not_lt_measuredError_of_agrees hx hagrees)
    have hzero := equal_zero_error_comparison_iff.mpr hagrees
    exact Double.not_lt_zero hx (Double.lt_of_lt_of_le hlt (Double.le_of_equal hzero))
  case neg => rw [error_comparison_of_not_agrees hagrees]

-- Whether some error is measured, and is less than `x`.
theorem below_error_comparison_iff :
    .zero < (comparison t p).error ∧ (comparison t p).error < x ↔
      ¬Agrees t p ∧ measuredError t p < x := by
  by_cases hagrees : Agrees t p
  case pos =>
    have hzero := equal_zero_error_comparison_iff.mpr hagrees
    refine iff_of_false (fun ⟨hpos, _⟩ => ?_) (fun ⟨hdiffer, _⟩ => hdiffer hagrees)
    have hlt := Double.lt_of_lt_of_le hpos (Double.le_of_equal hzero)
    exact Double.not_lt_zero (Double.le_refl rfl) hlt
  case neg =>
    have hzero := mt equal_zero_error_comparison_iff.mp hagrees
    rw [error_comparison_of_not_agrees hagrees] at hzero ⊢
    refine and_congr_left fun hlt => iff_of_true ?_ hagrees
    have ⟨hnan, _⟩ := Double.lt_iff.mp hlt
    have hplace : (measuredError t p).place = (_ : Int).natAbs := Double.place_abs _
    rw [Double.equal_zero_iff, and_iff_right hnan] at hzero
    exact Double.zero_lt_iff.mpr ⟨hnan, by omega⟩

-- Whether an error is judged as an absolute one.
def Comparison.IsAbsolute (floor : Double) (c : Comparison) : Prop :=
  ¬c.error.equal .zero = true ∧ ¬floor ≤ c.error

section Grows

-- What grows with a number and does not hold for what is none.
variable (hnan : ∀ u, u.isNaN = true → ¬q u) (hmono : ∀ u v, u ≤ v → q u → q v)

include hnan hmono

theorem floor_record_iff :
    q (worst.record floor c).floor ↔ q worst.floor ∨ (c.IsAbsolute floor ∧ q c.error) := by
  unfold Worst.record Comparison.IsAbsolute
  by_cases hzero : c.error.equal .zero = true
  case pos => simp [hzero]
  case neg =>
    by_cases hfloor : floor ≤ c.error
    case pos => simp [hzero, hfloor]
    case neg =>
      simp only [if_neg hzero, if_neg hfloor, Double.max_iff hnan hmono]
      simp [hzero, hfloor]

theorem floor_foldl_iff :
    q (cs.foldl (Worst.record floor) worst).floor ↔
      q worst.floor ∨ ∃ c ∈ cs, c.IsAbsolute floor ∧ q c.error :=
  foldl_record_iff (q ·.floor) (fun c => c.IsAbsolute floor ∧ q c.error)
    fun _ _ => floor_record_iff hnan hmono

end Grows

theorem lt_floor_iff :
    x < (cs.foldl (Worst.record floor) worst).floor ↔
      x < worst.floor ∨ ∃ c ∈ cs, c.IsAbsolute floor ∧ x < c.error :=
  floor_foldl_iff (fun _ => Double.not_lt_of_isNaN) fun _ _ huv hu => Double.lt_of_lt_of_le hu huv

theorem le_floor (h : x ≤ worst.floor) : x ≤ (cs.foldl (Worst.record floor) worst).floor :=
  (floor_foldl_iff (fun u hu => by simp [Double.le_iff, hu])
    fun _ _ huv hu => Double.le_trans hu huv).mpr (.inl h)

theorem isAbsolute_and_pos_iff (hfloor : .zero ≤ floor) :
    c.IsAbsolute floor ∧ .zero < c.error ↔ .zero < c.error ∧ c.error < floor := by
  have ⟨hnan, _⟩ := Double.zero_le_iff.mp hfloor
  constructor
  case mp =>
    rintro ⟨⟨_, hnot⟩, hpos⟩
    have ⟨herror, _⟩ := Double.zero_lt_iff.mp hpos
    exact ⟨hpos, Double.lt_of_not_le hnan herror hnot⟩
  case mpr =>
    rintro ⟨hpos, hlt⟩
    have ⟨herror, _⟩ := Double.zero_lt_iff.mp hpos
    refine ⟨⟨fun hzero => ?_, (Double.lt_iff_not_le herror hnan).mp hlt⟩, hpos⟩
    exact Double.not_lt_of_le (Double.le_of_equal hzero) hpos

-- The reported error exceeds the floor if one of the errors does, and none is below the floor.
theorem lt_floor_summary_iff (hfloor : .zero ≤ floor) (bits : Nat) :
    floor < (cs.foldl (Worst.record floor) { bits := bits }).summary.floor ↔
      (∃ c ∈ cs, floor < c.error) ∧ ¬∃ c ∈ cs, .zero < c.error ∧ c.error < floor := by
  have hzero : Double.zero ≤ .zero := Double.le_refl rfl
  have habsolute : floor < (cs.foldl (Worst.record floor) { bits := bits }).absolute ↔
      ∃ c ∈ cs, floor < c.error := by
    rw [lt_absolute_iff, or_iff_right (Double.not_lt_zero hfloor)]
  have hbelow : .zero < (cs.foldl (Worst.record floor) { bits := bits }).floor ↔
      ∃ c ∈ cs, .zero < c.error ∧ c.error < floor := by
    rw [lt_floor_iff, or_iff_right (Double.not_lt_zero hzero)]
    exact exists_congr fun c => and_congr_right fun _ => isAbsolute_and_pos_iff hfloor
  have hnonneg : .zero ≤ (cs.foldl (Worst.record floor) { bits := bits }).floor := le_floor hzero
  have hlt : ¬floor < (cs.foldl (Worst.record floor) { bits := bits }).floor := by
    rw [lt_floor_iff]
    rintro (hzero | ⟨c, _, ⟨_, hnot⟩, hlt⟩)
    · exact Double.not_lt_zero hfloor hzero
    · exact hnot (Double.le_of_lt hlt)
  rw [← habsolute, ← hbelow, Worst.summary]
  dsimp only
  by_cases hnone : (cs.foldl (Worst.record floor) { bits := bits }).floor.equal .zero = true
  case pos =>
    rw [if_pos hnone]
    exact (and_iff_left (Double.not_lt_of_le (Double.le_of_equal hnone))).symm
  case neg =>
    rw [if_neg hnone]
    exact iff_of_false hlt fun hbelow =>
      hnone (Double.equal_zero_of_not_lt hnonneg hbelow.right)

-- What is measured of arrays of equal length.
def measured (t : Datatype) (floor : Double) (original restored : Bytes) : Accuracy :=
  ((comparisons t (Element.split t original) (Element.split t restored)).foldl
    (Worst.record floor) { bits := bestBits t }).summary

theorem lt_absolute_measured_iff (hx : .zero ≤ x) :
    x < (measured t floor original restored).absolute ↔
      ∃ p ∈ pairs t original restored, x < measuredError t p := by
  have hlt : x < (measured t floor original restored).absolute ↔ _ := lt_absolute_iff
  rw [hlt, or_iff_right (Double.not_lt_zero hx), exists_comparison_iff]
  exact exists_congr fun p => and_congr_right fun _ => lt_error_comparison_iff hx

-- The largest error that is reported for the floor exceeds it.
theorem lt_floor_measured_iff (hfloor : .zero ≤ floor) :
    floor < (measured t floor original restored).floor ↔
      (∃ p ∈ pairs t original restored, floor < measuredError t p) ∧
        ∀ p ∈ pairs t original restored, measuredError t p < floor → Agrees t p := by
  rw [measured, lt_floor_summary_iff hfloor, exists_comparison_iff, exists_comparison_iff]
  simp only [lt_error_comparison_iff hfloor, below_error_comparison_iff, not_exists, not_and]
  refine and_congr_right fun _ => forall₂_congr fun p _ => ?_
  rw [imp_not_comm, not_not]

end Accuracy

namespace Validation

variable [Codecs] {t : Datatype} {h : Hints} {k : FloatKind} {made c : Context} {dims : Dims}
  {original restored stream : Bytes}

-- A stream of an array of the same length is checked against all of the tolerances.
theorem exists_validate_eq_ok (hl : c.lossless = false)
    (hd : Stream.decompress c.datatype dims stream = .ok restored)
    (hlength : original.length = restored.length) (hm : restored.length ≤ Size.maxArray) :
    ∃ r, validate c dims original stream = .ok r ∧ ∀ q ∈ tolerances, q ∈ r.failures ↔
      isMissed c.hints (Accuracy.measured c.datatype c.hints.absoluteFloor original restored) q =
        true := by
  have hwhole : original.length % c.datatype.size = 0 := by
    have hsize := Stream.length_of_decompress hd
    rw [hlength, hsize]
    exact Dims.byteSize_mod_size (hsize ▸ hm)
  have ha := Accuracy.determine_of_length hwhole hlength.symm c.hints.absoluteFloor
  refine ⟨_, validate_eq_ok_iff.mpr ⟨restored, _, hd, ha, rfl⟩, fun q hq => ?_⟩
  rw [failures, hl, if_neg Bool.false_ne_true, List.mem_filter, and_iff_right hq]
  rfl

-- Errors that are all below the floor or within the relative tolerance meet that tolerance. They
-- miss the floor, however, if one of them exceeds it while none is below.
theorem absoluteFloor_missed_iff (hmake : Context.make t h = .ok made) (hkept : made.KeptBy c)
    (hk : t.kind? = some k) (hl : c.lossless = false)
    (hrelative : Hints.finestTolerance < h.relativeTolerance ∧ h.relativeTolerance < .largest)
    (hfloor : Hints.finestTolerance < h.absoluteFloor ∧ h.absoluteFloor < .largest)
    (hd : Stream.decompress t dims stream = .ok restored)
    (hlength : original.length = restored.length) (hm : restored.length ≤ Size.maxArray)
    (hpairs : List.Forall₂ (Accuracy.RelativelyWithin k h.absoluteFloor h.relativeTolerance)
      (Element.split t original) (Element.split t restored)) :
    ∃ r, validate c dims original stream = .ok r ∧ .relativeTolerance ∉ r.failures ∧
      (.absoluteFloor ∈ r.failures ↔
        (∃ p ∈ Accuracy.pairs t original restored,
            h.absoluteFloor < Accuracy.measuredError t p) ∧
          ∀ p ∈ Accuracy.pairs t original restored,
            Accuracy.measuredError t p < h.absoluteFloor → Accuracy.Agrees t p) := by
  obtain ⟨rfl, _, hopen, hpercent⟩ := Context.tolerances_of_keptBy hmake hkept
  rw [Hints.openTolerance_of_finest_lt hrelative.left] at hpercent
  rw [Hints.openTolerance_of_finest_lt hfloor.left] at hopen
  have hpos := Double.le_of_lt (Hints.zero_lt_of_finest_lt hrelative.left)
  have hnonneg := Double.le_of_lt (Hints.zero_lt_of_finest_lt hfloor.left)
  have ⟨hnan, _⟩ := Double.zero_le_iff.mp hnonneg
  have hfinite : h.relativeTolerance.isFinite = true :=
    Double.isFinite_of_le (by decide) (by decide)
      (Double.le_of_lt hrelative.left) (Double.le_of_lt hrelative.right)
  have ⟨r, hreport, hmissed⟩ := exists_validate_eq_ok hl hd hlength hm
  rw [hopen] at hmissed
  refine ⟨r, hreport, ?_, ?_⟩
  · have hwords : (Element.split c.datatype original).length =
        (Element.split c.datatype restored).length := by
      rw [Element.length_split, Element.length_split, hlength]
    have hmet := (Accuracy.not_lt_relative_iff hpos hfinite hnan hwords
      (Accuracy.bestBits c.datatype)).mpr hpairs
    rw [hmissed _ (by decide), isMissed, hpercent, decide_eq_true_eq]
    simpa only [Accuracy.measured, Accuracy.comparisons, hk, Accuracy.Worst.summary] using hmet
  · rw [hmissed _ (by decide), isMissed, hopen, decide_eq_true_eq]
    exact Accuracy.lt_floor_measured_iff hnonneg

end Validation

-- An error of half a number is tolerated, and one less than 1.
def Hints.halfFromOne : Hints where
  relativeTolerance := .ofWord 0x4049000000000000
  absoluteFloor     := .ofWord 0x3ff0000000000000

namespace Validation

def fourAndOne : Bytes :=
  four ++ [0, 0, 0, 0, 0, 0, 240, 63]

-- A stream of the numbers 6 and 1.5.
def sixAndMore : Bytes :=
  [1, 0, 0, 0, 0, 0, 0, 24, 64, 0, 0, 0, 0, 0, 0, 248, 63, 0]

-- The error of 2 is not reported for the floor, as that of 0.5 is below it.
theorem absoluteFloor_missed_two :
    let c : Context := ⟨.double, Hints.halfFromOne.openTolerances, false, none⟩
    ∃ r restored, Context.make .double .halfFromOne = .ok c ∧
      Stream.decompress .double .two sixAndMore = .ok restored ∧
      List.Forall₂ (Accuracy.RelativelyWithin .double Hints.halfFromOne.absoluteFloor
        Hints.halfFromOne.relativeTolerance) (Element.split .double fourAndOne)
        (Element.split .double restored) ∧
      validate c .two fourAndOne sixAndMore = .ok r ∧ .relativeTolerance ∉ r.failures ∧
      .absoluteFloor ∉ r.failures := by
  intro c
  let restored : Bytes := [0, 0, 0, 0, 0, 0, 24, 64, 0, 0, 0, 0, 0, 0, 248, 63]
  have hmake : Context.make .double .halfFromOne = .ok c := rfl
  have hd : Stream.decompress .double .two sixAndMore = .ok restored := by decide +kernel
  have hpairs : List.Forall₂ (Accuracy.RelativelyWithin .double Hints.halfFromOne.absoluteFloor
      Hints.halfFromOne.relativeTolerance) (Element.split .double fourAndOne)
      (Element.split .double restored) := by
    unfold Accuracy.RelativelyWithin
    decide +kernel
  have ⟨r, hreport, hrelative, hfloor⟩ := absoluteFloor_missed_iff (k := .double) hmake (.refl c)
    rfl rfl (by decide) (by decide) hd (by decide) (by decide) hpairs
  refine ⟨r, restored, hmake, hd, hpairs, hreport, hrelative, hfloor.not.mpr ?_⟩
  decide +kernel

-- Without the second number, the error of 2 is half of the number, and yet reported for the floor.
theorem not_absoluteFloor_met :
    ¬∀ (t : Datatype) (h : Hints) (c : Context) (k : FloatKind) (dims : Dims)
      (original restored stream : Bytes) (r : Report),
      Context.make t h = .ok c → t.kind? = some k → c.lossless = false →
      Hints.finestTolerance < h.relativeTolerance → h.relativeTolerance < .largest →
      Hints.finestTolerance < h.absoluteFloor → h.absoluteFloor < .largest →
      Stream.decompress t dims stream = .ok restored →
      validate c dims original stream = .ok r →
      List.Forall₂ (fun v w => (k.toDouble v).isFinite = true ∧ (k.toDouble w).isFinite = true ∧
          ((k.toDouble v).equal (k.toDouble w) = true ∨
            (k.toDouble v - k.toDouble w).abs < h.absoluteFloor ∨
            ((k.toDouble v).equal .zero = false ∧
              (.ofNat 1 - k.toDouble w / k.toDouble v).abs * .ofNat 100 ≤ h.relativeTolerance)))
        (Element.split t original) (Element.split t restored) →
      .relativeTolerance ∉ r.failures ∧ .absoluteFloor ∉ r.failures := by
  intro hall
  let c : Context := ⟨.double, Hints.halfFromOne.openTolerances, false, none⟩
  let two : Double := .ofWord 0x4000000000000000
  have hreport : validate c .one four six =
      .ok ⟨⟨two, .ofWord 0x4049000000000000, two, 1, 1⟩, [.absoluteFloor], false⟩ := by
    decide +kernel
  have ⟨_, hmet⟩ := hall .double .halfFromOne c .double .one four [0, 0, 0, 0, 0, 0, 24, 64] six _
    rfl rfl rfl (by decide) (by decide) (by decide) (by decide)
    (by decide +kernel) hreport (by decide +kernel)
  exact hmet (by decide)

end Validation
end GridPress

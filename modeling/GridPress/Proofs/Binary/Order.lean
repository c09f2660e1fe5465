import GridPress.Binary.Double
import GridPress.Proofs.Binary.Rounding

namespace GridPress.Double

open Binary (Format)

variable {x y z : Double} {m n d : Nat} {s : Bool}

theorem ofWord_toWord (x : Double) : ofWord x.toWord = x := by
  simp [ofWord, toWord]

theorem magnitude_lt (x : Double) : x.magnitude < 2 ^ 63 :=
  Format.double.magnitude_lt _

theorem infinity_lt : Format.double.infinity < 2 ^ 63 := by
  decide

theorem toWord_ofParts (s : Bool) (hm : m < 2 ^ 63) :
    (ofParts s m).toWord = Format.double.signed s m := by
  have hlt : Format.double.signed s m < 2 ^ 64 := Format.signed_lt s hm
  simp only [ofParts, ofWord, toWord, UInt64.toNat_ofNat']
  exact Nat.mod_eq_of_lt hlt

theorem negative_ofParts (s : Bool) (hm : m < 2 ^ 63) : (ofParts s m).negative = s := by
  rw [negative, toWord_ofParts s hm]
  exact Format.negative_signed s hm

theorem magnitude_ofParts (s : Bool) (hm : m < 2 ^ 63) : (ofParts s m).magnitude = m := by
  rw [magnitude, toWord_ofParts s hm]
  exact Format.magnitude_signed s hm

theorem ofParts_parts (x : Double) : ofParts x.negative x.magnitude = x := by
  have hword : Format.double.signed x.negative x.magnitude = x.toWord :=
    Format.signed_parts x.word.toNat_lt
  rw [ofParts, hword, ofWord_toWord]

theorem isFinite_iff : x.isFinite = true ↔ x.magnitude < Format.double.infinity := by
  simp [isFinite]

theorem isNaN_iff : x.isNaN = true ↔ Format.double.infinity < x.magnitude := by
  simp [isNaN]

theorem isNaN_of_isFinite (h : x.isFinite = true) : x.isNaN = false := by
  rw [← Bool.not_eq_true, isNaN_iff, Nat.not_lt]
  exact Nat.le_of_lt (isFinite_iff.mp h)

theorem natAbs_place (x : Double) : x.place.natAbs = x.magnitude := by
  unfold place
  split <;> simp

theorem place_ofParts (s : Bool) (hm : m < 2 ^ 63) :
    (ofParts s m).place = if s then -(m : Int) else m := by
  rw [place, negative_ofParts s hm, magnitude_ofParts s hm]

-- Only the two zeros share their place.
theorem eq_of_place_eq (h : x.place = y.place) (hne : x.place ≠ 0) : x = y := by
  have hmagnitude : x.magnitude = y.magnitude := by rw [← natAbs_place, h, natAbs_place]
  have hnegative : x.negative = y.negative := by
    unfold place at h hne
    cases hx : x.negative <;> cases hy : y.negative <;> simp [hx, hy] at h hne ⊢ <;> omega
  rw [← ofParts_parts x, ← ofParts_parts y, hmagnitude, hnegative]

theorem eq_zero_of_place (h : x.place = 0) : ∃ s, x = ofParts s 0 := by
  have hmagnitude : x.magnitude = 0 := by rw [← natAbs_place, h]; rfl
  exact ⟨x.negative, by rw [← hmagnitude, ofParts_parts]⟩

theorem isNaN_ofParts (s : Bool) (hm : m ≤ Format.double.infinity) :
    (ofParts s m).isNaN = false := by
  rw [← Bool.not_eq_true, isNaN_iff, magnitude_ofParts s (Nat.lt_of_le_of_lt hm infinity_lt)]
  exact Nat.not_lt.mpr hm

theorem le_iff : x ≤ y ↔ x.isNaN = false ∧ y.isNaN = false ∧ x.place ≤ y.place := by
  simp [LE.le, Double.le, and_assoc]

theorem lt_iff : x < y ↔ x.isNaN = false ∧ y.isNaN = false ∧ x.place < y.place := by
  simp [LT.lt, Double.lt, and_assoc]

theorem equal_iff : x.equal y = true ↔ x.isNaN = false ∧ y.isNaN = false ∧ x.place = y.place := by
  simp [equal, and_assoc]

theorem le_refl (h : x.isNaN = false) : x ≤ x :=
  le_iff.mpr ⟨h, h, Int.le_refl _⟩

theorem le_trans (hxy : x ≤ y) (hyz : y ≤ z) : x ≤ z := by
  have ⟨hx, _, hxy⟩ := le_iff.mp hxy
  have ⟨_, hz, hyz⟩ := le_iff.mp hyz
  exact le_iff.mpr ⟨hx, hz, Int.le_trans hxy hyz⟩

theorem lt_of_not_le (hx : x.isNaN = false) (hy : y.isNaN = false) (h : ¬x ≤ y) : y < x := by
  rw [le_iff] at h
  rw [lt_iff]
  exact ⟨hy, hx, Int.not_le.mp fun hle => h ⟨hx, hy, hle⟩⟩

theorem le_of_not_lt (hx : x.isNaN = false) (hy : y.isNaN = false) (h : ¬x < y) : y ≤ x := by
  rw [lt_iff] at h
  rw [le_iff]
  exact ⟨hy, hx, Int.not_lt.mp fun hlt => h ⟨hx, hy, hlt⟩⟩

theorem le_of_lt (h : x < y) : x ≤ y := by
  have ⟨hx, hy, hlt⟩ := lt_iff.mp h
  exact le_iff.mpr ⟨hx, hy, Int.le_of_lt hlt⟩

theorem le_of_equal (h : x.equal y = true) : x ≤ y := by
  have ⟨hx, hy, hplace⟩ := equal_iff.mp h
  exact le_iff.mpr ⟨hx, hy, Int.le_of_eq hplace⟩

theorem lt_iff_not_le (hx : x.isNaN = false) (hy : y.isNaN = false) : x < y ↔ ¬y ≤ x := by
  rw [lt_iff, le_iff]
  simp [hx, hy]

theorem le_iff_not_lt (hx : x.isNaN = false) : x ≤ y ↔ y.isNaN = false ∧ ¬y < x := by
  rw [le_iff, lt_iff]
  cases hy : y.isNaN <;> simp [hx]

theorem min_le (hx : x.isNaN = false) (hy : y.isNaN = false) : x.min y ≤ x ∧ x.min y ≤ y := by
  unfold Double.min
  by_cases h : y ≤ x
  case pos => rw [if_pos (.inr h)]; exact ⟨h, le_refl hy⟩
  case neg =>
    rw [if_neg (by simp [hx, h])]
    exact ⟨le_refl hx, le_of_lt (lt_of_not_le hy hx h)⟩

theorem le_max (hx : x.isNaN = false) (hy : y.isNaN = false) : x ≤ x.max y ∧ y ≤ x.max y := by
  unfold Double.max
  by_cases h : x ≤ y
  case pos => rw [if_pos (.inr h)]; exact ⟨h, le_refl hy⟩
  case neg =>
    rw [if_neg (by simp [hx, h])]
    exact ⟨le_refl hx, le_of_lt (lt_of_not_le hx hy h)⟩

theorem min_eq_or (x y : Double) : x.min y = x ∨ x.min y = y := by
  unfold Double.min
  split <;> simp

theorem max_eq_or (x y : Double) : x.max y = x ∨ x.max y = y := by
  unfold Double.max
  split <;> simp

theorem lt_of_lt_of_le (hxy : x < y) (hyz : y ≤ z) : x < z := by
  have ⟨hx, _, hxy⟩ := lt_iff.mp hxy
  have ⟨_, hz, hyz⟩ := le_iff.mp hyz
  exact lt_iff.mpr ⟨hx, hz, Int.lt_of_lt_of_le hxy hyz⟩

theorem not_lt_of_le (h : y ≤ x) : ¬x < y := by
  have ⟨_, _, hle⟩ := le_iff.mp h
  intro hlt
  have ⟨_, _, hlt⟩ := lt_iff.mp hlt
  exact absurd hle (Int.not_le.mpr hlt)

theorem not_lt_of_isNaN (hy : y.isNaN = true) : ¬x < y := by
  rw [lt_iff, hy]
  simp

theorem max_cases (x y : Double) :
    (x.max y = x ∧ (y.isNaN = true ∨ y ≤ x)) ∨ (x.max y = y ∧ (x.isNaN = true ∨ x ≤ y)) := by
  unfold Double.max
  by_cases h : x.isNaN = true ∨ x ≤ y
  case pos => exact .inr ⟨if_pos h, h⟩
  case neg =>
    have ⟨hx, hle⟩ := not_or.mp h
    refine .inl ⟨if_neg h, ?_⟩
    cases hy : y.isNaN
    case true => exact .inl rfl
    case false => exact .inr (le_of_lt (lt_of_not_le (by simpa using hx) hy hle))

theorem max_of_isNaN (hx : x.isNaN = false) (hy : y.isNaN = true) : x.max y = x := by
  rcases max_cases x y with ⟨hmax, _⟩ | ⟨_, hxnan | hle⟩
  · exact hmax
  · rw [hx] at hxnan
    contradiction
  · rw [(le_iff.mp hle).right.left] at hy
    contradiction

-- The larger operand stands for both in whatever grows with a number and does not hold for what is
-- none.
theorem max_iff {p : Double → Prop} (hnan : ∀ u, u.isNaN = true → ¬p u)
    (hmono : ∀ u v, u ≤ v → p u → p v) : p (y.max z) ↔ p y ∨ p z := by
  have hother : ∀ u v, u.isNaN = true ∨ u ≤ v → p u → p v := by
    rintro u v (hu | huv) hp
    · exact absurd hp (hnan u hu)
    · exact hmono u v huv hp
  rcases max_cases y z with ⟨hmax, hz⟩ | ⟨hmax, hy⟩
  · rw [hmax]
    exact ⟨.inl, fun h => h.elim id (hother z y hz)⟩
  · rw [hmax]
    exact ⟨.inr, fun h => h.elim (hother y z hy) id⟩

-- What is no number is above nothing, also after a function that keeps the order.
theorem lt_map_max_iff {f : Double → Double} (hnan : ∀ u, u.isNaN = true → (f u).isNaN = true)
    (hmono : ∀ u v, u ≤ v → f u ≤ f v) : x < f (y.max z) ↔ x < f y ∨ x < f z :=
  max_iff (fun u hu => not_lt_of_isNaN (hnan u hu))
    fun u v huv hu => lt_of_lt_of_le hu (hmono u v huv)

theorem lt_max_iff : x < y.max z ↔ x < y ∨ x < z :=
  lt_map_max_iff (f := fun u => u) (fun _ h => h) (fun _ _ h => h)

theorem le_max_iff : x ≤ y.max z ↔ x ≤ y ∨ x ≤ z :=
  max_iff (fun u hu => by simp [le_iff, hu]) fun _ _ huv hu => le_trans hu huv

theorem isNaN_abs (x : Double) : x.abs.isNaN = x.isNaN := by
  rw [Bool.eq_iff_iff, isNaN_iff, isNaN_iff, abs, magnitude_ofParts _ x.magnitude_lt]

theorem place_abs (x : Double) : x.abs.place = x.place.natAbs := by
  rw [abs, place_ofParts false x.magnitude_lt, natAbs_place]
  rfl

-- The number of units in a double that is finite.
def scaled (x : Double) : Int :=
  signedUnits x.negative (Format.double.units x.magnitude)

theorem two_pow_eq_one {e : Nat} (h : e = 1074) : 2 ^ e = Format.double.one := by
  have hexponent :
      1074 = 2 ^ (Format.double.exponentBits - 1) - 2 + Format.double.mantissaBits := by
    decide
  unfold Format.one
  exact congrArg (2 ^ ·) (h.trans hexponent)

theorem value_of_isFinite (h : x.isFinite = true) :
    x.value = .finite x.negative (Format.double.units x.magnitude) := by
  rw [value, if_pos (isFinite_iff.mp h)]

theorem natAbs_scaled (x : Double) : x.scaled.natAbs = Format.double.units x.magnitude := by
  unfold scaled signedUnits
  split <;> simp

theorem units_eq_zero_iff : Format.double.units m = 0 ↔ m = 0 := by
  have hzero : Format.double.units 0 = 0 := rfl
  exact ⟨fun h => Format.double.units_strictMono.injective (h.trans hzero.symm),
    fun h => by rw [h, hzero]⟩

theorem scaled_le_scaled_iff : x.scaled ≤ y.scaled ↔ x.place ≤ y.place := by
  have hmono : ∀ a b, Format.double.units a ≤ Format.double.units b ↔ a ≤ b :=
    fun _ _ => Format.double.units_strictMono.le_iff_le
  have hx := units_eq_zero_iff (m := x.magnitude)
  have hy := units_eq_zero_iff (m := y.magnitude)
  have hxy := hmono x.magnitude y.magnitude
  have hyx := hmono y.magnitude x.magnitude
  unfold scaled signedUnits place
  cases x.negative <;> cases y.negative <;> simp only [if_true, Bool.false_eq_true, if_false] <;>
    omega

def roundPlace (n : Int) (d : Nat) : Int :=
  if n < 0 then -(Format.double.nearest n.natAbs d : Int) else Format.double.nearest n.natAbs d

theorem roundPlace_mono (hd : 0 < d) {a b : Int} (h : a ≤ b) :
    roundPlace a d ≤ roundPlace b d := by
  have hmono : ∀ {m n}, m ≤ n → Format.double.nearest m d ≤ Format.double.nearest n d :=
    fun h => Format.double.nearest_mono hd h
  unfold roundPlace
  split <;> split
  case isTrue.isTrue => have := hmono (m := b.natAbs) (n := a.natAbs) (by omega); omega
  case isTrue.isFalse => omega
  case isFalse.isTrue => omega
  case isFalse.isFalse => have := hmono (m := a.natAbs) (n := b.natAbs) (by omega); omega

-- No difference of doubles is rounded to zero.
theorem eq_zero_of_roundPlace {i : Int} (h : roundPlace i 1 = 0) : i = 0 := by
  have hone : Format.double.nearest 1 1 = 1 := rfl
  by_contra hne
  have hpos : Format.double.nearest 1 1 ≤ Format.double.nearest i.natAbs 1 :=
    Format.double.nearest_mono (by decide) (by omega)
  unfold roundPlace at h
  split at h <;> omega

-- A finite double is its own rounding.
theorem roundPlace_scaled (hx : x.isFinite = true) (hd : 0 < d) :
    roundPlace (x.scaled * d) d = x.place := by
  have hnearest : Format.double.nearest (Format.double.units x.magnitude * d) d = x.magnitude := by
    rw [Format.double.nearest_units hd]
    exact Nat.min_eq_left (Nat.le_of_lt (isFinite_iff.mp hx))
  have hzero := units_eq_zero_iff (m := x.magnitude)
  unfold roundPlace
  rw [Int.natAbs_mul, Int.natAbs_natCast, natAbs_scaled, hnearest]
  unfold scaled signedUnits place
  cases x.negative
  case false =>
    have hnonneg : ¬(Format.double.units x.magnitude : Int) * d < 0 :=
      Int.not_lt.mpr (Int.mul_nonneg (Int.natCast_nonneg _) (Int.natCast_nonneg _))
    simp [hnonneg]
  case true =>
    simp only [if_true]
    split
    case isTrue => rfl
    case isFalse hneg =>
      have hunits : Format.double.units x.magnitude = 0 := by
        by_contra hne
        have hpos : 0 < Format.double.units x.magnitude * d :=
          Nat.mul_pos (Nat.pos_of_ne_zero hne) hd
        rw [Int.neg_mul] at hneg
        omega
      simp [hzero.mp hunits]

theorem nearest_le (m d : Nat) : Format.double.nearest m d ≤ Format.double.infinity :=
  Nat.min_le_right _ _

theorem place_ofUnits (s : Bool) (n d : Nat) :
    (ofUnits s n d).place = if s then -(Format.double.nearest n d : Int)
      else Format.double.nearest n d :=
  place_ofParts s (Nat.lt_of_le_of_lt (nearest_le n d) infinity_lt)

theorem isNaN_ofUnits (s : Bool) (n d : Nat) : (ofUnits s n d).isNaN = false :=
  isNaN_ofParts s (nearest_le n d)

theorem place_ofSum (s t : Bool) (m n : Nat) :
    (ofSum s t m n).place = roundPlace (signedUnits s m + signedUnits t n) 1 := by
  unfold ofSum
  by_cases hsum : signedUnits s m + signedUnits t n = 0
  case pos =>
    have hnearest : Format.double.nearest 0 1 = 0 := rfl
    rw [hsum, if_pos rfl, place_ofParts _ (by decide)]
    simp [roundPlace, hnearest]
  case neg =>
    rw [if_neg hsum, place_ofUnits]
    simp only [roundPlace, decide_eq_true_eq]

theorem isNaN_ofSum (s t : Bool) (m n : Nat) : (ofSum s t m n).isNaN = false := by
  dsimp only [ofSum]
  split
  case isTrue => exact isNaN_ofParts _ (Nat.zero_le _)
  case isFalse => exact isNaN_ofUnits _ _ _

theorem place_ofUnits_eq_roundPlace (hd : 0 < d) (s : Bool) (n : Nat) :
    (ofUnits s n d).place = roundPlace (signedUnits s n) d := by
  have hzero : Format.double.nearest 0 d = 0 := by
    have hunits : Format.double.units 0 = 0 := rfl
    have h := Format.double.nearest_units hd 0
    rwa [hunits, Nat.zero_mul, Nat.zero_min] at h
  rw [place_ofUnits]
  unfold roundPlace signedUnits
  cases s
  case false => simp
  case true =>
    by_cases hn : n = 0
    case pos => simp [hn, hzero]
    case neg =>
      have hneg : -(n : Int) < 0 := by omega
      simp only [if_true, if_pos hneg, Int.natAbs_neg, Int.natAbs_natCast]

end GridPress.Double

import GridPress.Proofs.Binary.Format
import GridPress.Proofs.Results
import GridPress.Stage.Sigbits

namespace GridPress.Stage.Sigbits

open Binary (Fields field_div field_mod field_lt)

variable {k : FloatKind} {ws : List Nat} {bits w : Nat}

-- Rounding leaves a mantissa of so many bits, or carries into an exponent below that of infinity.
inductive Rounds (k : FloatKind) (bits w : Nat) : Fields → Prop
  | stays (m : Nat) (hm : m < 2 ^ bits) : Rounds k bits w { k.format.split w with mantissa := m }
  | carries (he : (k.format.split w).exponent + 1 < k.format.exponentMax) :
    Rounds k bits w
      { k.format.split w with exponent := (k.format.split w).exponent + 1, mantissa := 0 }

theorem rounds_roundFields (hb : bits ≤ k.format.mantissaBits) (w : Nat) :
    Rounds k bits w (roundFields k bits w) := by
  have hx := k.format.holds_split w
  have hcut : (k.format.split w).mantissa / 2 ^ (k.format.mantissaBits - bits) < 2 ^ bits := by
    rw [Nat.div_lt_iff_lt_mul (Nat.two_pow_pos _), pow_mul_pow_sub 2 hb]
    exact hx.mantissa
  -- Rounding decides in this order: nothing to drop, not finite, no carry, a carry into infinity.
  unfold roundFields
  dsimp only
  split
  case isTrue hshift =>
    have hbits : k.format.mantissaBits = bits := by omega
    exact .stays _ (hbits ▸ hx.mantissa)
  case isFalse =>
    split
    case isTrue =>
      refine .stays _ ?_
      split
      case isTrue hnan => exact Nat.one_lt_two_pow (by omega)
      case isFalse => exact hcut
    case isFalse hfinite =>
      split
      case isTrue hlt => exact .stays _ hlt
      case isFalse =>
        split
        case isTrue => exact .stays _ hcut
        case isFalse hlargest =>
          have hle := k.format.exponent_split_le w
          exact .carries (by omega)

namespace Rounds

variable {x : Fields}

theorem sign_eq (hx : Rounds k bits w x) : x.sign = (k.format.split w).sign := by
  cases hx <;> rfl

theorem exponent_between (hx : Rounds k bits w x) :
    (k.format.split w).exponent ≤ x.exponent ∧ x.exponent ≤ (k.format.split w).exponent + 1 := by
  cases hx
  case stays => exact ⟨Nat.le_refl _, Nat.le_succ _⟩
  case carries => exact ⟨Nat.le_succ _, Nat.le_refl _⟩

theorem exponent_le (hx : Rounds k bits w x) : x.exponent ≤ k.format.exponentMax := by
  cases hx
  case stays => exact k.format.exponent_split_le w
  case carries he => exact Nat.le_of_lt he

theorem mantissa_lt (hx : Rounds k bits w x) : x.mantissa < 2 ^ bits := by
  cases hx
  case stays hm => exact hm
  case carries => exact Nat.two_pow_pos bits

end Rounds

-- The rounded fields of a word, the mantissa filled up with zeros.
def roundedFields (k : FloatKind) (bits w : Nat) : Fields :=
  let x := roundFields k bits w
  { x with mantissa := x.mantissa * 2 ^ (k.format.mantissaBits - bits) }

theorem holds_roundedFields (hb : bits ≤ k.format.mantissaBits) (w : Nat) :
    k.format.Holds (roundedFields k bits w) where
  sign := by
    have hsign := (rounds_roundFields hb w).sign_eq
    simpa only [roundedFields, hsign] using (k.format.holds_split w).sign
  exponent := by
    have hle := (rounds_roundFields hb w).exponent_le
    exact Nat.lt_of_le_sub_one (Nat.two_pow_pos _) hle
  mantissa := by
    have hlt := (rounds_roundFields hb w).mantissa_lt
    rw [← pow_mul_pow_sub 2 hb]
    exact Nat.mul_lt_mul_of_pos_right hlt (Nat.two_pow_pos _)

-- The signs that elements may have.
def Signs.Admits : Signs → Nat → Prop
  | positive, s => s = 0
  | negative, s => s = 1
  | mixed, s => s < 2

namespace Layout

variable {l : Layout} {s e m : Nat}

-- The parts that a code has room for.
structure Fits (l : Layout) (s e m : Nat) : Prop where
  sign     : l.signs.Admits s
  exponent : e < 2 ^ l.exponentBits
  mantissa : m < 2 ^ l.mantissaBits

theorem encode_eq (l : Layout) (s e m : Nat) :
    l.encode s e m = ((if l.signs = .mixed then s else 0) * 2 ^ l.exponentBits + e) *
      2 ^ l.mantissaBits + m := by
  unfold encode
  split
  case isTrue => rw [Nat.pow_add]; ring
  case isFalse => rw [Nat.zero_mul, Nat.zero_add]

theorem sign_encode (hf : l.Fits s e m) : l.sign (l.encode s e m) = s := by
  have hs := hf.sign
  unfold sign
  cases hsigns : l.signs <;> rw [hsigns] at hs
  case positive => exact hs.symm
  case negative => exact hs.symm
  case mixed =>
    have hlow := field_lt hf.exponent hf.mantissa
    simp only [encode, if_pos hsigns]
    rw [field_div hlow, Nat.mod_eq_of_lt hs]

theorem exponentCode_encode (hf : l.Fits s e m) : l.exponentCode (l.encode s e m) = e := by
  rw [exponentCode, encode_eq, field_div hf.mantissa, field_mod hf.exponent]

theorem mantissa_encode (hf : l.Fits s e m) : l.mantissa (l.encode s e m) = m := by
  rw [mantissa, encode_eq, field_mod hf.mantissa]

-- The code with only an exponent.
theorem exponentCode_mul (he : e < 2 ^ l.exponentBits) :
    l.exponentCode (e * 2 ^ l.mantissaBits) = e := by
  rw [exponentCode, Nat.mul_div_cancel _ (Nat.two_pow_pos _), Nat.mod_eq_of_lt he]

end Layout

theorem le_two_pow_bitsFor (n : Nat) : n ≤ 2 ^ bitsFor n := by
  unfold bitsFor
  split
  case isTrue h => exact h
  case isFalse h =>
    have hlt : n - 1 < 2 ^ ((n - 1).log2 + 1) := Nat.lt_log2_self
    omega

theorem exists_foldl_widen (es : List Nat) (low high : Nat) :
    ∃ low' high', es.foldl widen (some (low, high)) = some (low', high') ∧
      low' ≤ low ∧ high ≤ high' ∧ ∀ e ∈ es, low' ≤ e ∧ e ≤ high' := by
  induction es generalizing low high
  case nil => exact ⟨low, high, rfl, Nat.le_refl _, Nat.le_refl _, by simp⟩
  case cons e es ih =>
    have ⟨low', high', hrange, hlow, hhigh, hes⟩ := ih (min low e) (max high e)
    refine ⟨low', high', hrange, by omega, by omega, ?_⟩
    intro e' he'
    cases List.mem_cons.mp he'
    case inl h => subst h; omega
    case inr h => exact hes e' h

-- The least and the largest exponent.
def exponentRange (k : FloatKind) (ws : List Nat) : Nat × Nat :=
  (((ws.map k.format.split).map Fields.exponent).foldl widen none).getD (0, 0)

theorem exponentRange_between (hw : w ∈ ws) :
    (exponentRange k ws).1 ≤ (k.format.split w).exponent ∧
      (k.format.split w).exponent ≤ (exponentRange k ws).2 := by
  cases ws
  case nil => contradiction
  case cons v vs =>
    have ⟨low, high, hrange, hlow, hhigh, hes⟩ :=
      exists_foldl_widen ((vs.map k.format.split).map Fields.exponent)
        (k.format.split v).exponent (k.format.split v).exponent
    have heq : exponentRange k (v :: vs) = (low, high) := congrArg (·.getD (0, 0)) hrange
    rw [heq]
    cases List.mem_cons.mp hw
    case inl h => subst h; exact ⟨hlow, hhigh⟩
    case inr h => exact hes _ (List.mem_map_of_mem (List.mem_map_of_mem h))

theorem exponentRange_le (k : FloatKind) (ws : List Nat) :
    (exponentRange k ws).1 ≤ k.format.exponentMax := by
  cases ws
  case nil => exact Nat.zero_le _
  case cons v vs =>
    have hlow := (exponentRange_between (k := k) (List.mem_cons_self (a := v) (l := vs))).left
    exact Nat.le_trans hlow (k.format.exponent_split_le v)

theorem leastExponent_layoutFor (k : FloatKind) (bits : Nat) (ws : List Nat) :
    (layoutFor k bits ws).leastExponent = (exponentRange k ws).1 := rfl

theorem exponentMax_lt (k : FloatKind) : k.format.exponentMax < 2 ^ 11 := by
  cases k <;> decide

theorem leastExponent_between (k : FloatKind) (bits : Nat) (ws : List Nat) :
    0 ≤ (layoutFor k bits ws).leastExponent ∧ (layoutFor k bits ws).leastExponent < 2 ^ 15 := by
  have hle := exponentRange_le k ws
  have hlt := exponentMax_lt k
  rw [leastExponent_layoutFor]
  omega

theorem exponentBits_layoutFor (k : FloatKind) (bits : Nat) (ws : List Nat) :
    (layoutFor k bits ws).exponentBits =
      bitsFor ((exponentRange k ws).2 - (exponentRange k ws).1 + 2) := rfl

@[simp]
theorem mantissaBits_layoutFor (k : FloatKind) (bits : Nat) (ws : List Nat) :
    (layoutFor k bits ws).mantissaBits = bits := rfl

theorem admits_layoutFor (bits : Nat) (hw : w ∈ ws) :
    (layoutFor k bits ws).signs.Admits (k.format.split w).sign := by
  have hlt := (k.format.holds_split w).sign
  have hmem := List.mem_map_of_mem (f := k.format.split) hw
  unfold layoutFor
  dsimp only
  split
  case isTrue =>
    split
    case isTrue => exact hlt
    case isFalse hpositive =>
      have hne : (k.format.split w).sign ≠ 0 := by
        simp only [List.any_eq_true, decide_eq_true_eq, not_exists, not_and] at hpositive
        exact hpositive _ hmem
      change (k.format.split w).sign = 1
      omega
  case isFalse hnegative =>
    simp only [List.any_eq_true, decide_eq_true_eq, not_exists, not_and, not_not] at hnegative
    exact hnegative _ hmem

-- The fields of an element fit the layout, even after rounding.
theorem fits_roundFields (hb : bits ≤ k.format.mantissaBits) (hw : w ∈ ws) :
    (layoutFor k bits ws).Fits (roundFields k bits w).sign
      ((roundFields k bits w).exponent - (layoutFor k bits ws).leastExponent.toNat)
      (roundFields k bits w).mantissa where
  sign := by
    rw [(rounds_roundFields hb w).sign_eq]
    exact admits_layoutFor bits hw
  exponent := by
    have ⟨hlow, hhigh⟩ := exponentRange_between (k := k) hw
    have ⟨_, hcarry⟩ := (rounds_roundFields hb w).exponent_between
    have hroom := le_two_pow_bitsFor ((exponentRange k ws).2 - (exponentRange k ws).1 + 2)
    rw [leastExponent_layoutFor, exponentBits_layoutFor, Int.toNat_natCast]
    omega
  mantissa := (rounds_roundFields hb w).mantissa_lt

-- No exponent of the format leaves the word.
theorem decode_of_between {l : Layout} {c : Nat}
    (h : 0 ≤ exponentOf l c ∧ exponentOf l c ≤ k.format.exponentMax) :
    decode k l c = .ok (k.format.join ⟨l.sign c, (exponentOf l c).toNat,
      l.mantissa c * 2 ^ (k.format.mantissaBits - l.mantissaBits)⟩) := by
  have hmax := exponentMax_lt k
  have hword : Int.bmod (exponentOf l c) (2 ^ 64) = exponentOf l c :=
    Int.bmod_eq_of_le (by omega) (by omega)
  simp only [decode, hword, ne_eq, not_true, if_false, if_pos h]

theorem between_of_decode {l : Layout} {c : Nat} (h : decode k l c = .ok w) :
    0 ≤ exponentOf l c ∧ exponentOf l c ≤ k.format.exponentMax := by
  unfold decode at h
  dsimp only at h
  split at h
  case isTrue => contradiction
  case isFalse =>
    split at h
    case isTrue hbetween => exact hbetween
    case isFalse => contradiction

-- The code of an element leads back to its rounded fields.
theorem decode_encode (hb : bits ≤ k.format.mantissaBits) (hw : w ∈ ws) :
    decode k (layoutFor k bits ws) (encode k (layoutFor k bits ws) w) =
      .ok (k.format.join (roundedFields k bits w)) := by
  have hfits := fits_roundFields hb hw
  have hrounds := rounds_roundFields hb w
  have hmax := hrounds.exponent_le
  have hlt := exponentMax_lt k
  have hexponent : exponentOf (layoutFor k bits ws) (encode k (layoutFor k bits ws) w) =
      (roundFields k bits w).exponent := by
    have ⟨hlow, _⟩ := exponentRange_between (k := k) hw
    have ⟨hle, _⟩ := hrounds.exponent_between
    have hsum : ((exponentRange k ws).1 : Int) +
        ((roundFields k bits w).exponent - (exponentRange k ws).1 : Nat) =
          (roundFields k bits w).exponent := by omega
    rw [exponentOf, encode, mantissaBits_layoutFor, Layout.exponentCode_encode hfits,
      leastExponent_layoutFor, Int.toNat_natCast, Int.bmod_eq_of_le (by omega) (by omega), hsum]
  rw [decode_of_between (hexponent ▸ ⟨Int.natCast_nonneg _, Int.ofNat_le.mpr hmax⟩), hexponent,
    encode, mantissaBits_layoutFor, Layout.sign_encode hfits, Layout.mantissa_encode hfits]
  rfl

end GridPress.Stage.Sigbits

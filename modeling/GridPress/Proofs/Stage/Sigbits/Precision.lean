import GridPress.Proofs.Accuracy.Bits
import GridPress.Proofs.Stage.Sigbits

namespace GridPress.Stage.Sigbits

open Binary (Fields)

variable {k : FloatKind} {h : Hints} {dims : Dims} {src out packed : Bytes} {ws : List Nat}
  {fillCode? : Option Nat} {bits v w : Nat}

-- Mantissas that are less than one unit of the last bit that is kept apart.
def Close (unit m n : Nat) : Prop :=
  m < n + unit ∧ n < m + unit

section Close

variable {unit half m : Nat} (hunit : 0 < unit)

include hunit

theorem close_cut (m : Nat) : Close unit m (m / unit * unit) := by
  have hle := Nat.div_mul_le_self m unit
  exact ⟨Nat.lt_div_mul_add hunit, by omega⟩

theorem close_round (hhalf : unit = 2 * half) (m : Nat) :
    Close unit m ((m + half) / unit * unit) := by
  have hle := Nat.div_mul_le_self (m + half) unit
  have hlt := Nat.lt_div_mul_add (a := m + half) hunit
  exact ⟨by omega, by omega⟩

theorem mul_lt_of_carry (hhalf : unit = 2 * half) {n : Nat} (hcarry : n ≤ (m + half) / unit) :
    n * unit < m + unit := by
  have ⟨_, hlt⟩ := close_round hunit hhalf m
  exact Nat.lt_of_le_of_lt (Nat.mul_le_mul_right unit hcarry) hlt

-- What is no number keeps one unit if the others are cut off.
theorem close_one (hm : m ≠ 0) (hcut : m / unit = 0) : Close unit m (1 * unit) := by
  have hlt : m < unit := (Nat.div_eq_zero_iff_lt hunit).mp hcut
  exact ⟨by omega, by omega⟩

end Close

-- Rounding leaves a mantissa close to the one there was, or carries into the next exponent.
inductive Near (k : FloatKind) (bits w : Nat) : Fields → Prop
  | stays (m : Nat)
    (hclose : Close (2 ^ (k.format.mantissaBits - bits)) (k.format.split w).mantissa m) :
    Near k bits w { k.format.split w with mantissa := m }
  | carries (hclose : 2 ^ k.format.mantissaBits <
      (k.format.split w).mantissa + 2 ^ (k.format.mantissaBits - bits)) :
    Near k bits w
      { k.format.split w with exponent := (k.format.split w).exponent + 1, mantissa := 0 }

theorem near_roundedFields (hb : bits < k.format.mantissaBits) (w : Nat) :
    Near k bits w (roundedFields k bits w) := by
  obtain ⟨s, hs⟩ : ∃ s, k.format.mantissaBits - bits = s + 1 :=
    ⟨_, (Nat.succ_pred_eq_of_pos (Nat.sub_pos_of_lt hb)).symm⟩
  have hunit : 0 < 2 ^ (s + 1) := Nat.two_pow_pos _
  have hround := close_round hunit Nat.pow_succ' (k.format.split w).mantissa
  have hcut := close_cut hunit (k.format.split w).mantissa
  unfold roundedFields roundFields
  dsimp only
  rw [hs, if_neg (Nat.succ_ne_zero s), Nat.add_sub_cancel]
  -- The cases in order: not finite, no carry, a carry into infinity.
  split
  case isTrue =>
    refine .stays _ ?_
    rw [hs]
    split
    case isTrue hnan => exact close_one hunit hnan.left hnan.right.left
    case isFalse => exact hcut
  case isFalse =>
    split
    case isTrue => exact .stays _ (hs ▸ hround)
    case isFalse hcarry =>
      split
      case isTrue => exact .stays _ (hs ▸ hcut)
      case isFalse =>
        have hlt := mul_lt_of_carry hunit Nat.pow_succ' (Nat.not_lt.mp hcarry)
        rw [Nat.zero_mul]
        refine .carries ?_
        rwa [hs, ← pow_mul_pow_sub 2 (Nat.le_of_lt hb), hs]

-- A word with the rounded fields of another one shares one bit more with it than were kept.
theorem lt_matchingBits (hb : bits < k.format.mantissaBits)
    (hw : k.format.split w = roundedFields k bits v) : bits < Accuracy.matchingBits k v w := by
  have hnear := near_roundedFields hb v
  rw [Accuracy.matchingBits_eq, hw]
  generalize roundedFields k bits v = x at hnear ⊢
  cases hnear
  case stays m hclose =>
    have ⟨hlow, hhigh⟩ := hclose
    rw [Accuracy.distance?_mantissa]
    exact Accuracy.lt_sharedBits hb (by omega)
  case carries hclose =>
    have hunit := Nat.two_pow_pos (k.format.mantissaBits - bits)
    rw [Accuracy.distance?_carry]
    exact Accuracy.lt_sharedBits hb (by omega)

-- The packed codes lead to what is restored.
theorem decompressAs_header (hb : keptBits h ≤ k.format.mantissaBits)
    (hl : ws.length = dims.count) (hwidth : (layoutOf k h ws).bits ≤ k.datatype.width)
    (hfill : FillCode k h (layoutOf k h ws) ws fillCode?)
    (hpacked : Packing.pack (layoutOf k h ws).bits
      (ws.map (code k h (layoutOf k h ws) fillCode?)) = .ok packed) :
    decompressAs k dims (header (layoutOf k h ws) h.fillValue fillCode? ++ packed) =
      .ok (Element.join k.datatype (ws.map (restored k h))) := by
  have hbits : (layoutOf k h ws).bits ≤ 64 := Nat.le_trans hwidth (by cases k <;> decide)
  have ⟨hnonneg, hleast⟩ := leastExponent_between k (keptBits h) (regularWords k h ws)
  have hread := Header.read_rest
    (reads_headerReader (reads_layoutReader hbits hb hnonneg hleast) hbits hfill) packed
  have hunpack := Packing.unpack_of_pack hpacked []
  rw [List.append_nil, List.length_map, hl] at hunpack
  simp only [decompressAs, hread, Result.ok_bind, hunpack]
  exact Result.bind_eq_ok_iff.mpr ⟨_, mapM_decode hb hfill, rfl⟩

theorem decompressAs_of_compressAs (hf : compressAs k h dims src = .ok out) :
    keptBits h ≤ k.format.mantissaBits ∧ src.length % k.datatype.size = 0 ∧
      decompressAs k dims out = .ok (Element.join k.datatype
        ((Element.split k.datatype src).map (restored k h))) := by
  obtain ⟨hb, ws, fillCode?, packed, hws, hwidth, hfill, hpacked, rfl⟩ := exists_of_compressAs hf
  obtain ⟨hd, rfl, hl⟩ := Element.decodeAs_eq_ok_iff.mp hws
  exact ⟨hb, hd, decompressAs_header hb hl hwidth hfill hpacked⟩

-- Without a fill value, an element shares as many bits with what comes back for it as were asked
-- for.
theorem le_matchingBits_restored (hfill : h.hasFill = false)
    (hbits : 0 < h.significantBits) (hmax : h.significantBits ≤ k.format.mantissaBits) (w : Nat) :
    h.significantBits.toNat ≤ Accuracy.matchingBits k w (restored k h w) := by
  have hb : keptBits h < k.format.mantissaBits := by
    unfold keptBits
    omega
  have hregular : ¬h.isFill (k.toDouble w) = true := by simp [Hints.isFill, hfill]
  have hfields : k.format.split (restored k h w) = roundedFields k (keptBits h) w := by
    rw [restored, if_neg hregular]
    exact Binary.Format.split_join (holds_roundedFields (Nat.le_of_lt hb) w)
  have hlt := lt_matchingBits hb hfields
  unfold keptBits at hlt
  omega

theorem significantBits_pos (hf : compressAs k h dims src = .ok out) : 0 < h.significantBits := by
  unfold compressAs at hf
  exact Int.not_le.mp (Result.guard_eq_ok_iff.mp hf).left

-- An array and what comes back for it agree on as many bits as were asked for.
theorem decompress_meets_significantBits {t : Datatype} (ht : t.kind? = some k)
    (hfill : h.hasFill = false) (hmax : h.significantBits ≤ k.format.mantissaBits)
    (hf : compress t h dims src = .ok out) (floor : Double) :
    ∃ back a, decompress t dims out = .ok back ∧
      Accuracy.determine t floor src back = .ok a ∧ h.significantBits ≤ a.bits := by
  obtain rfl := FloatKind.datatype_of_kind? ht
  simp only [compress, decompress, ht] at hf ⊢
  have hpos := significantBits_pos hf
  obtain ⟨hb, hd, hback⟩ := decompressAs_of_compressAs hf
  obtain ⟨hl, hpairs⟩ := Element.forall₂_split_join
    (R := (h.significantBits.toNat ≤ Accuracy.matchingBits k · ·)) hd
    (fun w _ => restored_lt hb w) fun w _ => le_matchingBits_restored hfill hpos hmax w
  obtain ⟨a, ha, hbits⟩ := Accuracy.le_bits_determine ht hd hl (by omega) hpairs floor
  exact ⟨_, a, hback, ha, by omega⟩

-- The least number above zero, one just below 2, the largest one, minus infinity and a NaN.
def extremes : Bytes :=
  [1, 0, 0, 0, 255, 255, 255, 63, 255, 255, 127, 127, 0, 0, 128, 255, 1, 0, 128, 127]

def threeBits : Hints where
  significantBits := 3

theorem decompress_meets_threeBits :
    ∃ out back a, compress .float threeBits .five extremes = .ok out ∧
      decompress .float .five out = .ok back ∧
      Accuracy.determine .float .zero extremes back = .ok a ∧ 3 ≤ a.bits := by
  have hf : compress .float threeBits .five extremes = .ok
      [2, 9, 2, 0, 0, 255, 255, 255, 255, 255, 255, 239, 127, 0, 2, 0, 63, 187, 252, 63, 208] := by
    decide +kernel
  have ⟨back, a, hback, ha, hbits⟩ := decompress_meets_significantBits (k := .single) rfl
    (by decide +kernel) (by decide) hf .zero
  exact ⟨_, back, a, hf, hback, ha, hbits⟩

end GridPress.Stage.Sigbits

import GridPress.Proofs.Binary.Kind
import GridPress.Proofs.Header
import GridPress.Proofs.Packing
import GridPress.Proofs.Stage.Placement
import GridPress.Proofs.Stage.Sigbits.Layout

namespace GridPress.Stage.Sigbits

open Binary (field_lt)

variable {k : FloatKind} {h : Hints} {dims : Dims} {src out : Bytes} {ws : List Nat} {w : Nat}
  {l : Layout} {fillCode? : Option Nat}

-- The words that are not fills.
def regularWords (k : FloatKind) (h : Hints) (ws : List Nat) : List Nat :=
  ws.filter fun w => !h.isFill (k.toDouble w)

theorem mem_regularWords (hw : w ∈ ws) (hfill : ¬h.isFill (k.toDouble w) = true) :
    w ∈ regularWords k h ws :=
  List.mem_filter.mpr ⟨hw, by simpa using hfill⟩

-- The code of the fills has an exponent that no other element's code has. There is one if there is
-- a fill value.
inductive FillCode (k : FloatKind) (h : Hints) (l : Layout) (ws : List Nat) : Option Nat → Prop
  | none (hnone : h.hasFill = false) : FillCode k h l ws none
  | some {c : Nat} (hsome : h.hasFill = true) (hlt : c < 2 ^ l.exponentBits)
    (hfree : ∀ w ∈ regularWords k h ws, l.exponentCode (encode k l w) ≠ c) :
    FillCode k h l ws (some (c * 2 ^ l.mantissaBits))

theorem freeCode?_eq_some {codes : List Nat} {c : Nat} (hc : freeCode? l codes = some c) :
    c < 2 ^ l.exponentBits ∧ ∀ code ∈ codes, l.exponentCode code ≠ c := by
  have hmem := List.mem_of_find?_eq_some hc
  have hunused := List.find?_some hc
  refine ⟨List.mem_range.mp hmem, ?_⟩
  intro code hcode heq
  have hused : c ∈ codes.map l.exponentCode := heq ▸ List.mem_map_of_mem hcode
  simp [hused] at hunused

theorem fillCode_of_fillCodeFor
    (hf : fillCodeFor h l ((regularWords k h ws).map (encode k l)) = .ok fillCode?) :
    FillCode k h l ws fillCode? := by
  unfold fillCodeFor at hf
  split at hf
  case isTrue hsome =>
    split at hf
    case h_1 c hc =>
      obtain rfl := Except.ok.inj hf
      have ⟨hlt, hfree⟩ := freeCode?_eq_some hc
      exact .some hsome hlt fun w hw => hfree _ (List.mem_map_of_mem hw)
    case h_2 => contradiction
  case isFalse hnone =>
    obtain rfl := Except.ok.inj hf
    exact .none (Bool.not_eq_true _ ▸ hnone)

-- The mantissa bits that are kept.
def keptBits (h : Hints) : Nat :=
  h.significantBits.toNat - 1

-- The layout goes by the words that are not fills.
def layoutOf (k : FloatKind) (h : Hints) (ws : List Nat) : Layout :=
  layoutFor k (keptBits h) (regularWords k h ws)

def code (k : FloatKind) (h : Hints) (l : Layout) (fillCode? : Option Nat) (w : Nat) : Nat :=
  if h.isFill (k.toDouble w) then fillCode?.getD 0 else encode k l w

-- The bytes in front of the packed codes.
def layoutHeader (l : Layout) : Bytes :=
  Bytes.ofNat 1 l.signs.code ++ (Bytes.ofNat 1 l.exponentBits ++ (Bytes.ofNat 1 l.mantissaBits ++
    Bytes.ofNat 2 (l.leastExponent % (256 ^ 2 : Nat)).toNat))

def header (l : Layout) (fill : Double) (fillCode? : Option Nat) : Bytes :=
  layoutHeader l ++ (Bytes.ofNat 8 fill.toWord ++ (fillCode?.map (Bytes.ofNat 8)).getD [])

theorem exists_of_compressAs (hf : compressAs k h dims src = .ok out) :
    keptBits h ≤ k.format.mantissaBits ∧ ∃ ws fillCode? packed,
      Element.decodeAs k.datatype dims src = .ok ws ∧
      (layoutOf k h ws).bits ≤ k.datatype.width ∧
      FillCode k h (layoutOf k h ws) ws fillCode? ∧
      Packing.pack (layoutOf k h ws).bits (ws.map (code k h (layoutOf k h ws) fillCode?)) =
        .ok packed ∧
      out = header (layoutOf k h ws) h.fillValue fillCode? ++ packed := by
  unfold compressAs at hf
  obtain ⟨-, hf⟩ := Result.guard_eq_ok_iff.mp hf
  obtain ⟨hkept, hf⟩ := Result.guard_eq_ok_iff.mp hf
  obtain ⟨ws, hws, hf⟩ := Result.bind_eq_ok_iff.mp hf
  obtain ⟨hwidth, hf⟩ := Result.guard_eq_ok_iff.mp hf
  obtain ⟨fillCode?, hfill, hf⟩ := Result.bind_eq_ok_iff.mp hf
  obtain ⟨packed, hpacked, hout⟩ := Result.bind_eq_ok_iff.mp hf
  obtain rfl := Except.ok.inj hout
  refine ⟨Nat.not_lt.mp hkept, ws, fillCode?, packed, hws, Nat.not_lt.mp hwidth,
    fillCode_of_fillCodeFor hfill, hpacked, ?_⟩
  simp [header, layoutHeader, Bytes.ofNat, layoutOf, keptBits, regularWords]

theorem Signs.ofCode?_code (s : Signs) : ofCode? s.code = some s := by
  cases s <;> rfl

theorem Signs.code_lt (s : Signs) : s.code < 256 := by
  cases s <;> decide

theorem exponentBits_add_le (l : Layout) : l.exponentBits + l.mantissaBits ≤ l.bits := by
  unfold Layout.bits
  omega

theorem reads_layoutReader (hbits : l.bits ≤ 64)
    (hmantissa : l.mantissaBits ≤ k.format.mantissaBits) (hlow : 0 ≤ l.leastExponent)
    (hhigh : l.leastExponent < 2 ^ 15) : Header.Reads (layoutReader k) (layoutHeader l) l := by
  have hsum := exponentBits_add_le l
  refine Header.reads_bind (Header.reads_nat (n := 1) (Signs.code_lt _))
    (Header.reads_bind (Header.reads_nat (n := 1) (by omega))
      (Header.reads_bind (Header.reads_nat (n := 1) (by omega))
        (Header.reads_last (Header.reads_int (n := 2) (by omega) (by omega)) ?_)))
  have hvalid : ¬(k.format.mantissaBits < l.mantissaBits ∨ 64 < l.bits) := by omega
  dsimp only
  rw [Signs.ofCode?_code]
  exact if_neg hvalid

-- The code of the fills is read as its exponent.
theorem reads_headerReader
    (hl : Header.Reads (layoutReader k) (layoutHeader l) l) (hbits : l.bits ≤ 64)
    (hfill : FillCode k h l ws fillCode?) :
    Header.Reads (headerReader k) (header l h.fillValue fillCode?)
      (l, h.fillValue, fillCode?.map (· / 2 ^ l.mantissaBits)) := by
  refine Header.reads_bind hl (Header.reads_bind (Header.reads_double _) ?_)
  cases hfill
  case none hnone =>
    have hequal : h.fillValue.equal Hints.noFill = true := by simpa [Hints.hasFill] using hnone
    rw [if_pos hequal]
    exact Header.reads_pure _
  case some c hsome hlt _ =>
    have hequal : ¬h.fillValue.equal Hints.noFill = true := by simpa [Hints.hasFill] using hsome
    have hfits : c * 2 ^ l.mantissaBits < 256 ^ 8 := by
      have hcode : c * 2 ^ l.mantissaBits + 0 < 2 ^ (l.exponentBits + l.mantissaBits) :=
        field_lt hlt (Nat.two_pow_pos _)
      have hpow : 2 ^ (l.exponentBits + l.mantissaBits) ≤ 2 ^ 64 :=
        Nat.pow_le_pow_right (by decide) (Nat.le_trans (exponentBits_add_le l) hbits)
      exact Nat.lt_of_lt_of_le hcode hpow
    rw [if_neg hequal]
    exact Header.reads_map (g := fun c => (l, h.fillValue, some (c / 2 ^ l.mantissaBits)))
      (Header.reads_nat hfits)

-- The code of the fills is that of the fills alone.
theorem exponentCode_code_iff
    (hfill : FillCode k h l ws fillCode?) (hw : w ∈ ws) :
    some (l.exponentCode (code k h l fillCode? w)) = fillCode?.map (· / 2 ^ l.mantissaBits) ↔
      h.isFill (k.toDouble w) = true := by
  unfold code
  by_cases hw' : h.isFill (k.toDouble w) = true
  case pos =>
    have hsome : h.hasFill = true := (Bool.and_eq_true_iff.mp hw').left
    rw [if_pos hw', iff_true_right hw']
    cases hfill
    case none hnone => exact absurd hsome (by simp [hnone])
    case some c _ hlt _ =>
      rw [Option.getD_some, Option.map_some, Layout.exponentCode_mul hlt,
        Nat.mul_div_cancel _ (Nat.two_pow_pos _)]
  case neg =>
    rw [if_neg hw', iff_false_right hw']
    cases hfill
    case none => exact nofun
    case some c _ _ hfree =>
      rw [Option.map_some, Nat.mul_div_cancel _ (Nat.two_pow_pos _), Option.some.injEq]
      exact hfree w (mem_regularWords hw hw')

-- What an element may come back as: a fill as the fill value, and any other with its sign and its
-- rounded fields.
inductive Restores (k : FloatKind) (h : Hints) (w : Nat) : Nat → Prop
  | fill (hfill : h.isFill (k.toDouble w) = true) : Restores k h w (k.ofDouble h.fillValue)
  | rounded {v : Nat} (hfill : ¬h.isFill (k.toDouble w) = true)
    (hfields : k.format.split v = roundedFields k (keptBits h) w)
    (hsign : (k.format.split v).sign = (k.format.split w).sign) : Restores k h w v

def restored (k : FloatKind) (h : Hints) (w : Nat) : Nat :=
  if h.isFill (k.toDouble w) then k.ofDouble h.fillValue
  else k.format.join (roundedFields k (keptBits h) w)

theorem restores_restored (hb : keptBits h ≤ k.format.mantissaBits) (w : Nat) :
    Restores k h w (restored k h w) := by
  unfold restored
  split
  case isTrue hfill => exact .fill hfill
  case isFalse hfill =>
    have hfields := Binary.Format.split_join (holds_roundedFields hb w)
    refine .rounded hfill hfields ?_
    rw [hfields]
    exact (rounds_roundFields hb w).sign_eq

theorem restored_lt (hb : keptBits h ≤ k.format.mantissaBits) (w : Nat) :
    restored k h w < 2 ^ k.datatype.width := by
  unfold restored
  split
  case isTrue => exact k.ofDouble_lt _
  case isFalse =>
    rw [k.two_pow_width]
    exact Binary.Format.join_lt (holds_roundedFields hb w)

-- The codes lead to what is restored.
theorem mapM_decode (hb : keptBits h ≤ k.format.mantissaBits)
    (hfill : FillCode k h (layoutOf k h ws) ws fillCode?) :
    ((ws.map (code k h (layoutOf k h ws) fillCode?)).mapM fun c =>
      if some ((layoutOf k h ws).exponentCode c) =
          fillCode?.map (· / 2 ^ (layoutOf k h ws).mantissaBits) then
        pure (k.ofDouble h.fillValue)
      else decode k (layoutOf k h ws) c) = .ok (ws.map (restored k h)) := by
  rw [List.mapM_map]
  refine Result.mapM_eq_ok fun w hw => ?_
  have hiff := exponentCode_code_iff hfill hw
  unfold restored
  rw [Function.comp_apply]
  by_cases hw' : h.isFill (k.toDouble w) = true
  case pos =>
    rw [if_pos (hiff.mpr hw'), if_pos hw']
    rfl
  case neg =>
    rw [if_neg (mt hiff.mp hw'), if_neg hw', code, if_neg hw']
    exact decode_encode hb (mem_regularWords hw hw')

-- What is written for words reads as codes of theirs, and the code of the fills is that of no other
-- element.
def Separates (k : FloatKind) (h : Hints) (dims : Dims) (ws : List Nat) (out : Bytes) : Prop :=
  ∃ l fillCode? body codes,
    Header.read (do return (← headerReader k, ← Header.rest)) out =
      .ok ((l, h.fillValue, fillCode?), body) ∧
    Packing.unpack l.bits dims.count body = .ok codes ∧
    List.Forall₂ (fun w c => some (l.exponentCode c) = fillCode? ↔
      h.isFill (k.toDouble w) = true) ws codes

-- What was compressed comes back element by element: fills as the fill value, and all others with
-- their rounded fields. No other element is taken for a fill.
theorem decompress_rounds {t : Datatype} (ht : t.kind? = some k)
    (hf : compress t h dims src = .ok out) :
    Separates k h dims (Element.split t src) out ∧
      ∃ back, decompress t dims out = .ok back ∧ back.length = src.length ∧
        List.Forall₂ (Restores k h) (Element.split t src) (Element.split t back) := by
  obtain rfl := FloatKind.datatype_of_kind? ht
  simp only [compress, decompress, ht] at hf ⊢
  obtain ⟨hb, ws, fillCode?, packed, hws, hwidth, hfill, hpacked, rfl⟩ := exists_of_compressAs hf
  obtain ⟨hd, rfl, hl⟩ := Element.decodeAs_eq_ok_iff.mp hws
  have hbits : (layoutOf k h (Element.split k.datatype src)).bits ≤ 64 :=
    Nat.le_trans hwidth (by cases k <;> decide)
  have ⟨hnonneg, hleast⟩ := leastExponent_between k (keptBits h)
    (regularWords k h (Element.split k.datatype src))
  have hread := Header.read_rest
    (reads_headerReader (reads_layoutReader hbits hb hnonneg hleast) hbits hfill) packed
  have hunpack := Packing.unpack_of_pack hpacked []
  rw [List.append_nil, List.length_map, hl] at hunpack
  have ⟨hlength, hrestores⟩ := Element.forall₂_split_join (f := restored k h) hd
    (fun w _ => restored_lt hb w) (fun w _ => restores_restored hb w)
  refine ⟨⟨_, _, _, _, hread, hunpack, ?_⟩, _, ?_, hlength, hrestores⟩
  · rw [List.forall₂_map_right_iff, List.forall₂_same]
    exact fun w hw => exponentCode_code_iff hfill hw
  · simp only [decompressAs, hread, Result.ok_bind, hunpack]
    exact Result.bind_eq_ok_iff.mpr ⟨_, mapM_decode hb hfill, rfl⟩

-- The numbers 1, one just above -2, -999, one close to pi, and -0.8.
def mixedSource : Bytes :=
  [0, 0, 128, 63, 255, 255, 255, 191, 0, 192, 121, 196, 219, 15, 73, 64, 205, 204, 76, 191]

-- Four significant bits, and the fill value -999.
def mixedHints : Hints where
  significantBits := 4
  fillValue       := .ofWord 0xc08f380000000000

theorem decompress_rounds_mixed :
    ∃ out, compress .float mixedHints .five mixedSource = .ok out ∧
      Separates .single mixedHints .five (Element.split .float mixedSource) out ∧
      ∃ back, decompress .float .five out = .ok back ∧ back.length = mixedSource.length ∧
        List.Forall₂ (Restores .single mixedHints) (Element.split .float mixedSource)
          (Element.split .float back) := by
  have hf : compress .float mixedHints .five mixedSource = .ok
      [2, 2, 3, 126, 0, 0, 0, 0, 0, 0, 56, 143, 192, 24, 0, 0, 0, 0, 0, 0, 0, 35, 6, 21, 148] := by
    decide +kernel
  exact ⟨_, hf, decompress_rounds rfl hf⟩

end GridPress.Stage.Sigbits

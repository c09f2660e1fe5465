import GridPress.Proofs.Stage.Sigbits

namespace GridPress.Stage.Sigbits

variable {k : FloatKind} {dims : Dims} {src out : Bytes} {l : Layout} {fill : Double}
  {fillCode? : Option Nat} {c w : Nat} {e : Int}

-- What reading a layout makes sure of.
structure Layout.Valid (k : FloatKind) (l : Layout) : Prop where
  mantissaBits : l.mantissaBits ≤ k.format.mantissaBits
  bits         : l.bits ≤ 64
  exponent     : -2 ^ 15 ≤ l.leastExponent ∧ l.leastExponent < 2 ^ 15

theorem valid_of_layoutReader {s s' : Header.Cursor} (h : layoutReader k s = .ok (l, s')) :
    l.Valid k := by
  have ⟨signs, s₁, _, h⟩ := Header.bind_eq_ok_iff.mp h
  have ⟨exponentBits, s₂, _, h⟩ := Header.bind_eq_ok_iff.mp h
  have ⟨mantissaBits, s₃, _, h⟩ := Header.bind_eq_ok_iff.mp h
  have ⟨least, s₄, hleast, h⟩ := Header.bind_eq_ok_iff.mp h
  cases hsigns : Signs.ofCode? signs <;> simp only [hsigns] at h
  case none => contradiction
  case some =>
    split at h
    case isTrue => contradiction
    case isFalse hvalid =>
      obtain ⟨rfl, -⟩ := Prod.mk.inj (Except.ok.inj h)
      have ⟨hmantissa, hbits⟩ := not_or.mp hvalid
      exact ⟨Nat.not_lt.mp hmantissa, Nat.not_lt.mp hbits, Header.int_between hleast⟩

theorem valid_of_headerReader {s s' : Header.Cursor}
    (h : headerReader k s = .ok ((l, fill, fillCode?), s')) : l.Valid k := by
  have ⟨l', s₁, hl, h⟩ := Header.bind_eq_ok_iff.mp h
  have ⟨fill', s₂, _, h⟩ := Header.bind_eq_ok_iff.mp h
  have heq : l' = l := by
    split at h
    case isTrue => exact congrArg (·.1.1) (Except.ok.inj h)
    case isFalse =>
      have ⟨_, s₃, _, h⟩ := Header.bind_eq_ok_iff.mp h
      exact congrArg (·.1.1) (Except.ok.inj h)
  exact heq ▸ valid_of_layoutReader hl

theorem Layout.exponentCode_lt (l : Layout) (c : Nat) : l.exponentCode c < 2 ^ l.exponentBits :=
  Nat.mod_lt _ (Nat.two_pow_pos _)

theorem Layout.sign_lt (l : Layout) (c : Nat) : l.sign c < 2 := by
  unfold Layout.sign
  split
  case h_1 => decide
  case h_2 => decide
  case h_3 => exact Nat.mod_lt _ (by decide)

-- A code may leave the word, and comes out too small by a whole turn.
theorem exponentOf_eq_iff (hl : l.Valid k) (c : Nat) (he : 0 ≤ e ∧ e ≤ k.format.exponentMax) :
    exponentOf l c = e ↔
      l.exponentCode c < 2 ^ 63 ∧ l.leastExponent + l.exponentCode c = e ∨
      2 ^ 63 ≤ l.exponentCode c ∧ l.leastExponent + (l.exponentCode c - 2 ^ 64) = e := by
  have ⟨hlow, hhigh⟩ := hl.exponent
  have hmax := exponentMax_lt k
  have hcode : l.exponentCode c < 2 ^ 64 := by
    have hbits : l.exponentBits ≤ 64 := by
      have := exponentBits_add_le l
      have := hl.bits
      omega
    exact Nat.lt_of_lt_of_le (l.exponentCode_lt c) (Nat.pow_le_pow_right (by decide) hbits)
  rw [exponentOf, Int.bmod_def]
  split <;> omega

-- The fields of the element for a code, given its exponent.
def fieldsFor (k : FloatKind) (l : Layout) (c e : Nat) : Binary.Fields :=
  ⟨l.sign c, e, l.mantissa c * 2 ^ (k.format.mantissaBits - l.mantissaBits)⟩

-- The word has the exponent `e`, which is one of the format, and all else from the code.
structure Carries (k : FloatKind) (l : Layout) (c : Nat) (e : Int) (w : Nat) : Prop where
  between  : 0 ≤ e ∧ e ≤ k.format.exponentMax
  exponent : (k.format.split w).exponent = e
  fields   : k.format.split w = fieldsFor k l c (k.format.split w).exponent

theorem holds_fieldsFor (hl : l.Valid k) (c : Nat) {e : Nat} (he : e ≤ k.format.exponentMax) :
    k.format.Holds (fieldsFor k l c e) where
  sign     := l.sign_lt c
  exponent := Nat.lt_of_le_sub_one (Nat.two_pow_pos _) he
  mantissa := by
    rw [← pow_mul_pow_sub 2 hl.mantissaBits]
    exact Nat.mul_lt_mul_of_pos_right (Nat.mod_lt _ (Nat.two_pow_pos _)) (Nat.two_pow_pos _)

theorem decode_eq_ok_iff (hl : l.Valid k) :
    decode k l c = .ok w ↔ w < 2 ^ k.datatype.width ∧ Carries k l c (exponentOf l c) w := by
  rw [k.two_pow_width]
  by_cases hrange : 0 ≤ exponentOf l c ∧ exponentOf l c ≤ k.format.exponentMax
  case neg =>
    exact iff_of_false (fun h => hrange (between_of_decode h)) fun h => hrange h.right.between
  case pos =>
    have hdecode : decode k l c = .ok (k.format.join (fieldsFor k l c (exponentOf l c).toNat)) :=
      decode_of_between hrange
    rw [hdecode]
    have hholds := holds_fieldsFor hl c (Int.toNat_le.mpr hrange.right)
    have hsplit := Binary.Format.split_join hholds
    constructor
    case mp =>
      intro h
      obtain rfl := Except.ok.inj h
      refine ⟨Binary.Format.join_lt hholds, hrange, ?_, ?_⟩
      · rw [hsplit]
        exact Int.toNat_of_nonneg hrange.left
      · rw [hsplit]
        rfl
    case mpr =>
      rintro ⟨hlt, hw⟩
      rw [← hw.exponent, Int.toNat_natCast, ← hw.fields, Binary.Format.join_split hlt]

-- What a code may decode to. The fills' code has the fill value, and any other the exponent that is
-- its distance from the least one. A code of 64 bits is taken for a negative number if its highest
-- bit is set.
inductive Decodes (k : FloatKind) (l : Layout) (fill : Double) (fillCode? : Option Nat) (c : Nat) :
    Nat → Prop
  | fill (hfill : some (l.exponentCode c) = fillCode?) :
    Decodes k l fill fillCode? c (k.ofDouble fill)
  | exact {w : Nat} (hfill : some (l.exponentCode c) ≠ fillCode?)
    (hcode : l.exponentCode c < 2 ^ 63)
    (hw : Carries k l c (l.leastExponent + l.exponentCode c) w) : Decodes k l fill fillCode? c w
  | wrapped {w : Nat} (hfill : some (l.exponentCode c) ≠ fillCode?) (hbits : l.exponentBits = 64)
    (hcode : 2 ^ 63 ≤ l.exponentCode c)
    (hw : Carries k l c (l.leastExponent + (l.exponentCode c - 2 ^ 64)) w) :
    Decodes k l fill fillCode? c w

theorem exponentBits_eq (hl : l.Valid k) (hcode : 2 ^ 63 ≤ l.exponentCode c) :
    l.exponentBits = 64 := by
  have hlt : 63 < l.exponentBits :=
    (Nat.pow_lt_pow_iff_right (by decide)).mp (Nat.lt_of_le_of_lt hcode (l.exponentCode_lt c))
  have hle := exponentBits_add_le l
  have hbits := hl.bits
  omega

theorem carries_exponentOf_iff (hl : l.Valid k) :
    Carries k l c (exponentOf l c) w ↔
      l.exponentCode c < 2 ^ 63 ∧ Carries k l c (l.leastExponent + l.exponentCode c) w ∨
      2 ^ 63 ≤ l.exponentCode c ∧
        Carries k l c (l.leastExponent + (l.exponentCode c - 2 ^ 64)) w := by
  constructor
  case mp =>
    intro hw
    cases (exponentOf_eq_iff hl c hw.between).mp rfl
    case inl h => exact .inl ⟨h.left, h.right ▸ hw⟩
    case inr h => exact .inr ⟨h.left, h.right ▸ hw⟩
  case mpr =>
    intro h
    cases h
    case inl h =>
      have heq := (exponentOf_eq_iff hl c h.right.between).mpr (.inl ⟨h.left, rfl⟩)
      exact heq ▸ h.right
    case inr h =>
      have heq := (exponentOf_eq_iff hl c h.right.between).mpr (.inr ⟨h.left, rfl⟩)
      exact heq ▸ h.right

theorem step_eq_ok_iff (hl : l.Valid k) :
    (if some (l.exponentCode c) = fillCode? then pure (k.ofDouble fill) else decode k l c) =
        .ok w ↔ w < 2 ^ k.datatype.width ∧ Decodes k l fill fillCode? c w := by
  split
  case isTrue hfill =>
    constructor
    case mp =>
      intro h
      obtain rfl := Except.ok.inj h
      exact ⟨k.ofDouble_lt fill, .fill hfill⟩
    case mpr =>
      rintro ⟨_, hw⟩
      cases hw
      case fill => rfl
      case exact hne _ _ => exact absurd hfill hne
      case wrapped hne _ _ _ => exact absurd hfill hne
  case isFalse hfill =>
    rw [decode_eq_ok_iff hl, carries_exponentOf_iff hl]
    refine and_congr_right fun hlt => ?_
    constructor
    case mp =>
      intro h
      cases h
      case inl h => exact .exact hfill h.left h.right
      case inr h => exact .wrapped hfill (exponentBits_eq hl h.left) h.left h.right
    case mpr =>
      intro hw
      cases hw
      case fill hfill' => exact absurd hfill' hfill
      case exact _ hcode hw => exact .inl ⟨hcode, hw⟩
      case wrapped _ _ hcode hw => exact .inr ⟨hcode, hw⟩

theorem mapM_step_eq_ok_iff (hl : l.Valid k) {codes words : List Nat} :
    (codes.mapM fun c =>
      if some (l.exponentCode c) = fillCode? then pure (k.ofDouble fill) else decode k l c) =
        .ok words ↔
      (∀ w ∈ words, w < 2 ^ k.datatype.width) ∧
        List.Forall₂ (Decodes k l fill fillCode?) codes words := by
  rw [Result.mapM_eq_ok_iff]
  simp only [step_eq_ok_iff hl]
  constructor
  case mp =>
    intro h
    have hflip : List.Forall₂
        (fun w c => w < 2 ^ k.datatype.width ∧ Decodes k l fill fillCode? c w) words codes := h.flip
    have ⟨hlt, hdecodes⟩ := (List.forall₂_and_left _ _).mp hflip
    exact ⟨hlt, hdecodes.flip⟩
  case mpr =>
    rintro ⟨hlt, hdecodes⟩
    have hflip := (List.forall₂_and_left _ _).mpr ⟨hlt, hdecodes.flip⟩
    exact hflip.flip

-- Decompression succeeds exactly if every code decodes.
theorem decompress_iff_decodes {t : Datatype} (ht : t.kind? = some k) :
    decompress t dims src = .ok out ↔ ∃ l fill fillCode? body codes,
      Header.read (do return (← headerReader k, ← Header.rest)) src =
        .ok ((l, fill, fillCode?), body) ∧
      Packing.unpack l.bits dims.count body = .ok codes ∧ out.length % t.size = 0 ∧
      List.Forall₂ (Decodes k l fill fillCode?) codes (Element.split t out) := by
  obtain rfl := FloatKind.datatype_of_kind? ht
  simp only [decompress, ht, decompressAs, Result.bind_eq_ok_iff, Prod.exists]
  constructor
  case mp =>
    rintro ⟨l, fill, fillCode?, body, hread, codes, hunpack, words, hwords, hout⟩
    obtain rfl := Except.ok.inj hout
    obtain ⟨_, hheader⟩ := Header.exists_of_read_rest hread
    obtain ⟨hlt, hdecodes⟩ := (mapM_step_eq_ok_iff (valid_of_headerReader hheader)).mp hwords
    refine ⟨l, fill, fillCode?, body, codes, hread, hunpack, ?_, ?_⟩
    · rw [Element.length_join, Nat.mul_mod_right]
    · rwa [Element.split_join hlt]
  case mpr =>
    rintro ⟨l, fill, fillCode?, body, codes, hread, hunpack, hlength, hdecodes⟩
    obtain ⟨_, hheader⟩ := Header.exists_of_read_rest hread
    have hwords := (mapM_step_eq_ok_iff (valid_of_headerReader hheader)).mpr
      ⟨fun _ hw => Element.lt_of_mem_split hw, hdecodes⟩
    refine ⟨l, fill, fillCode?, body, hread, codes, hunpack, _, hwords, ?_⟩
    rw [Element.join_split hlength]
    rfl

-- Codes of 64 bits without signs and mantissas. The fills have the code 2, and the last code wraps.
def wideLayout : Layout :=
  ⟨.positive, 64, 0, 1⟩

def wideCodes : List Nat :=
  [0, 1022, 2, 2045, 2 ^ 64 - 1]

def wideSource : Bytes :=
  header wideLayout (.ofInt (-999)) (some 2) ++ Packing.join 64 wideCodes

-- The numbers with the exponents 1, 1023, that of -999, 2046, and 0.
def wideOutput : Bytes :=
  Element.join .double [2 ^ 52, 1023 * 2 ^ 52, 0xc08f380000000000, 2046 * 2 ^ 52, 0]

theorem decompress_iff_decodes_wide :
    decompress .double .five wideSource = .ok wideOutput ∧ ∃ l fill fillCode? body codes,
      Header.read (do return (← headerReader .double, ← Header.rest)) wideSource =
        .ok ((l, fill, fillCode?), body) ∧
      Packing.unpack l.bits Dims.five.count body = .ok codes ∧
      wideOutput.length % Datatype.double.size = 0 ∧
      List.Forall₂ (Decodes .double l fill fillCode?) codes (Element.split .double wideOutput) := by
  have hf : decompress .double .five wideSource = .ok wideOutput := by decide +kernel
  exact ⟨hf, (decompress_iff_decodes rfl).mp hf⟩

-- The sum of the least exponent and the last code is `2 ^ 64`, which is no exponent of a double.
theorem not_carries_of_decompress :
    ¬∀ (t : Datatype) (k : FloatKind) (dims : Dims) (src out : Bytes) (l : Layout) (fill : Double)
      (fillCode? : Option Nat) (body : Bytes) (codes : List Nat),
      t.kind? = some k → decompress t dims src = .ok out →
      Header.read (do return (← headerReader k, ← Header.rest)) src =
        .ok ((l, fill, fillCode?), body) →
      Packing.unpack l.bits dims.count body = .ok codes →
      List.Forall₂ (fun c w => some (l.exponentCode c) ≠ fillCode? →
        Carries k l c (l.leastExponent + l.exponentCode c) w) codes (Element.split t out) := by
  intro hall
  have h := hall .double .double .five wideSource wideOutput wideLayout (.ofInt (-999)) (some 2)
    (Packing.join 64 wideCodes) wideCodes rfl (by decide +kernel) (by decide +kernel)
    (by decide +kernel)
  have hlast := h.get (i := 4) (by decide) (by decide)
  have hcarries := hlast (by decide)
  exact absurd hcarries.between.right (by decide)

end GridPress.Stage.Sigbits

import GridPress.Proofs.Registry
import GridPress.Proofs.Stage.Abstol
import GridPress.Proofs.Stage.Quantize
import GridPress.Proofs.Stage.Sigbits.Precision
import GridPress.Proofs.Stage.Sigbits.Rounding

namespace GridPress

namespace Hints

variable {h : Hints} {k : FloatKind}

-- The word of the fill value in an array.
def fillWord (h : Hints) (k : FloatKind) : Nat :=
  k.ofDouble h.fillValue

theorem fillWord_lt (h : Hints) (k : FloatKind) : h.fillWord k < 2 ^ k.datatype.width :=
  k.ofDouble_lt _

-- Whether that word is the fill value itself. The nearest number of a narrow type need not be, and
-- what is no number equals nothing.
def Represents (h : Hints) (k : FloatKind) : Prop :=
  (k.toDouble (h.fillWord k)).equal h.fillValue = true

instance : Decidable (h.Represents k) :=
  inferInstanceAs (Decidable (_ = true))

theorem isFill_fillWord_iff (hfill : h.hasFill = true) :
    h.isFill (k.toDouble (h.fillWord k)) = true ↔ h.Represents k := by
  simp [isFill, hfill, Represents]

end Hints

namespace Element

variable {t : Datatype} {src : Bytes} {f : Nat} {g : Nat → Nat}

-- Whether an array comes back with the word `f` wherever it had it.
def Keeps (t : Datatype) (f : Nat) (src : Bytes) (r : Result Bytes) : Prop :=
  ∃ back, r = .ok back ∧ List.Forall₂ (fun w v => w = f → v = f) (split t src) (split t back)

theorem keeps_ok_iff {back : Bytes} :
    Keeps t f src (.ok back) ↔
      List.Forall₂ (fun w v => w = f → v = f) (split t src) (split t back) := by
  simp [Keeps]

instance : ∀ r, Decidable (Keeps t f src r)
  | .ok _ => decidable_of_iff' _ keeps_ok_iff
  | .error _ => isFalse nofun

theorem keeps_map_iff (hlt : ∀ w ∈ split t src, g w < 2 ^ t.width) (hf : f ∈ split t src) :
    Keeps t f src (.ok (join t ((split t src).map g))) ↔ g f = f := by
  have hwords : ∀ v ∈ (split t src).map g, v < 2 ^ t.width := by simpa using hlt
  rw [keeps_ok_iff, split_join hwords, List.forall₂_map_right_iff, List.forall₂_same]
  exact ⟨fun hall => hall f hf rfl, fun hg w _ hw => hw ▸ hg⟩

end Element

namespace Stage

variable {t : Datatype} {k : FloatKind} {h : Hints} {dims : Dims} {src out head : Bytes}

namespace Sigbits

variable {bits w : Nat}

-- Whether the fill value's word is taken for a fill, or has no more bits than are kept.
def KeepsFill (k : FloatKind) (h : Hints) : Prop :=
  h.Represents k ∨ 2 ^ (k.format.mantissaBits - keptBits h) ∣
    (k.format.split (h.fillWord k)).mantissa

theorem restored_fillWord_iff (hfill : h.hasFill = true)
    (hb : keptBits h ≤ k.format.mantissaBits) :
    restored k h (h.fillWord k) = h.fillWord k ↔ KeepsFill k h := by
  unfold KeepsFill
  by_cases hrepresents : h.Represents k
  case pos =>
    have hword : restored k h (h.fillWord k) = h.fillWord k :=
      if_pos ((Hints.isFill_fillWord_iff hfill).mpr hrepresents)
    exact iff_of_true hword (.inl hrepresents)
  case neg =>
    rw [restored, if_neg (mt (Hints.isFill_fillWord_iff hfill).mp hrepresents),
      or_iff_right hrepresents, ← roundedFields_eq_split_iff hb]
    constructor
    case mp =>
      intro hjoin
      rw [← hjoin, Binary.Format.split_join (holds_roundedFields hb _), hjoin]
    case mpr =>
      intro hfields
      have hlt := h.fillWord_lt k
      rw [k.two_pow_width] at hlt
      rw [hfields, Binary.Format.join_split hlt]

theorem keeps_iff (ht : t.kind? = some k) (hfill : h.hasFill = true)
    (hmem : h.fillWord k ∈ Element.split t src) (hf : compress t h dims src = .ok out) :
    Element.Keeps t (h.fillWord k) src (decompress t dims out) ↔ KeepsFill k h := by
  obtain rfl := FloatKind.datatype_of_kind? ht
  simp only [compress, decompress, ht] at hf ⊢
  obtain ⟨hb, -, hback⟩ := decompressAs_of_compressAs hf
  rw [hback, Element.keeps_map_iff (fun w _ => restored_lt hb w) hmem]
  exact restored_fillWord_iff hfill hb

end Sigbits

namespace Placement

variable {p : Placement}

-- Whether the fill value's word is taken for a fill, has to stay, or is its own grid point.
def KeepsFill (p : Placement) : Prop :=
  p.hints.Represents p.kind ∨ ¬p.Moves (p.hints.fillWord p.kind) ∨
    p.pointWord (p.hints.fillWord p.kind) = p.hints.fillWord p.kind

theorem restored_fillWord_iff (hfill : p.hints.hasFill = true) :
    p.restored (p.hints.fillWord p.kind) = p.hints.fillWord p.kind ↔ p.KeepsFill := by
  have hrestores := p.restores_restored (p.hints.fillWord p.kind)
  have hisFill : p.IsFill (p.hints.fillWord p.kind) ↔ p.hints.Represents p.kind :=
    Hints.isFill_fillWord_iff hfill
  generalize p.restored (p.hints.fillWord p.kind) = v at hrestores ⊢
  unfold KeepsFill
  rw [← hisFill]
  cases hrestores
  case fill hfill => exact iff_of_true rfl (.inl hfill)
  case exact hstays => exact iff_of_true rfl (.inr (.inl hstays))
  case regular hno hmoves => rw [or_iff_right hno, or_iff_right (not_not_intro hmoves)]

-- A double's word is the fill value itself, unless it is no number.
theorem keepsFill_of_double (hk : p.kind = .double) : p.KeepsFill := by
  have hword : p.kind.toDouble (p.hints.fillWord p.kind) = p.hints.fillValue := by
    rw [Hints.fillWord, hk]
    exact Double.ofWord_toWord _
  by_cases hmoves : p.Moves (p.hints.fillWord p.kind)
  case pos =>
    have hnumber : p.hints.fillValue.isNaN = false :=
      hword ▸ Double.isNaN_of_isFinite hmoves.finite
    refine .inl ?_
    rw [Hints.Represents, hword]
    exact Double.equal_iff.mpr ⟨hnumber, hnumber, rfl⟩
  case neg => exact .inr (.inl hmoves)

end Placement

namespace Quantize

theorem keeps_iff (ht : t.kind? = some k) (hfill : h.hasFill = true)
    (hmem : h.fillWord k ∈ Element.split t src) (hf : convert t h dims src = .ok (out, head)) :
    Element.Keeps t (h.fillWord k) src (revert t head dims out) ↔
      (Placement.onGrid k h (Element.split t src)).KeepsFill := by
  rw [revert_of_convert ht hf]
  obtain rfl := FloatKind.datatype_of_kind? ht
  have hlt : ∀ w ∈ Element.split k.datatype src,
      (Placement.onGrid k h (Element.split k.datatype src)).restored w < 2 ^ k.datatype.width :=
    fun _ hw => Placement.restored_lt (p := .onGrid k h _) (Element.lt_of_mem_split hw)
  rw [Element.keeps_map_iff hlt hmem]
  exact Placement.restored_fillWord_iff hfill

end Quantize

namespace Abstol

variable {r : Reserved} {p : Placement} {bits w : Nat} {ws : List Nat}

-- Only codes of 48 bits and more can be taken for the fill's, and only doubles have them.
theorem decoded_fillWord_iff (hfill : h.hasFill = true)
    (hbits : bitsFor (.onGrid k h ws) = .ok bits) (hwidth : bits < k.datatype.width)
    (hmem : h.fillWord k ∈ ws) :
    decoded (reservedFor (.onGrid k h ws) bits) (.onGrid k h ws) (h.fillWord k) = h.fillWord k ↔
      (Placement.onGrid k h ws).KeepsFill := by
  have hrestored := Placement.restored_fillWord_iff (p := .onGrid k h ws) hfill
  cases k
  case single =>
    have hlt : bits < 48 := Nat.lt_of_lt_of_le hwidth (by decide)
    rwa [decoded_eq_restored fun hrole => (ne_of_lt hbits hlt hmem hrole).left]
  case double =>
    have hkeeps : (Placement.onGrid .double h ws).KeepsFill := Placement.keepsFill_of_double rfl
    refine iff_of_true ?_ hkeeps
    unfold decoded
    split
    case isTrue => rfl
    case isFalse => exact hrestored.mpr hkeeps

theorem decoded_lt (r : Reserved) (hw : w < 2 ^ p.kind.datatype.width) :
    decoded r p w < 2 ^ p.kind.datatype.width := by
  unfold decoded
  split
  case isTrue => exact p.kind.ofDouble_lt _
  case isFalse => exact Placement.restored_lt hw

theorem keeps_iff (ht : t.kind? = some k) (hfill : h.hasFill = true)
    (hmem : h.fillWord k ∈ Element.split t src) (hf : compress t h dims src = .ok out) :
    Element.Keeps t (h.fillWord k) src (decompress t dims out) ↔
      Readable (.onGrid k h (Element.split t src)) ∧
        (Placement.onGrid k h (Element.split t src)).KeepsFill := by
  have ⟨bits, hbits, hwidth, hback⟩ := exists_of_compress ht hf
  obtain rfl := FloatKind.datatype_of_kind? ht
  have hlt : ∀ w ∈ Element.split k.datatype src,
      decoded (reservedFor (.onGrid k h (Element.split k.datatype src)) bits)
        (.onGrid k h (Element.split k.datatype src)) w < 2 ^ k.datatype.width :=
    fun _ hw => decoded_lt _ (Element.lt_of_mem_split hw)
  rw [← decoded_fillWord_iff hfill hbits hwidth hmem, ← Element.keeps_map_iff hlt hmem]
  simp only [Element.Keeps, hback, Except.ok.injEq, and_assoc, exists_and_left, exists_eq_left,
    exists_eq_left']

end Abstol

inductive Lossy where
  | abstol
  | sigbits
  | quantize

namespace Lossy

def algorithm : Lossy → Algorithm
  | abstol => ⟨Abstol.name, 1, true, .typed Registry.abstol⟩
  | sigbits => ⟨Sigbits.name, 3, true, .typed Registry.sigbits⟩
  | quantize => ⟨Quantize.name, 7, true, .converter Registry.quantize⟩

-- There are no others.
theorem filter_isLossy [Codecs] :
    Registry.algorithms.filter Algorithm.isLossy =
      [abstol.algorithm, sigbits.algorithm, quantize.algorithm] :=
  rfl

def KeepsFill (k : FloatKind) (h : Hints) (ws : List Nat) : Lossy → Prop
  | abstol => Abstol.Readable (.onGrid k h ws) ∧ (Placement.onGrid k h ws).KeepsFill
  | sigbits => Sigbits.KeepsFill k h
  | quantize => (Placement.onGrid k h ws).KeepsFill

variable {s : Lossy}

-- The elements with the fill value's word have it again behind a stage and its inverse if and only
-- if the stage takes the word for a fill or changes nothing about it. A stage that packs codes must
-- have none that are taken for another's.
theorem keeps_backward_iff (ht : t.kind? = some k) (hfill : h.hasFill = true)
    (hmem : h.fillWord k ∈ Element.split t src)
    (hf : s.algorithm.forward t h dims src = .ok (out, head)) :
    Element.Keeps t (h.fillWord k) src (s.algorithm.backward t head dims out) ↔
      s.KeepsFill k h (Element.split t src) := by
  cases s
  case abstol =>
    obtain ⟨hout, -⟩ := (Algorithm.forward_typed_eq_ok_iff rfl).mp hf
    exact Abstol.keeps_iff ht hfill hmem hout
  case sigbits =>
    obtain ⟨hout, -⟩ := (Algorithm.forward_typed_eq_ok_iff rfl).mp hf
    exact Sigbits.keeps_iff ht hfill hmem hout
  case quantize => exact Quantize.keeps_iff ht hfill hmem hf

-- A single fill value among numbers, one of which does not move.
theorem keeps_backward_mixed :
    ∃ out, abstol.algorithm.forward .float Abstol.mixedHints .five Abstol.mixedSource =
        .ok (out, []) ∧
      Abstol.mixedHints.hasFill = true ∧
      Abstol.mixedHints.fillWord .single ∈ Element.split .float Abstol.mixedSource ∧
      Element.Keeps .float (Abstol.mixedHints.fillWord .single) Abstol.mixedSource
        (abstol.algorithm.backward .float [] .five out) := by
  have hf : abstol.algorithm.forward .float Abstol.mixedHints .five Abstol.mixedSource = .ok
      ([0, 0, 0, 0, 0, 0, 240, 63, 188, 134, 242, 26, 202, 107, 128, 62, 5, 0, 0, 0, 0, 0, 56, 143,
        192, 7, 253, 225, 0, 1, 0, 192, 127, 19, 0, 128, 63], []) := by decide +kernel
  have hfill : Abstol.mixedHints.hasFill = true := by decide +kernel
  have hmem : Abstol.mixedHints.fillWord .single ∈ Element.split .float Abstol.mixedSource := by
    decide +kernel
  have hbits : Abstol.bitsFor (.onGrid .single Abstol.mixedHints
      (Element.split .float Abstol.mixedSource)) = .ok 5 := by decide +kernel
  have hkeeps := (keeps_backward_iff rfl hfill hmem hf).mpr
    ⟨Abstol.readable_of_clear (Abstol.clear_of_lt hbits (by decide)), .inl (by decide +kernel)⟩
  exact ⟨_, hf, hfill, hmem, hkeeps⟩

-- 0.1 is no single number, so the nearest one is placed on the grid, or loses the bits from the
-- third on.
def tenthHints : Hints where
  absoluteTolerance := .ofNat 1
  significantBits   := 3
  fillValue         := .ofWord 0x3fb999999999999a

-- The single numbers 0, 0.1, 0, 0.1 and 0.
def tenths : Bytes :=
  [0, 0, 0, 0, 205, 204, 204, 61, 0, 0, 0, 0, 205, 204, 204, 61, 0, 0, 0, 0]

theorem not_keeps_backward :
    ¬∃ s : Lossy, ∀ (t : Datatype) (k : FloatKind) (h : Hints) (dims : Dims)
      (src out head : Bytes), t.kind? = some k → h.hasFill = true →
        s.algorithm.forward t h dims src = .ok (out, head) →
          Element.Keeps t (h.fillWord k) src (s.algorithm.backward t head dims out) := by
  rintro ⟨s, hkeeps⟩
  have ⟨out, head, hf, hlost⟩ : ∃ out head,
      s.algorithm.forward .float tenthHints .five tenths = .ok (out, head) ∧
        ¬Element.Keeps .float (tenthHints.fillWord .single) tenths
          (s.algorithm.backward .float head .five out) := by
    cases s
    case abstol =>
      exact ⟨[0, 0, 0, 0, 0, 0, 0, 0, 51, 51, 51, 51, 51, 51, 255, 63, 2, 154, 153, 153, 153, 153,
        153, 185, 63, 0, 0], [], by decide +kernel, by decide +kernel⟩
    case sigbits =>
      exact ⟨[0, 7, 2, 0, 0, 154, 153, 153, 153, 153, 153, 185, 63, 4, 0, 0, 0, 0, 0, 0, 0, 0, 123,
        128, 30, 224, 0], [], by decide +kernel, by decide +kernel⟩
    case quantize =>
      exact ⟨Element.join .int64 [0, 0, 0, 0, 0], [0, 0, 0, 0, 0, 0, 0, 0, 51, 51, 51, 51, 51, 51,
        255, 63, 154, 153, 153, 153, 153, 153, 185, 63], by decide +kernel, by decide +kernel⟩
  exact hlost (hkeeps _ _ _ _ _ out head rfl (by decide +kernel) hf)

end Lossy
end Stage
end GridPress

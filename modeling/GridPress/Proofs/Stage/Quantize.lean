import GridPress.Proofs.Header
import GridPress.Proofs.Stage.Placement
import GridPress.Stage.Quantize

namespace GridPress.Stage.Quantize

variable {k : FloatKind} {h : Hints} {dims : Dims} {src out head : Bytes} {p : Placement}
  {ws : List Nat} {w : Nat}

theorem toInt_indexWord {i : Int} (hlow : -2 ≤ i) (hhigh : i < 2 ^ 63) :
    Datatype.toInt .int64 (indexWord i) = i := by
  have hwidth : 2 ^ Datatype.int64.width = 2 ^ 64 := rfl
  have hnonneg : 0 ≤ i % 2 ^ 64 := Int.emod_nonneg _ (by decide)
  rw [Datatype.toInt, hwidth, indexWord, Int.toNat_of_nonneg hnonneg, Int.bmod_def]
  split <;> omega

theorem indexWord_lt (i : Int) : indexWord i < 2 ^ Datatype.int64.width := by
  have hlt : i % 2 ^ 64 < 2 ^ 64 := Int.emod_lt_of_pos _ (by decide)
  change (i % 2 ^ 64).toNat < 2 ^ 64
  omega

variable {params : Params} {is : List Int} {exact ws : List Nat}

theorem decode_fill (hws : decode k params is exact = .ok ws) :
    decode k params (fillIndex :: is) exact = .ok (k.ofDouble params.fill :: ws) := by
  unfold decode
  rw [if_pos rfl, hws]
  rfl

theorem decode_exact (hws : decode k params is exact = .ok ws) :
    decode k params (exactIndex :: is) (w :: exact) = .ok (w :: ws) := by
  unfold decode
  rw [if_neg (by decide), if_pos rfl]
  dsimp only
  rw [hws]
  rfl

theorem decode_code (n : Nat) (hws : decode k params is exact = .ok ws) :
    decode k params ((n : Int) :: is) exact = .ok (k.ofDouble (params.grid.point n) :: ws) := by
  have hfill : (n : Int) ≠ fillIndex := by simp only [fillIndex]; omega
  have hexact : (n : Int) ≠ exactIndex := by simp only [exactIndex]; omega
  unfold decode
  rw [if_neg hfill, if_neg hexact, if_pos (Int.natCast_nonneg n), hws]
  rfl

-- The indices lead back to what is restored, as they take exact words in the order in which those
-- were kept.
theorem decode_index (p : Placement) (ws : List Nat) :
    decode p.kind ⟨p.grid, p.hints.fillValue⟩ (ws.map (index p))
      (ws.filter fun w => p.role w = .exact) = .ok (ws.map p.restored) := by
  induction ws
  case nil => rfl
  case cons w ws ih =>
    rw [List.map_cons, List.map_cons, index, Placement.restored, List.filter_cons]
    cases hrole : p.role w
    case fill => exact decode_fill ih
    case exact => exact decode_exact ih
    case regular => exact decode_code _ ih

theorem index_between {bits : Nat} {ws : List Nat}
    (hbits : Grid.bitsNeeded (Placement.onGrid k h ws).low (Placement.onGrid k h ws).high
      (Placement.onGrid k h ws).grid.half 0 = .ok bits) (hw : w ∈ ws) :
    -2 ≤ index (.onGrid k h ws) w ∧ index (.onGrid k h ws) w < 2 ^ 63 := by
  have hcovers : (Placement.onGrid k h ws).grid.Covers (Placement.onGrid k h ws).high 0 bits :=
    Grid.covers_of_bitsNeeded hbits
  unfold index
  cases hrole : (Placement.onGrid k h ws).role w
  case fill => simp [fillIndex]
  case exact => simp [exactIndex]
  case regular =>
    have hle := Placement.code_le hcovers hw hrole
    have hlt := hcovers.code_high_lt (by decide)
    dsimp only
    omega

-- The words of the indices, and the header that goes with them.
def indexWords (p : Placement) : List Nat :=
  p.words.map fun w => indexWord (index p w)

def header (p : Placement) : Bytes :=
  Bytes.ofNat 8 p.low.toWord ++ (Bytes.ofNat 8 p.step.toWord ++
    Bytes.ofNat 8 p.hints.fillValue.toWord) ++ Element.join p.kind.datatype p.exactWords

theorem read_header (p : Placement) :
    Header.read (do return (← Params.reader, ← Header.rest)) (header p) =
      .ok (⟨p.grid, p.hints.fillValue⟩, Element.join p.kind.datatype p.exactWords) := by
  have hreads : Header.Reads Params.reader
      (Bytes.ofNat 8 p.low.toWord ++ (Bytes.ofNat 8 p.step.toWord ++
        Bytes.ofNat 8 p.hints.fillValue.toWord)) ⟨p.grid, p.hints.fillValue⟩ :=
    Header.reads_bind (Header.reads_double _)
      (Header.reads_bind (Header.reads_double _) (Header.reads_map (Header.reads_double _)))
  exact Header.read_rest hreads _

theorem convertAs_eq_ok_iff :
    convertAs k h dims src = .ok (out, head) ↔
      ∃ p bits, Placement.make name k h dims src = .ok p ∧
        Grid.bitsNeeded p.low p.high p.grid.half 0 = .ok bits ∧
        out = Element.join .int64 (indexWords p) ∧ head = header p := by
  simp only [convertAs, Result.bind_eq_ok_iff, Result.pure_eq, Except.ok.injEq, Prod.mk.injEq]
  constructor
  case mp =>
    rintro ⟨p, hp, bits, hbits, rfl, rfl⟩
    obtain ⟨-, ws, -, rfl⟩ := Placement.make_eq_ok_iff.mp hp
    exact ⟨_, bits, hp, hbits, rfl, by simp [header]⟩
  case mpr =>
    rintro ⟨p, bits, hp, hbits, rfl, rfl⟩
    obtain ⟨-, ws, -, rfl⟩ := Placement.make_eq_ok_iff.mp hp
    exact ⟨_, hp, bits, hbits, rfl, by simp [header]⟩

theorem map_toInt_indexWords {bits : Nat}
    (hbits : Grid.bitsNeeded (Placement.onGrid k h ws).low (Placement.onGrid k h ws).high
      (Placement.onGrid k h ws).grid.half 0 = .ok bits) :
    (indexWords (.onGrid k h ws)).map (Datatype.toInt .int64) =
      ws.map (index (.onGrid k h ws)) := by
  rw [indexWords, List.map_map]
  refine List.map_congr_left fun w hw => ?_
  have ⟨hlow, hhigh⟩ := index_between hbits hw
  rw [Function.comp_apply, toInt_indexWord hlow hhigh]

theorem indexWords_lt (p : Placement) : ∀ i ∈ indexWords p, i < 2 ^ Datatype.int64.width := by
  intro i hi
  obtain ⟨w, _, rfl⟩ := List.mem_map.mp hi
  exact indexWord_lt _

-- The indices and their header lead to what is restored.
theorem revertAs_header {bits : Nat} (hws : ∀ w ∈ ws, w < 2 ^ k.datatype.width)
    (hl : ws.length = dims.count)
    (hbits : Grid.bitsNeeded (Placement.onGrid k h ws).low (Placement.onGrid k h ws).high
      (Placement.onGrid k h ws).grid.half 0 = .ok bits) :
    revertAs k (header (.onGrid k h ws)) dims
        (Element.join .int64 (indexWords (.onGrid k h ws))) =
      .ok (Element.join k.datatype (ws.map (Placement.onGrid k h ws).restored)) := by
  have hexact : Element.decode k.datatype
      (Element.join k.datatype (Placement.onGrid k h ws).exactWords) = .ok _ :=
    Element.decode_join (Placement.exactWords_lt hws)
  have hwords : Element.decodeAs .int64 dims (Element.join .int64 (indexWords (.onGrid k h ws))) =
      .ok _ := Element.decodeAs_join (indexWords_lt _) (by simpa [indexWords] using hl)
  have hdecode : decode k ⟨(Placement.onGrid k h ws).grid, h.fillValue⟩
      (ws.map (index (.onGrid k h ws))) (Placement.onGrid k h ws).exactWords = .ok _ :=
    decode_index (.onGrid k h ws) ws
  simp only [revertAs, read_header, Result.ok_bind, Placement.kind_onGrid, Placement.hints_onGrid,
    hexact, hwords, map_toInt_indexWords hbits, hdecode, Result.pure_eq]

theorem length_mod_of_convert {t : Datatype} (hf : convert t h dims src = .ok (out, head)) :
    out.length % Datatype.int64.size = 0 := by
  unfold convert at hf
  split at hf
  case h_1 k _ =>
    obtain ⟨p, bits, -, -, rfl, -⟩ := convertAs_eq_ok_iff.mp hf
    rw [Element.length_join, Nat.mul_mod_right]
  case h_2 => exact nomatch hf

-- What was converted comes back as it is restored.
theorem revert_of_convert {t : Datatype} (ht : t.kind? = some k)
    (hf : convert t h dims src = .ok (out, head)) :
    revert t head dims out = .ok (Element.join t
      ((Element.split t src).map (Placement.onGrid k h (Element.split t src)).restored)) := by
  obtain rfl := FloatKind.datatype_of_kind? ht
  simp only [convert, revert, ht] at hf ⊢
  obtain ⟨p, bits, hp, hbits, rfl, rfl⟩ := convertAs_eq_ok_iff.mp hf
  obtain ⟨-, ws, hws, rfl⟩ := Placement.make_eq_ok_iff.mp hp
  obtain ⟨-, rfl, hl⟩ := Element.decodeAs_eq_ok_iff.mp hws
  exact revertAs_header (fun _ => Element.lt_of_mem_split) hl hbits

-- The index of an element of this sort. All but those of grid points are negative.
def Indexes (p : Placement) (w : Nat) (i : Int) : Prop :=
  p.Selects w fillIndex exactIndex (p.code w : Int) i

theorem indexes_index (p : Placement) (w : Nat) : Indexes p w (index p w) :=
  p.selects_of_role w _ _ _

theorem Indexes.nonneg {i : Int} (hi : Indexes p w i) (hfill : ¬p.IsFill w) (hmoves : p.Moves w) :
    0 ≤ i := by
  cases hi
  case fill hfill' => exact absurd hfill' hfill
  case exact hstays => exact absurd hmoves hstays
  case regular => exact Int.natCast_nonneg _

-- What was converted has the indices of its elements, and comes back element by element: fills as
-- the fill value, elements that have to stay bit by bit, and all others as their grid points.
theorem revert_restores {t : Datatype} (ht : t.kind? = some k)
    (hf : convert t h dims src = .ok (out, head)) :
    let p := Placement.onGrid k h (Element.split t src)
    List.Forall₂ (fun w i => Indexes p w i ∧ (¬p.IsFill w → p.Moves w → 0 ≤ i))
        (Element.split t src) ((Element.split .int64 out).map (Datatype.toInt .int64)) ∧
      ∃ back, revert t head dims out = .ok back ∧ back.length = src.length ∧
        List.Forall₂ p.Restores (Element.split t src) (Element.split t back) := by
  have hback := revert_of_convert ht hf
  obtain rfl := FloatKind.datatype_of_kind? ht
  simp only [convert, ht] at hf
  obtain ⟨p, bits, hp, hbits, rfl, rfl⟩ := convertAs_eq_ok_iff.mp hf
  have hd := Placement.length_mod_of_make hp
  obtain ⟨-, ws, hws, rfl⟩ := Placement.make_eq_ok_iff.mp hp
  obtain ⟨-, rfl, -⟩ := Element.decodeAs_eq_ok_iff.mp hws
  refine ⟨?_, _, hback, Placement.forall₂_restores h hd⟩
  rw [Element.split_join (indexWords_lt _), map_toInt_indexWords hbits,
    List.forall₂_map_right_iff, List.forall₂_same]
  exact fun w _ => ⟨indexes_index _ w, (indexes_index _ w).nonneg⟩

-- The numbers 1, -999, 3000000, minus infinity and 2.5.
def mixedSource : Bytes :=
  [0, 0, 0, 0, 0, 0, 240, 63, 0, 0, 0, 0, 0, 56, 143, 192, 0, 0, 0, 0, 96, 227, 70, 65, 0, 0, 0,
    0, 0, 0, 240, 255, 0, 0, 0, 0, 0, 0, 4, 64]

-- A tolerance of 0.1, the fill value -999, and a lossless range from a million on.
def mixedHints : Hints where
  absoluteTolerance := .ofWord 0x3fb999999999999a
  losslessFrom      := .ofWord 0x412e848000000000
  fillValue         := .ofWord 0xc08f380000000000

theorem revert_restores_mixed :
    ∃ out head, convert .double mixedHints .five mixedSource = .ok (out, head) ∧
      let p := Placement.onGrid .double mixedHints (Element.split .double mixedSource)
      List.Forall₂ (fun w i => Indexes p w i ∧ (¬p.IsFill w → p.Moves w → 0 ≤ i))
          (Element.split .double mixedSource)
          ((Element.split .int64 out).map (Datatype.toInt .int64)) ∧
        ∃ back, revert .double head .five out = .ok back ∧ back.length = mixedSource.length ∧
          List.Forall₂ p.Restores (Element.split .double mixedSource)
            (Element.split .double back) := by
  have hf : convert .double mixedHints .five mixedSource = .ok
      (Element.join .int64 [0, 2 ^ 64 - 1, 2 ^ 64 - 2, 2 ^ 64 - 2, 8],
        [0, 0, 0, 0, 0, 0, 240, 63, 246, 40, 92, 143, 194, 245, 200, 63, 0, 0, 0, 0, 0, 56, 143,
          192, 0, 0, 0, 0, 96, 227, 70, 65, 0, 0, 0, 0, 0, 0, 240, 255]) := by decide +kernel
  exact ⟨_, _, hf, revert_restores rfl hf⟩

end GridPress.Stage.Quantize

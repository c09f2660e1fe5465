import GridPress.Proofs.Header
import GridPress.Proofs.Packing
import GridPress.Proofs.Stage.Placement
import GridPress.Stage.Abstol

namespace GridPress.Stage.Abstol

variable {k : FloatKind} {h : Hints} {dims : Dims} {src out : Bytes} {p : Placement} {r : Reserved}
  {params : Params} {bits c w : Nat} {ws vs cs exact : List Nat}

-- There are reserved codes for fills and for exact elements, if there are any, and they are not the
-- same.
structure Reserves (r : Reserved) (p : Placement) (ws : List Nat) : Prop where
  fill  : ∀ w ∈ ws, p.role w = .fill → r.fillCode?.isSome = true
  exact : ∀ w ∈ ws, p.role w = .exact → r.exactCode?.isSome = true
  apart : ∀ c ∈ r.exactCode?, some c ≠ r.fillCode?

-- An element whose grid point has the code of exact elements.
def LooksExact (r : Reserved) (p : Placement) (w : Nat) : Prop :=
  p.role w = .regular ∧ some (p.code w) = r.exactCode?

instance : Decidable (LooksExact r p w) :=
  inferInstanceAs (Decidable (_ ∧ _))

-- What the code of an element is taken for. A grid point can have the code of the fills.
def decoded (r : Reserved) (p : Placement) (w : Nat) : Nat :=
  if p.role w = .regular ∧ some (p.code w) = r.fillCode? then p.kind.ofDouble p.hints.fillValue
  else p.restored w

theorem decoded_eq_restored (h : p.role w = .regular → some (p.code w) ≠ r.fillCode?) :
    decoded r p w = p.restored w :=
  if_neg fun ⟨hrole, heq⟩ => h hrole heq

theorem decode_fill (hc : r.fillCode? = some c) (hws : decode k params r cs exact = .ok ws) :
    decode k params r (c :: cs) exact = .ok (k.ofDouble params.fill :: ws) := by
  unfold decode
  rw [if_pos hc.symm, hws]
  rfl

theorem decode_exact (hc : r.exactCode? = some c) (hne : some c ≠ r.fillCode?)
    (hws : decode k params r cs exact = .ok ws) :
    decode k params r (c :: cs) (w :: exact) = .ok (w :: ws) := by
  unfold decode
  rw [if_neg hne, if_pos hc.symm]
  dsimp only
  rw [hws]
  rfl

-- The code of a grid point is taken for nothing else, and takes no exact word.
theorem decode_of_ne (hfill : some c ≠ r.fillCode?) (hexact : some c ≠ r.exactCode?) :
    decode k params r (c :: cs) exact =
      (decode k params r cs exact).map (k.ofDouble (params.grid.point c) :: ·) := by
  rw [decode.eq_def]
  dsimp only
  rw [if_neg hfill, if_neg hexact]
  cases decode k params r cs exact <;> rfl

theorem decode_code (hfill : some c ≠ r.fillCode?) (hexact : some c ≠ r.exactCode?)
    (hws : decode k params r cs exact = .ok ws) :
    decode k params r (c :: cs) exact = .ok (k.ofDouble (params.grid.point c) :: ws) := by
  rw [decode_of_ne hfill hexact, hws]
  rfl

theorem Reserves.tail {vs : List Nat} {v : Nat} (hr : Reserves r p (v :: vs)) :
    Reserves r p vs where
  fill w hw := hr.fill w (by simp [hw])
  exact w hw := hr.exact w (by simp [hw])
  apart := hr.apart

-- The codes lead back to what they are taken for, as they take exact words in the order in which
-- those were kept.
theorem decode_encode (bits : Nat) (hr : Reserves r p ws) (hexact : ∀ w ∈ ws, ¬LooksExact r p w) :
    decode p.kind ⟨p.grid, bits, p.hints.fillValue⟩ r (ws.map (r.encode p))
      (ws.filter fun w => p.role w = .exact) = .ok (ws.map (decoded r p)) := by
  induction ws
  case nil => rfl
  case cons w ws ih =>
    have ih := ih hr.tail fun v hv => hexact v (by simp [hv])
    rw [List.map_cons, List.map_cons, Reserved.encode, List.filter_cons]
    cases hrole : p.role w
    case fill =>
      have ⟨c, hc⟩ := Option.isSome_iff_exists.mp (hr.fill w (by simp) hrole)
      have hword : decoded r p w = p.kind.ofDouble p.hints.fillValue := by
        rw [decoded_eq_restored (by simp [hrole]), Placement.restored, hrole]
      rw [hword]
      exact decode_fill (by simp [hc]) ih
    case exact =>
      have ⟨c, hc⟩ := Option.isSome_iff_exists.mp (hr.exact w (by simp) hrole)
      have hword : decoded r p w = w := by
        rw [decoded_eq_restored (by simp [hrole]), Placement.restored, hrole]
      rw [hword, hc, Option.getD_some]
      exact decode_exact hc (hr.apart c hc) ih
    case regular =>
      have hne : some (p.code w) ≠ r.exactCode? := fun heq => hexact w (by simp) ⟨hrole, heq⟩
      by_cases hfill : some (p.code w) = r.fillCode?
      case pos =>
        have hword : decoded r p w = p.kind.ofDouble p.hints.fillValue := if_pos ⟨hrole, hfill⟩
        rw [hword]
        exact decode_fill hfill.symm ih
      case neg =>
        rw [decoded_eq_restored fun _ => hfill, Placement.restored, hrole]
        exact decode_code hfill hne ih

theorem exists_decode_eq_ok (hc : some c = r.exactCode? → some c = r.fillCode?)
    (h : decode k params r (c :: cs) exact = .ok vs) :
    ∃ us, decode k params r cs exact = .ok us := by
  rw [decode.eq_def] at h
  dsimp only at h
  split at h
  case isTrue =>
    have ⟨us, hus, _⟩ := Result.bind_eq_ok_iff.mp h
    exact ⟨us, hus⟩
  case isFalse hfill =>
    rw [if_neg (mt hc hfill)] at h
    have ⟨us, hus, _⟩ := Result.bind_eq_ok_iff.mp h
    exact ⟨us, hus⟩

-- The code of exact elements takes an exact word.
theorem exists_cons_of_decode (hc : some c = r.exactCode?) (hne : some c ≠ r.fillCode?)
    (h : decode k params r (c :: cs) exact = .ok vs) :
    ∃ w rest us, exact = w :: rest ∧ decode k params r cs rest = .ok us := by
  rw [decode.eq_def] at h
  dsimp only at h
  rw [if_neg hne, if_pos hc] at h
  cases exact
  case nil => exact nomatch h
  case cons w rest =>
    have ⟨us, hus, _⟩ := Result.bind_eq_ok_iff.mp h
    exact ⟨w, rest, us, rfl, hus⟩

-- There must be words for all elements that are exact or look it.
theorem countP_le_of_decode (hr : Reserves r p ws)
    (h : decode k params r (ws.map (r.encode p)) exact = .ok vs) :
    ws.countP (p.role · = .exact) + ws.countP (LooksExact r p ·) ≤ exact.length := by
  induction ws generalizing exact vs
  case nil => exact Nat.zero_le _
  case cons w ws ih =>
    rw [List.map_cons, Reserved.encode] at h
    rw [List.countP_cons, List.countP_cons]
    cases hrole : p.role w
    case fill =>
      have ⟨c, hc⟩ := Option.isSome_iff_exists.mp (hr.fill w (by simp) hrole)
      rw [hrole, hc] at h
      have ⟨_, hus⟩ := exists_decode_eq_ok (fun _ => hc.symm) h
      simpa [LooksExact, hrole] using ih hr.tail hus
    case exact =>
      have ⟨c, hc⟩ := Option.isSome_iff_exists.mp (hr.exact w (by simp) hrole)
      rw [hrole, hc] at h
      have ⟨_, rest, _, hexact, hus⟩ := exists_cons_of_decode hc.symm (hr.apart c hc) h
      have hle := ih hr.tail hus
      rw [hexact, List.length_cons]
      simp [LooksExact, hrole] at hle ⊢
      omega
    case regular =>
      rw [hrole] at h
      by_cases hlooks : some (p.code w) = r.exactCode?
      case pos =>
        have ⟨_, rest, _, hexact, hus⟩ :=
          exists_cons_of_decode hlooks (hr.apart _ hlooks.symm) h
        have hle := ih hr.tail hus
        rw [hexact, List.length_cons]
        simp [LooksExact, hrole, hlooks] at hle ⊢
        omega
      case neg =>
        have ⟨_, hus⟩ := exists_decode_eq_ok (fun heq => absurd heq hlooks) h
        simpa [LooksExact, hrole, hlooks] using ih hr.tail hus

theorem not_looksExact_of_decode (hr : Reserves r p ws)
    (h : decode k params r (ws.map (r.encode p)) (ws.filter (p.role · = .exact)) = .ok vs) :
    ∀ w ∈ ws, ¬LooksExact r p w := by
  have hle := countP_le_of_decode hr h
  rw [← List.countP_eq_length_filter] at hle
  have hnone : ws.countP (LooksExact r p ·) = 0 := by omega
  simpa using hnone

-- No code of a grid point is reserved, even where rounding the number of codes can leave too few of
-- them.
def Clear (p : Placement) : Prop :=
  ∀ bits, bitsFor p = .ok bits → 48 ≤ bits → ∀ w ∈ p.words, p.role w = .regular →
    some (p.code w) ≠ (reservedFor p bits).fillCode? ∧
      some (p.code w) ≠ (reservedFor p bits).exactCode?

theorem hasFill_of_role (hw : p.role w = .fill) : p.hints.hasFill = true :=
  (Bool.and_eq_true_iff.mp (Placement.isFill_of_role hw)).left

theorem hasExact_of_role (hw : w ∈ p.words) (hrole : p.role w = .exact) : p.hasExact = true := by
  have hmem : w ∈ p.exactWords := List.mem_filter.mpr ⟨hw, by simp [hrole]⟩
  cases hl : p.exactWords
  case nil =>
    rw [hl] at hmem
    contradiction
  case cons => simp [Placement.hasExact, hl]

-- The reserved codes are above all others if there is room for them.
theorem Reserved.lt_of_add_lt {hasFill hasExact : Bool}
    (hc : c + (hasFill.toNat + hasExact.toNat) < 2 ^ bits) :
    (∀ f ∈ (Reserved.ofWidth bits hasFill hasExact).fillCode?, c < f) ∧
      ∀ e ∈ (Reserved.ofWidth bits hasFill hasExact).exactCode?, c < e := by
  cases hasFill <;> cases hasExact <;> simp [Reserved.ofWidth] at hc ⊢ <;> omega

theorem Reserved.ne_of_add_lt {hasFill hasExact : Bool}
    (hc : c + (hasFill.toNat + hasExact.toNat) < 2 ^ bits) :
    some c ≠ (Reserved.ofWidth bits hasFill hasExact).fillCode? ∧
      some c ≠ (Reserved.ofWidth bits hasFill hasExact).exactCode? :=
  have ⟨hfill, hexact⟩ := Reserved.lt_of_add_lt hc
  ⟨fun heq => Nat.lt_irrefl c (hfill c heq.symm), fun heq => Nat.lt_irrefl c (hexact c heq.symm)⟩

theorem Reserved.exactCode?_ne {hasFill hasExact : Bool} (hexact : hasExact = true)
    (hc : hasFill.toNat + hasExact.toNat < 2 ^ bits) :
    (Reserved.ofWidth bits hasFill hasExact).exactCode? ≠
      (Reserved.ofWidth bits hasFill hasExact).fillCode? := by
  subst hexact
  cases hasFill <;> simp [Reserved.ofWidth] at hc ⊢
  omega

theorem reserved_lt (p : Placement) : p.hints.hasFill.toNat + p.hasExact.toNat < 2 ^ 53 := by
  cases p.hints.hasFill <;> cases p.hasExact <;> decide

theorem covers_of_bitsFor (hbits : bitsFor p = .ok bits) :
    p.grid.Covers p.high (p.hints.hasFill.toNat + p.hasExact.toNat) bits :=
  Grid.covers_of_bitsNeeded hbits

theorem reserved_lt_of_bitsFor (hbits : bitsFor p = .ok bits) :
    p.hints.hasFill.toNat + p.hasExact.toNat < 2 ^ bits := by
  by_cases hlt : bits < 48
  case pos =>
    have := (covers_of_bitsFor hbits).code_high_add_lt hlt (reserved_lt p)
    omega
  case neg =>
    have hpow : 2 ^ 2 ≤ 2 ^ bits := Nat.pow_le_pow_right (by decide) (by omega)
    have := p.hints.hasFill.toNat_le
    have := p.hasExact.toNat_le
    omega

theorem reserves_of_bitsFor (hbits : bitsFor p = .ok bits) :
    Reserves (reservedFor p bits) p p.words where
  fill w _ hrole := by simp [reservedFor, Reserved.ofWidth, hasFill_of_role hrole]
  exact w hw hrole := by simp [reservedFor, Reserved.ofWidth, hasExact_of_role hw hrole]
  apart c hc := by
    have hexact : p.hasExact = true := by
      by_contra hnone
      simp [reservedFor, Reserved.ofWidth, hnone] at hc
    exact hc ▸ Reserved.exactCode?_ne hexact (reserved_lt_of_bitsFor hbits)

-- No code of a grid point is reserved below 48 bits, where there is room.
theorem ne_of_lt (hbits : bitsFor (.onGrid k h ws) = .ok bits) (hlt : bits < 48) (hw : w ∈ ws)
    (hrole : (Placement.onGrid k h ws).role w = .regular) :
    some ((Placement.onGrid k h ws).code w) ≠
        (reservedFor (.onGrid k h ws) bits).fillCode? ∧
      some ((Placement.onGrid k h ws).code w) ≠
        (reservedFor (.onGrid k h ws) bits).exactCode? := by
  have hcovers := covers_of_bitsFor hbits
  have hle := Placement.code_le hcovers hw hrole
  have hfits := hcovers.code_high_add_lt hlt (reserved_lt _)
  exact Reserved.ne_of_add_lt (by omega)

theorem ne_of_clear (hbits : bitsFor (.onGrid k h ws) = .ok bits)
    (hclear : Clear (.onGrid k h ws)) (hw : w ∈ ws)
    (hrole : (Placement.onGrid k h ws).role w = .regular) :
    some ((Placement.onGrid k h ws).code w) ≠
        (reservedFor (.onGrid k h ws) bits).fillCode? ∧
      some ((Placement.onGrid k h ws).code w) ≠
        (reservedFor (.onGrid k h ws) bits).exactCode? := by
  by_cases hlt : bits < 48
  case pos => exact ne_of_lt hbits hlt hw hrole
  case neg => exact hclear bits hbits (Nat.not_lt.mp hlt) w hw hrole

-- The bytes in front of the packed codes.
def header (p : Placement) (bits : Nat) : Bytes :=
  Bytes.ofNat 8 p.low.toWord ++ (Bytes.ofNat 8 p.step.toWord ++ (Bytes.ofNat 1 bits ++
    Bytes.ofNat 8 p.hints.fillValue.toWord))

theorem compressAs_eq_ok_iff :
    compressAs k h dims src = .ok out ↔
      ∃ p bits packed, Placement.make name k h dims src = .ok p ∧ bitsFor p = .ok bits ∧
        bits < k.datatype.width ∧
        Packing.pack bits (p.words.map ((reservedFor p bits).encode p)) = .ok packed ∧
        out = header p bits ++ (packed ++ Element.join k.datatype p.exactWords) := by
  simp only [compressAs, Result.bind_eq_ok_iff]
  constructor
  case mp =>
    rintro ⟨p, hp, bits, hbits, hf⟩
    split at hf
    case isTrue => cases hf
    case isFalse hwidth =>
      obtain ⟨packed, hpacked, hout⟩ := Result.bind_eq_ok_iff.mp hf
      obtain rfl := Except.ok.inj hout
      obtain ⟨-, ws, -, rfl⟩ := Placement.make_eq_ok_iff.mp hp
      refine ⟨_, bits, packed, hp, hbits, Nat.not_le.mp hwidth, hpacked, ?_⟩
      simp [header, Bytes.ofNat]
  case mpr =>
    rintro ⟨p, bits, packed, hp, hbits, hwidth, hpacked, rfl⟩
    obtain ⟨-, ws, -, rfl⟩ := Placement.make_eq_ok_iff.mp hp
    refine ⟨_, hp, bits, hbits, ?_⟩
    rw [if_neg (Nat.not_le.mpr hwidth), hpacked]
    simp [header, Bytes.ofNat]

theorem read_header (p : Placement) (hbits : bits < 256) (after : Bytes) :
    Header.read (do return (← Params.reader, ← Header.rest)) (header p bits ++ after) =
      .ok (⟨p.grid, bits, p.hints.fillValue⟩, after) := by
  have hreads : Header.Reads Params.reader (header p bits) ⟨p.grid, bits, p.hints.fillValue⟩ :=
    Header.reads_bind (Header.reads_double _) (Header.reads_bind (Header.reads_double _)
      (Header.reads_bind (Header.reads_nat (n := 1) hbits)
        (Header.reads_map (Header.reads_double _))))
  exact Header.read_rest hreads _

-- The packed codes are decoded, with the exact words behind them.
theorem decompressAs_header {packed : Bytes} (hws : ∀ w ∈ ws, w < 2 ^ k.datatype.width)
    (hl : ws.length = dims.count) (hbits : bitsFor (.onGrid k h ws) = .ok bits)
    (hpacked : Packing.pack bits
      (ws.map ((reservedFor (.onGrid k h ws) bits).encode (.onGrid k h ws))) = .ok packed) :
    decompressAs k dims (header (.onGrid k h ws) bits ++
        (packed ++ Element.join k.datatype (Placement.onGrid k h ws).exactWords)) =
      Element.join k.datatype <$>
        decode k ⟨(Placement.onGrid k h ws).grid, bits, h.fillValue⟩
          (reservedFor (.onGrid k h ws) bits)
          (ws.map ((reservedFor (.onGrid k h ws) bits).encode (.onGrid k h ws)))
          (Placement.onGrid k h ws).exactWords := by
  have hmax : bits ≤ Grid.maxBits := (covers_of_bitsFor hbits).bits_le
  have hlt : bits < 256 := Nat.lt_of_le_of_lt hmax (by decide)
  have hread := read_header (.onGrid k h ws) hlt
    (packed ++ Element.join k.datatype (Placement.onGrid k h ws).exactWords)
  have ⟨hsize, _, _⟩ := Packing.pack_eq_ok_iff.mp hpacked
  have hunpack := Packing.unpack_of_pack hpacked
    (Element.join k.datatype (Placement.onGrid k h ws).exactWords)
  rw [List.length_map, hl] at hsize hunpack
  have hexact : Element.decode k.datatype
      (Element.join k.datatype (Placement.onGrid k h ws).exactWords) = .ok _ :=
    Element.decode_join (Placement.exactWords_lt hws)
  simp only [decompressAs, hread, Result.ok_bind, if_neg (Nat.not_lt.mpr hmax), hsize, hunpack,
    List.drop_left, hexact]
  rfl

-- Whether no grid point of an array has the code of exact elements. Else there are too few exact
-- words.
def Readable (p : Placement) : Prop :=
  ∀ bits, bitsFor p = .ok bits → ∀ w ∈ p.words, ¬LooksExact (reservedFor p bits) p w

theorem readable_iff (hbits : bitsFor p = .ok bits) :
    Readable p ↔ ∀ w ∈ p.words, ¬LooksExact (reservedFor p bits) p w := by
  constructor
  case mp => exact fun h => h bits hbits
  case mpr =>
    intro h bits' hbits'
    obtain rfl := Except.ok.inj (hbits.symm.trans hbits')
    exact h

theorem readable_of_clear (hclear : Clear (.onGrid k h ws)) : Readable (.onGrid k h ws) :=
  fun _ hbits _ hw hlooks => (ne_of_clear hbits hclear hw hlooks.left).right hlooks.right

-- The codes of an array lead to what they are taken for, or to nothing.
theorem decode_eq_ok_iff (hbits : bitsFor (.onGrid k h ws) = .ok bits) :
    decode k ⟨(Placement.onGrid k h ws).grid, bits, h.fillValue⟩
        (reservedFor (.onGrid k h ws) bits)
        (ws.map ((reservedFor (.onGrid k h ws) bits).encode (.onGrid k h ws)))
        (Placement.onGrid k h ws).exactWords = .ok vs ↔
      Readable (.onGrid k h ws) ∧
        vs = ws.map (decoded (reservedFor (.onGrid k h ws) bits) (.onGrid k h ws)) := by
  have hr := reserves_of_bitsFor hbits
  have hdecode := decode_encode bits hr
  rw [readable_iff hbits]
  constructor
  case mp =>
    intro hvs
    have hexact := not_looksExact_of_decode hr hvs
    exact ⟨hexact, Except.ok.inj (hvs.symm.trans (hdecode hexact))⟩
  case mpr =>
    rintro ⟨hexact, rfl⟩
    exact hdecode hexact

-- What was compressed comes back as its codes are taken, if it comes back.
theorem exists_of_compress {t : Datatype} (ht : t.kind? = some k)
    (hf : compress t h dims src = .ok out) :
    ∃ bits, bitsFor (.onGrid k h (Element.split t src)) = .ok bits ∧ bits < t.width ∧
      ∀ back, decompress t dims out = .ok back ↔ Readable (.onGrid k h (Element.split t src)) ∧
        back = Element.join t ((Element.split t src).map
          (decoded (reservedFor (.onGrid k h (Element.split t src)) bits)
            (.onGrid k h (Element.split t src)))) := by
  obtain rfl := FloatKind.datatype_of_kind? ht
  simp only [compress, decompress, ht] at hf ⊢
  obtain ⟨p, bits, packed, hp, hbits, hwidth, hpacked, rfl⟩ := compressAs_eq_ok_iff.mp hf
  obtain ⟨-, ws, hws, rfl⟩ := Placement.make_eq_ok_iff.mp hp
  obtain ⟨-, rfl, hl⟩ := Element.decodeAs_eq_ok_iff.mp hws
  refine ⟨bits, hbits, hwidth, fun back => ?_⟩
  rw [decompressAs_header (fun _ => Element.lt_of_mem_split) hl hbits hpacked,
    Result.map_eq_ok_iff]
  simp only [decode_eq_ok_iff hbits, and_assoc, exists_and_left, exists_eq_left, eq_comm]

-- What was compressed comes back as it is restored.
theorem decompress_of_compress {t : Datatype} (ht : t.kind? = some k)
    (hf : compress t h dims src = .ok out)
    (hclear : Clear (.onGrid k h (Element.split t src))) :
    decompress t dims out = .ok (Element.join t
      ((Element.split t src).map (Placement.onGrid k h (Element.split t src)).restored)) := by
  have ⟨bits, hbits, _, hback⟩ := exists_of_compress ht hf
  have hdecoded := List.map_congr_left fun w hw =>
    decoded_eq_restored fun hrole => (ne_of_clear hbits hclear hw hrole).left
  exact (hback _).mpr ⟨readable_of_clear hclear, by rw [hdecoded]⟩

theorem clear_of_lt (hbits : bitsFor p = .ok bits) (hlt : bits < 48) : Clear p := by
  intro bits' hbits' hle
  obtain rfl := Except.ok.inj (hbits.symm.trans hbits')
  exact absurd hlt (Nat.not_lt.mpr hle)

-- What was compressed comes back element by element: fills as the fill value, elements that have to
-- stay bit by bit, and all others as their grid points, which are within the tolerance.
theorem decompress_restores {t : Datatype} (ht : t.kind? = some k)
    (hf : compress t h dims src = .ok out)
    (hclear : Clear (.onGrid k h (Element.split t src))) :
    ∃ back, decompress t dims out = .ok back ∧ back.length = src.length ∧
      List.Forall₂ (Placement.onGrid k h (Element.split t src)).Restores
        (Element.split t src) (Element.split t back) := by
  have hback := decompress_of_compress ht hf hclear
  obtain rfl := FloatKind.datatype_of_kind? ht
  simp only [compress, ht] at hf
  obtain ⟨p, _, _, hp, _⟩ := compressAs_eq_ok_iff.mp hf
  exact ⟨_, hback, Placement.forall₂_restores h (Placement.length_mod_of_make hp)⟩

-- The single numbers 1, -999, NaN, 1 + 19 / 2 ^ 23 and 1 + 2 / 2 ^ 23. The second one is the fill
-- value, and the grid point of the fourth becomes a number that is too far away.
def mixedSource : Bytes :=
  [0, 0, 128, 63, 0, 192, 121, 196, 1, 0, 192, 127, 19, 0, 128, 63, 2, 0, 128, 63]

-- A tolerance just above half the spacing of single numbers.
def mixedHints : Hints where
  absoluteTolerance := .ofWord 0x3e70d79435e50d79
  fillValue         := .ofWord 0xc08f380000000000

theorem decompress_restores_mixed :
    ∃ out, compress .float mixedHints .five mixedSource = .ok out ∧
      Clear (.onGrid .single mixedHints (Element.split .float mixedSource)) ∧
      ∃ back, decompress .float .five out = .ok back ∧ back.length = mixedSource.length ∧
        List.Forall₂ (Placement.onGrid .single mixedHints
            (Element.split .float mixedSource)).Restores
          (Element.split .float mixedSource) (Element.split .float back) := by
  have hf : compress .float mixedHints .five mixedSource = .ok
      [0, 0, 0, 0, 0, 0, 240, 63, 188, 134, 242, 26, 202, 107, 128, 62, 5, 0, 0, 0, 0, 0, 56, 143,
        192, 7, 253, 225, 0, 1, 0, 192, 127, 19, 0, 128, 63] := by decide +kernel
  have hbits : bitsFor (.onGrid .single mixedHints (Element.split .float mixedSource)) = .ok 5 := by
    decide +kernel
  have hclear := clear_of_lt hbits (by decide)
  exact ⟨_, hf, hclear, decompress_restores rfl hf hclear⟩

-- At 48 bits, the higher of two numbers can get the code that stands for the fill value.
example : ¬Clear (.onGrid .double
    { fillValue := .ofWord 0xc014000000000000, absoluteTolerance := .ofNat 1 }
    [0, 0x42ff333333333307]) := by
  intro hclear
  have hne := (hclear 48 (by decide +kernel) (Nat.le_refl _) 0x42ff333333333307 (by decide)
    (by decide +kernel)).left
  exact hne (by decide +kernel)

-- At 48 bits, the higher of two numbers can get the code that stands for the exact NaN.
example : ¬Readable (.onGrid .double
    { fillValue := .ofWord 0xc014000000000000, absoluteTolerance := .ofNat 1 }
    [0, 0x42ff3333333332e8, 0x7ff8000000000000]) :=
  fun hreadable => hreadable 48 (by decide +kernel) 0x42ff3333333332e8 (by decide)
    (by decide +kernel)

-- The code of an element that fits its width, is below the codes reserved there, and so decodes to
-- the grid point, never to the fill value or an exact word.
structure Unreserved (p : Placement) (bits w : Nat) : Prop where
  fits     : p.code w < 2 ^ bits
  lt_fill  : ∀ c ∈ (reservedFor p bits).fillCode?, p.code w < c
  lt_exact : ∀ c ∈ (reservedFor p bits).exactCode?, p.code w < c
  decode   : ∀ params cs exact, decode p.kind params (reservedFor p bits) (p.code w :: cs) exact =
    (decode p.kind params (reservedFor p bits) cs exact).map
      (p.kind.ofDouble (params.grid.point (p.code w)) :: ·)

theorem unreserved_of_add_lt
    (hc : p.code w + (p.hints.hasFill.toNat + p.hasExact.toNat) < 2 ^ bits) :
    Unreserved p bits w where
  fits := by omega
  lt_fill := (Reserved.lt_of_add_lt hc).left
  lt_exact := (Reserved.lt_of_add_lt hc).right
  decode _ _ _ := decode_of_ne (Reserved.ne_of_add_lt hc).left (Reserved.ne_of_add_lt hc).right

def HasRoom (p : Placement) (bits : Nat) : Prop :=
  p.grid.HasRoom p.high (p.hints.hasFill.toNat + p.hasExact.toNat) bits

theorem unreserved_of_regular (hbits : bitsFor (.onGrid k h ws) = .ok bits)
    (hroom : HasRoom (.onGrid k h ws) bits) (hw : w ∈ ws)
    (hrole : (Placement.onGrid k h ws).role w = .regular) :
    Unreserved (.onGrid k h ws) bits w := by
  have hcovers := covers_of_bitsFor hbits
  have hle := Placement.code_le hcovers hw hrole
  have hlt := hcovers.code_high_add_lt_iff.mpr hroom
  exact unreserved_of_add_lt (by omega)

-- Bits that codes need are enough for them and the reserved ones if and only if there is room even
-- if the number of codes is not rounded, and there is below 48 bits. Where an array has room, no
-- code of an element on its grid point is reserved.
theorem fits_iff_hasRoom (bits : Nat) :
    (∀ (low high half : Double) (reserved : Nat),
      Grid.bitsNeeded low high half reserved = .ok bits →
        (Grid.Fits ⟨low, half⟩ high reserved bits ↔ Grid.HasRoom ⟨low, half⟩ high reserved bits) ∧
          (bits < 48 → Grid.HasRoom ⟨low, half⟩ high reserved bits)) ∧
      ∀ (k : FloatKind) (h : Hints) (ws : List Nat),
        bitsFor (.onGrid k h ws) = .ok bits → HasRoom (.onGrid k h ws) bits →
          ∀ w ∈ ws, (Placement.onGrid k h ws).role w = .regular →
            Unreserved (.onGrid k h ws) bits w :=
  ⟨fun _ _ _ _ => Grid.fits_iff_of_bitsNeeded, fun _ _ _ hbits hroom _ hw =>
    unreserved_of_regular hbits hroom hw⟩

theorem fits_iff_hasRoom_mixed :
    let p := Placement.onGrid .single mixedHints (Element.split .float mixedSource)
    Grid.bitsNeeded .zero (.ofNat (3 * 2 ^ 46)) (.ofWord 0x3fe0000000000000) 2 = .ok 48 ∧
      bitsFor p = .ok 5 ∧
      Grid.Fits ⟨.zero, .ofWord 0x3fe0000000000000⟩ (.ofNat (3 * 2 ^ 46)) 2 48 ∧
      HasRoom p 5 ∧ p.role 0x3f800000 = .regular ∧ Unreserved p 5 0x3f800000 := by
  have hneeded : Grid.bitsNeeded .zero (.ofNat (3 * 2 ^ 46)) (.ofWord 0x3fe0000000000000) 2 =
      .ok 48 := by decide +kernel
  have hbits : bitsFor (.onGrid .single mixedHints (Element.split .float mixedSource)) = .ok 5 := by
    decide +kernel
  have hrole : (Placement.onGrid .single mixedHints (Element.split .float mixedSource)).role
      0x3f800000 = .regular := by decide +kernel
  have ⟨hwide, _⟩ := fits_iff_hasRoom 48
  have ⟨hfits, _⟩ := hwide _ _ _ _ hneeded
  have ⟨hrange, hstage⟩ := fits_iff_hasRoom 5
  -- The needs of an array's codes are those of its range.
  have ⟨_, hroom⟩ := hrange _ _ _ _ hbits
  exact ⟨hneeded, hbits, hfits.mpr (by decide +kernel), hroom (by decide), hrole,
    hstage _ _ _ hbits (hroom (by decide)) _ (by decide) hrole⟩

-- The range from zero to one half below `2 ^ 48` has one code more than numbers of 48 bits.
theorem not_fits_of_bitsNeeded :
    ¬∀ (low high half : Double) (reserved bits : Nat),
      Grid.bitsNeeded low high half reserved = .ok bits →
        Grid.Fits ⟨low, half⟩ high reserved bits := by
  intro hfits
  have hhigh := hfits .zero (.ofWord 0x42effffffffffff0) (.ofWord 0x3fe0000000000000) 0 48
    (by decide +kernel) (.ofWord 0x42effffffffffff0) (by decide +kernel) (by decide +kernel)
  exact absurd hhigh (by decide +kernel)

end GridPress.Stage.Abstol

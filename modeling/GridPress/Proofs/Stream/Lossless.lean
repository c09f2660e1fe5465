import GridPress.Codec.Bundled
import GridPress.Proofs.Codec.Zstd
import GridPress.Proofs.Stage.Differences
import GridPress.Proofs.Stage.Placement
import GridPress.Proofs.Stream.Framing

namespace GridPress

-- Arrays that memory can hold come back, and nothing but their contents changes on the way.
structure Preconditioner.Lossless (p : Preconditioner) : Prop where
  total : ∀ {t dims src} (h : Hints), p.supports t = true → src.length = dims.byteSize t →
    ∃ out, p.precondition t h dims src = .ok (out, [])
  back  : ∀ {t h dims src out header}, src.length % t.size = 0 →
    p.precondition t h dims src = .ok (out, header) →
    out.length = src.length ∧ p.restore t header dims out = .ok src

namespace Registry

variable {t : Datatype} {h : Hints} {dims : Dims} {src out header : Bytes}

theorem plainPreconditioner_lossless {supports : Datatype → Bool}
    {precondition restore : Datatype → Dims → Bytes → Result Bytes}
    (htotal : ∀ {t dims src}, supports t = true → src.length = dims.byteSize t →
      ∃ out, precondition t dims src = .ok out)
    (hback : ∀ {t dims src out}, src.length % t.size = 0 → precondition t dims src = .ok out →
      out.length = src.length ∧ restore t dims out = .ok src) :
    (plainPreconditioner supports precondition restore).Lossless where
  total h ht hs := by
    obtain ⟨out, hout⟩ := htotal ht hs
    exact ⟨out, by simp [plainPreconditioner, hout]⟩
  back hd hf := by
    obtain ⟨out, hout, heq⟩ := Result.bind_eq_ok_iff.mp hf
    cases heq
    exact hback hd hout

theorem xorDelta_lossless : xorDelta.Lossless :=
  plainPreconditioner_lossless
    (fun _ hs => ⟨_, Stage.XorDelta.transform_eq_ok_iff.mpr ⟨hs, rfl⟩⟩)
    (Stage.XorDelta.transform_undoneBy (Stage.XorDelta.changes_undoneBy _))

theorem delta_lossless : delta.Lossless :=
  plainPreconditioner_lossless
    (fun ht hs => ⟨_, Stage.Delta.transform_eq_ok_iff.mpr ⟨by simpa using ht, hs, rfl⟩⟩)
    (Stage.Delta.transform_undoneBy (Stage.Delta.differences_undoneBy (Nat.two_pow_pos _)))

variable [Codecs] {a : Algorithm}

-- Below the byte stage, the stages that are not lossy are preconditioners.
theorem preconditioner_of_lossless (ha : a ∈ algorithms) (hl : a.isLossy = false)
    (hb : a.position ≠ .byte) :
    ∃ p, p.Lossless ∧ (a.method = .preconditionFirst p ∨ a.method = .preconditionSecond p) := by
  have hm := method_of_mem ha
  have hlossy := isLossy_iff ha
  cases hp : a.position
  case preconditionFirst => exact ⟨xorDelta, xorDelta_lossless, .inl (by simpa [hp] using hm)⟩
  case preconditionSecond => exact ⟨delta, delta_lossless, .inr (by simpa [hp] using hm)⟩
  case byte => contradiction
  all_goals simp [hp, hl] at hlossy

end Registry

-- Whether the hints ask for what the lossy stage `a` does: to round to a number of significant
-- bits, or to stay within an absolute tolerance.
def Hints.allowsLoss (h : Hints) (a : Algorithm) : Prop :=
  if a.name = Stage.Sigbits.name then
    0 < h.significantBits
  else
    Double.zero < h.absoluteTolerance ∧ h.absoluteTolerance < .largest

namespace Stage

variable {t : Datatype} {h : Hints} {dims : Dims} {src out : Bytes}

theorem Abstol.tolerance_of_compress (hf : Abstol.compress t h dims src = .ok out) :
    Double.zero < h.absoluteTolerance ∧ h.absoluteTolerance < .largest := by
  unfold Abstol.compress at hf
  split at hf
  case h_1 k _ =>
    have ⟨_, hp, _⟩ := Result.bind_eq_ok_iff.mp hf
    exact (Placement.make_eq_ok_iff.mp hp).left
  case h_2 => contradiction

theorem Quantize.tolerance_of_convert {header : Bytes}
    (hf : Quantize.convert t h dims src = .ok (out, header)) :
    Double.zero < h.absoluteTolerance ∧ h.absoluteTolerance < .largest := by
  unfold Quantize.convert at hf
  split at hf
  case h_1 k _ =>
    have ⟨_, hp, _⟩ := Result.bind_eq_ok_iff.mp hf
    exact (Placement.make_eq_ok_iff.mp hp).left
  case h_2 => contradiction

theorem Sigbits.significantBits_of_compress (hf : Sigbits.compress t h dims src = .ok out) :
    0 < h.significantBits := by
  unfold Sigbits.compress at hf
  split at hf
  case h_1 k _ =>
    refine Int.not_le.mp fun hle => ?_
    simp [Sigbits.compressAs, hle] at hf
  case h_2 => contradiction

end Stage

theorem Registry.allowsLoss_of_forward [Codecs] {a : Algorithm} {t : Datatype} {h : Hints}
    {dims : Dims} {src : Bytes} {x : Bytes × Bytes} (ha : a ∈ algorithms)
    (hl : a.isLossy = true) (hf : a.forward t h dims src = .ok x) : h.allowsLoss a := by
  simp only [algorithms, List.mem_cons, List.not_mem_nil, or_false] at ha
  rcases ha with rfl | rfl | rfl | rfl | rfl | rfl | rfl | rfl | rfl
  case inr.inl =>
    obtain ⟨_, hout, _⟩ := Result.bind_eq_ok_iff.mp hf
    exact Stage.Abstol.tolerance_of_compress hout
  case inr.inr.inr.inl =>
    obtain ⟨_, hout, _⟩ := Result.bind_eq_ok_iff.mp hf
    exact Stage.Sigbits.significantBits_of_compress hout
  case inr.inr.inr.inr.inr.inr.inr.inl => exact Stage.Quantize.tolerance_of_convert hf
  all_goals contradiction

namespace Algorithm

-- What a preconditioner that is lossless makes of a stage.
structure Lossless (a : Algorithm) : Prop where
  type  : ∀ t, a.outputType t = t
  total : ∀ {t dims src} (h : Hints), a.supports t = true → src.length = dims.byteSize t →
    ∃ out, a.forward t h dims src = .ok (out, [])
  back  : ∀ {t h dims src out header}, src.length % t.size = 0 →
    a.forward t h dims src = .ok (out, header) →
    out.length = src.length ∧ a.backward t header dims out = .ok src

theorem lossless_of_mem [Codecs] {a : Algorithm} (ha : a ∈ Registry.algorithms)
    (hl : a.isLossy = false) (hb : a.position ≠ .byte) : a.Lossless := by
  have ⟨p, hp, hm⟩ := Registry.preconditioner_of_lossless ha hl hb
  refine ⟨fun t => ?_, fun h ht hs => ?_, fun hd hf => ?_⟩
  · unfold outputType
    rcases hm with hm | hm <;> rw [hm]
  · unfold supports at ht
    unfold forward
    rcases hm with hm | hm <;> rw [hm] at ht ⊢ <;> exact hp.total h ht hs
  · unfold forward at hf
    unfold backward
    rcases hm with hm | hm <;> rw [hm] at hf ⊢ <;> exact hp.back hd hf

end Algorithm

namespace Stream

variable {c : Chain} {t : Datatype} {h : Hints} {dims : Dims} {src stream : Bytes}
  {as : List Algorithm} {ps : List Pass} {r : Run}

theorem undoPasses_of_lossless (has : ∀ a ∈ as, a.Lossless) (hd : src.length % t.size = 0)
    (hps : passes h dims t src as = .ok ps) :
    undoPasses dims ps (dataBehind src ps) = .ok src := by
  induction as generalizing src ps
  case nil =>
    obtain rfl := passes_nil_eq_ok_iff.mp hps
    rfl
  case cons a as ih =>
    obtain ⟨p, qs, hp, hqs, rfl⟩ := passes_cons_eq_ok_iff.mp hps
    obtain ⟨rfl, rfl, -, hf⟩ := Pass.run_eq_ok_iff.mp hp
    have hlossless := has p.stage (by simp)
    obtain ⟨hlength, hback⟩ := hlossless.back hd hf
    rw [hlossless.type] at hqs
    have hqs' := ih (fun b hb => has b (by simp [hb])) (hlength ▸ hd) hqs
    rw [undoPasses, dataBehind, hqs']
    exact hback

theorem exists_passes_of_lossless (has : ∀ a ∈ as, a.Lossless)
    (ht : ∀ a ∈ as, a.supports t = true) (hs : src.length = dims.byteSize t)
    (hd : src.length % t.size = 0) :
    ∃ ps, passes h dims t src as = .ok ps ∧ ∀ p ∈ ps, p.header = [] := by
  induction as generalizing src
  case nil => exact ⟨[], rfl, by simp⟩
  case cons a as ih =>
    have hlossless := has a (by simp)
    have ⟨out, hout⟩ := hlossless.total h (ht a (by simp)) hs
    have ⟨hlength, _⟩ := hlossless.back hd hout
    have hp : Pass.run h dims a t src = .ok ⟨a, t, src, [], out⟩ :=
      Pass.run_eq_ok_iff.mpr ⟨rfl, rfl, rfl, hout⟩
    have ⟨qs, hqs, hheaders⟩ := ih (fun b hb => has b (by simp [hb]))
      (fun b hb => ht b (by simp [hb])) (hlength.trans hs) (hlength ▸ hd)
    refine ⟨_, passes_cons_eq_ok_iff.mpr ⟨_, qs, hp, ?_, rfl⟩, ?_⟩
    · rwa [hlossless.type]
    · simpa using hheaders

variable [Codecs]

theorem isLossy_of_mem {a : Algorithm} (hc : c.Registered) (hl : c.isLossy = false)
    (ha : a ∈ c.stages) : a.isLossy = false := by
  rw [hc.isLossy_eq, List.any_eq_false] at hl
  exact Bool.not_eq_true _ ▸ hl a ha

theorem lossless_below (hc : c.Registered) (hl : c.isLossy = false) :
    ∀ a ∈ c.below, a.Lossless := by
  intro a ha
  have hmem : a ∈ c.stages := c.stages_eq ▸ List.mem_append_left _ ha
  exact Algorithm.lossless_of_mem (hc.mem a hmem) (isLossy_of_mem hc hl hmem)
    (hc.placed.below_ne_byte a ha)

-- There is neither a converter nor a datatype stage, so all stages are given the same type.
theorem supports_below (hc : c.Registered) (hl : c.isLossy = false)
    (ht : c.checkApplicable t = .ok ()) : ∀ a ∈ c.below, a.supports t = true := by
  have hposition : ∀ a ∈ c.stages, ¬(a.position = .converter ∨ a.position = .datatype) := by
    intro a ha
    rw [← Registry.isLossy_iff (hc.mem a ha), isLossy_of_mem hc hl ha]
    exact Bool.false_ne_true
  have hconverter : c.converter? = none := by
    cases hb : c.converter?
    case none => rfl
    case some a =>
      exact absurd (.inl (hc.placed.converter a hb)) (hposition a (by simp [Chain.stages, hb]))
  have htyped : c.typed? = none := by
    cases hb : c.typed?
    case none => rfl
    case some a =>
      exact absurd (.inr (hc.placed.typed a hb)) (hposition a (by simp [Chain.stages, hb]))
  obtain ⟨hfirst, _, hsecond, _⟩ := Chain.checkApplicable_eq_ok_iff.mp ht
  intro a ha
  simp only [Chain.convertedType, hconverter] at hsecond
  simp only [Chain.below, Chain.leading, hconverter, htyped, Option.toList_none, List.append_nil,
    List.mem_append] at ha
  cases ha
  case inl ha => exact hfirst a ha
  case inr ha => exact hsecond a ha

theorem decompress_of_lossless [Codecs.Lawful] (hc : c.Registered) (hl : c.isLossy = false)
    (ht : c.checkApplicable t = .ok ()) (hs : src.length = dims.byteSize t)
    (hm : src.length ≤ Size.maxArray) (hrun : runChain c t h dims src = .ok stream) :
    decompress t dims stream = .ok src := by
  have ⟨hsize, r, hr, hf, hstream⟩ := (runChain_eq_ok_iff hc.placed).mp hrun
  have ⟨hsource, hps, _⟩ := Run.ofChain_eq_ok_iff.mp hr
  have hd : src.length % t.size = 0 := hs ▸ Dims.byteSize_mod_size (hs ▸ hm)
  have hundo := undoPasses_of_lossless (lossless_below hc hl) hd hps
  rw [← hstream, Run.decompress_stream hc ht hr hf hsize, Run.undo_eq_undoPasses hc hr,
    Run.payload, hsource, hundo]
  simp [checkSize, hs]

theorem exists_runChain_eq_ok [Codecs.Lawful] (hc : c.Registered) (hl : c.isLossy = false)
    (ht : c.checkApplicable t = .ok ()) (hs : src.length = dims.byteSize t)
    (hm : src.length ≤ Size.maxArray) (hsize : c.size ≤ 255) :
    ∃ stream, runChain c t h dims src = .ok stream := by
  have hd : src.length % t.size = 0 := hs ▸ Dims.byteSize_mod_size (hs ▸ hm)
  have ⟨ps, hps, hheaders⟩ := exists_passes_of_lossless (h := h) (lossless_below hc hl)
    (supports_below hc hl ht) hs hd
  have hfits : ∀ p ∈ ps, p.header.length ≤ Trailer.maxHeader := by
    intro p hp
    simp [hheaders p hp]
  suffices h : ∃ r, Run.ofChain c t h dims src = .ok r ∧ r.Fits by
    have ⟨r, hr, hf⟩ := h
    exact ⟨_, (runChain_eq_ok_iff hc.placed).mpr ⟨hsize, r, hr, hf, rfl⟩⟩
  cases hb : c.byte?
  case none =>
    exact ⟨⟨src, ps, none⟩,
      Run.ofChain_eq_ok_iff.mpr ⟨rfl, hps, (Run.byteStageOf_none_iff hb).mpr rfl⟩, hfits⟩
  case some a =>
    have hmem : a ∈ Registry.algorithms := hc.mem _ (by simp [Chain.stages_eq, hb])
    have ⟨b, hmethod⟩ := Algorithm.method_of_byte (hc.placed.byte a hb)
    let framed := Run.framed ⟨src, ps, none⟩
    have ⟨out, hout, _⟩ := Registry.byte_lawful hmem hmethod framed
    let p : Pass := ⟨a, typeBehind t c.below, framed, [], out⟩
    have hp : Pass.run h dims a (typeBehind t c.below) framed = .ok p := by
      refine Pass.run_eq_ok_iff.mpr ⟨rfl, rfl, rfl, ?_⟩
      rw [Algorithm.forward_byte hmethod, hout]
      rfl
    exact ⟨⟨src, ps, some p⟩,
      Run.ofChain_eq_ok_iff.mpr ⟨rfl, hps, (Run.byteStageOf_some_iff hb).mpr ⟨p, rfl, hp⟩⟩, hfits⟩

-- A stage that is lossy fails without room for loss.
theorem allowsLoss_of_runChain (hc : c.Registered)
    (hrun : runChain c t h dims src = .ok stream) {a : Algorithm} (ha : a ∈ c.stages)
    (hl : a.isLossy = true) : h.allowsLoss a := by
  have hmem := hc.mem a ha
  have hbyte : a.position ≠ .byte := by
    intro hbyte
    have hpos := (Registry.isLossy_iff hmem).mp hl
    simp [hbyte] at hpos
  obtain ⟨_, r, hr, _⟩ := (runChain_eq_ok_iff hc.placed).mp hrun
  obtain ⟨_, hps, _⟩ := Run.ofChain_eq_ok_iff.mp hr
  obtain ⟨_, _, _, hf⟩ := exists_forward_of_mem_passes hps (hc.placed.mem_below ha hbyte)
  exact Registry.allowsLoss_of_forward hmem hl hf

variable {env : Environment} {ctx ctx' : Context}

theorem roundtrip_nil (h : (compress env dims []).run.run ctx = (.ok stream, ctx')) :
    decompress ctx.datatype dims stream = .ok [] := by
  obtain ⟨hsize, rfl, -⟩ := compress_nil_eq_ok_iff.mp h
  simp [decompress, splitCount, hsize]

omit [Codecs] in
-- A chain that was not named by anyone is lossless and fits every array.
theorem choose_lossless {a : Algorithm} :
    let c : Chain := { byte? := some a }
    c.isLossy = false ∧ c.size ≤ 255 ∧ c.checkApplicable t = .ok () := by
  refine ⟨rfl, by simp [Chain.size], ?_⟩
  exact Chain.checkApplicable_eq_ok_iff.mpr (by simp)

-- Chains of lossless stages compress every array that memory can hold, and lead back to it.
theorem roundtrip_of_lossless [Codecs.Lawful] (hctx : ctx.Valid)
    (hchain : ∀ c ∈ ctx.chain?, c.isLossy = false ∧ c.size ≤ 255 ∧
      c.checkApplicable ctx.datatype = .ok ())
    (henv : ctx.chain? = none → ∀ spec, env.forced? ≠ some (.chain spec))
    (hs : src.length = dims.byteSize ctx.datatype) (hm : src.length ≤ Size.maxArray) :
    ∃ stream ctx', (compress env dims src).run.run ctx = (.ok stream, ctx') ∧
      decompress ctx.datatype dims stream = .ok src := by
  by_cases hne : src = []
  case pos =>
    subst hne
    have hnil : (compress env dims []).run.run ctx = (.ok [0], ctx) :=
      compress_nil_eq_ok_iff.mpr ⟨hs.symm, rfl, rfl⟩
    exact ⟨[0], ctx, hnil, roundtrip_nil hnil⟩
  case neg =>
    have ⟨ctx', hchoose⟩ : ∃ ctx', (Chooser.choose env dims src).run.run ctx = (.ok (), ctx') :=
      Chooser.exists_choose_eq_ok hs hm henv
    have ⟨htype, _, c, hc, hnamed⟩ := Chooser.choose_eq_ok hchoose
    have hregistered := registered_of_choose hctx hchoose hc
    have ⟨hl, hsize, ht⟩ : c.isLossy = false ∧ c.size ≤ 255 ∧
        c.checkApplicable ctx.datatype = .ok () := by
      rcases hnamed with (hgiven | ⟨hnone, spec, hspec, _⟩) | ⟨a, ha, hbyte, rfl⟩
      · exact hchain c hgiven
      · exact absurd hspec (henv hnone spec)
      · exact choose_lossless
    have ⟨stream, hrun⟩ : ∃ stream, runChain c ctx.datatype ctx'.hints dims src = .ok stream :=
      exists_runChain_eq_ok hregistered hl ht hs hm hsize
    refine ⟨stream, ctx', (compress_eq_ok_iff hne).mpr ⟨hs, hchoose, c, hc, ht, hrun⟩, ?_⟩
    exact decompress_of_lossless hregistered hl ht hs hm hrun

omit [Codecs] in
theorem roundtrip_of_lossless_two :
    letI := Codecs.stored
    ∃ stream ctx', (compress {} .two [1, 2]).run.run (.stored {} false) = (.ok stream, ctx') ∧
      decompress .int8 .two stream = .ok [1, 2] := by
  let codecs := Codecs.stored
  have := Codecs.stored_lawful
  have hchain : ∀ c ∈ (Context.stored {} false).chain?, c.isLossy = false ∧ c.size ≤ 255 ∧
      c.checkApplicable .int8 = .ok () :=
    fun c hc => Option.some.inj hc ▸ ⟨rfl, by decide, rfl⟩
  exact roundtrip_of_lossless (Context.stored_valid _ _) hchain nofun rfl (by decide)

-- Without room for loss in the hints, a lossy stage fails. So a stream is only ever lossy because
-- of a chain that was named along with such hints, whether or not lossless compression is required.
theorem roundtrip_of_not_allowsLoss [Codecs.Lawful] (hctx : ctx.Valid)
    (hnamed : ∀ c, ctx.Names env c → ∀ a ∈ c.stages, a.isLossy = true → ¬ctx.hints.allowsLoss a)
    (hm : src.length ≤ Size.maxArray)
    (h : (compress env dims src).run.run ctx = (.ok stream, ctx')) :
    decompress ctx.datatype dims stream = .ok src := by
  by_cases hne : src = []
  case pos =>
    subst hne
    exact roundtrip_nil h
  case neg =>
    have ⟨hs, hchoose, c, hc, ht, hrun⟩ := (compress_eq_ok_iff hne).mp h
    have ⟨_, hhints, d, hd, horigin⟩ := Chooser.choose_eq_ok hchoose
    obtain rfl : d = c := Option.some.inj (hd.symm.trans hc)
    have hregistered := registered_of_choose hctx hchoose hc
    have hl : d.isLossy = false := by
      rcases horigin with hd | ⟨a, ha, hbyte, rfl⟩
      · rw [hregistered.isLossy_eq, List.any_eq_false]
        intro a ha hlossy
        have hallows := allowsLoss_of_runChain hregistered hrun ha hlossy
        exact hnamed d hd a ha hlossy (hhints ▸ hallows)
      · rfl
    exact decompress_of_lossless hregistered hl ht hs hm hrun

-- The finest precision, which a lossless chain keeps.
def finestHints : Hints :=
  { significantBits := Hints.finestPrecision }

omit [Codecs] in
theorem roundtrip_of_not_allowsLoss_two :
    letI := Codecs.stored
    let ctx := Context.stored finestHints true
    ∃ stream, (compress {} .two [1, 2]).run.run ctx = (.ok stream, ctx) ∧
      decompress .int8 .two stream = .ok [1, 2] := by
  let codecs := Codecs.stored
  have := Codecs.stored_lawful
  have hnamed : ∀ c, (Context.stored finestHints true).Names {} c → ∀ a ∈ c.stages,
      a.isLossy = true → ¬(Context.stored finestHints true).hints.allowsLoss a := by
    intro c hc a ha hl
    obtain rfl : Chain.xorDeltaZstd = c := Option.some.inj (hc.resolve_right nofun)
    have hlossless : Chain.xorDeltaZstd.isLossy = false := rfl
    rw [isLossy_of_mem Chain.xorDeltaZstd_registered hlossless ha] at hl
    contradiction
  have hcompress : (compress {} .two [1, 2]).run.run (Context.stored finestHints true) =
      (.ok [2, 40, 181, 47, 253, 0, 56, 57, 0, 0, 1, 3, 0, 0, 0, 0, 6, 5],
        .stored finestHints true) := rfl
  have hdecompress :=
    roundtrip_of_not_allowsLoss (Context.stored_valid _ _) hnamed (by decide) hcompress
  exact ⟨_, hcompress, hdecompress⟩

end Stream

namespace Stream

-- The finest number of significant bits together with a tolerance, and a chain for the latter.
def conflictingHints : Hints where
  significantBits   := Hints.finestPrecision
  absoluteTolerance := .ofWord 0x3fe0000000000000
  forcedChain       := some "abstol"

-- The numbers 0 and 0.3, of which the second comes back as 0.
theorem not_roundtrip_of_requiresLossless :
    ¬∀ (t : Datatype) (h : Hints) (env : Environment) (dims : Dims) (src stream : Bytes)
      (c c' : Context), Context.make t h = .ok c →
      (compress env dims src).run.run c = (.ok stream, c') → c'.lossless = true →
      decompress t dims stream = .ok src := by
  intro hall
  have hr : roundtrip .double conflictingHints {} .two
      [0, 0, 0, 0, 0, 0, 0, 0, 0x33, 0x33, 0x33, 0x33, 0x33, 0x33, 0xd3, 0x3f] =
        .ok (true, List.replicate 16 0) := by decide +kernel
  have ⟨c, c', stream, hc, hcompress, hlossless, hout⟩ := exists_of_roundtrip hr
  have hsrc := hall _ _ _ _ _ _ c c' hc hcompress hlossless
  rw [hout] at hsrc
  exact absurd (Except.ok.inj hsrc) (by decide)

end Stream
end GridPress

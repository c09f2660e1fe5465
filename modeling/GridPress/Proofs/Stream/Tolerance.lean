import GridPress.Proofs.Stage.Abstol
import GridPress.Proofs.Stage.Quantize
import GridPress.Proofs.Stream.Lossless
import Mathlib.Data.List.Forall2

namespace GridPress

-- Whether a stage of the chain rounds elements to a grid.
def Chain.RoundsToGrid (c : Chain) : Prop :=
  ∃ a ∈ c.stages, a.name = Stage.Abstol.name ∨ a.name = Stage.Quantize.name

-- The elements of an array as they leave the chain's exclusive-or stages.
def Chain.differences (c : Chain) (t : Datatype) (src : Bytes) : List Nat :=
  (Stage.XorDelta.changes 0)^[c.preconditionFirst.length] (Element.split t src)

theorem Chain.length_differences (c : Chain) (t : Datatype) (src : Bytes) :
    (c.differences t src).length = (Element.split t src).length :=
  Stage.XorDelta.length_iterate (Stage.XorDelta.length_changes 0) _ _

theorem Chain.differences_lt (c : Chain) (t : Datatype) (src : Bytes) :
    ∀ w ∈ c.differences t src, w < 2 ^ t.width :=
  Stage.XorDelta.changes_iterate_lt _ fun _ => Element.lt_of_mem_split

-- The array that has these differences.
def Chain.followed (c : Chain) (t : Datatype) (ws : List Nat) : Bytes :=
  Element.join t ((Stage.XorDelta.follow 0)^[c.preconditionFirst.length] ws)

theorem Chain.length_followed (c : Chain) (t : Datatype) (ws : List Nat) :
    (c.followed t ws).length = t.size * ws.length := by
  rw [followed, Element.length_join,
    Stage.XorDelta.length_iterate (Stage.XorDelta.length_follow 0)]

theorem Chain.differences_followed (c : Chain) {t : Datatype} {ws : List Nat}
    (hws : ∀ w ∈ ws, w < 2 ^ t.width) : c.differences t (c.followed t ws) = ws := by
  rw [differences, followed, Element.split_join (Stage.XorDelta.follow_iterate_lt _ hws),
    Stage.XorDelta.iterate_changes_follow]

namespace Stream

open Stage (Placement)

variable {c : Chain} {t : Datatype} {k : FloatKind} {h : Hints} {dims : Dims} {a : Algorithm}
  {as : List Algorithm} {src stream : Bytes} {ps qs : List Pass} {ws vs : List Nat}

theorem forward_xorDelta (ha : a.method = .preconditionFirst Registry.xorDelta) {out header : Bytes}
    (hf : a.forward t h dims src = .ok (out, header)) :
    src.length = dims.byteSize t ∧
      out = Element.join t (Stage.XorDelta.changes 0 (Element.split t src)) := by
  rw [Algorithm.forward, ha] at hf
  obtain ⟨_, hout, heq⟩ := Result.bind_eq_ok_iff.mp hf
  obtain ⟨rfl, rfl⟩ := Prod.mk.inj (Except.ok.inj heq)
  obtain ⟨hs, rfl⟩ := Stage.XorDelta.transform_eq_ok_iff.mp hout
  exact ⟨hs, rfl⟩

theorem backward_xorDelta (ha : a.method = .preconditionFirst Registry.xorDelta) (header : Bytes)
    (hws : ∀ w ∈ ws, w < 2 ^ t.width) (hl : t.size * ws.length = dims.byteSize t) :
    a.backward t header dims (Element.join t ws) =
      .ok (Element.join t (Stage.XorDelta.follow 0 ws)) := by
  rw [Algorithm.backward, ha]
  refine Stage.XorDelta.transform_eq_ok_iff.mpr ⟨?_, ?_⟩
  · rw [Element.length_join, hl]
  · rw [Element.split_join hws]

theorem outputType_xorDelta (ha : a.method = .preconditionFirst Registry.xorDelta)
    (t : Datatype) : a.outputType t = t := by
  rw [Algorithm.outputType, ha]

theorem typeBehind_xorDelta (has : ∀ a ∈ as, a.method = .preconditionFirst Registry.xorDelta)
    (t : Datatype) : typeBehind t as = t := by
  induction as
  case nil => rfl
  case cons a as ih =>
    rw [typeBehind, outputType_xorDelta (has a (by simp)), ih fun b hb => has b (by simp [hb])]

theorem dataBehind_xorDelta (has : ∀ a ∈ as, a.method = .preconditionFirst Registry.xorDelta)
    (hd : src.length % t.size = 0) (hps : passes h dims t src as = .ok ps) :
    dataBehind src ps =
      Element.join t ((Stage.XorDelta.changes 0)^[as.length] (Element.split t src)) := by
  induction as generalizing src ps
  case nil =>
    obtain rfl := passes_nil_eq_ok_iff.mp hps
    exact (Element.join_split hd).symm
  case cons a as ih =>
    obtain ⟨p, qs, hp, hqs, rfl⟩ := passes_cons_eq_ok_iff.mp hps
    obtain ⟨rfl, rfl, -, hf⟩ := Pass.run_eq_ok_iff.mp hp
    have ha := has p.stage (by simp)
    obtain ⟨_, hwritten⟩ := forward_xorDelta ha hf
    have hlt : ∀ d ∈ Stage.XorDelta.changes 0 (Element.split p.type src), d < 2 ^ p.type.width :=
      Stage.XorDelta.changes_lt (Nat.two_pow_pos _) fun _ => Element.lt_of_mem_split
    have hd' : p.written.length % p.type.size = 0 := by
      rw [hwritten, Element.length_join, Nat.mul_mod_right]
    rw [outputType_xorDelta ha] at hqs
    rw [dataBehind, ih (fun b hb => has b (by simp [hb])) hd' hqs, hwritten,
      Element.split_join hlt]
    rfl

theorem undoPasses_xorDelta (has : ∀ a ∈ as, a.method = .preconditionFirst Registry.xorDelta)
    (hps : passes h dims t src as = .ok ps) (hws : ∀ w ∈ ws, w < 2 ^ t.width)
    (hl : t.size * ws.length = dims.byteSize t) :
    undoPasses dims ps (Element.join t ws) =
      .ok (Element.join t ((Stage.XorDelta.follow 0)^[as.length] ws)) := by
  induction as generalizing src ps
  case nil =>
    obtain rfl := passes_nil_eq_ok_iff.mp hps
    rfl
  case cons a as ih =>
    obtain ⟨p, qs, hp, hqs, rfl⟩ := passes_cons_eq_ok_iff.mp hps
    obtain ⟨rfl, rfl, -, hf⟩ := Pass.run_eq_ok_iff.mp hp
    have ha := has p.stage (by simp)
    rw [outputType_xorDelta ha] at hqs
    rw [undoPasses, ih (fun b hb => has b (by simp [hb])) hqs, Result.ok_bind, Pass.undo,
      backward_xorDelta ha p.header (Stage.XorDelta.follow_iterate_lt _ hws), List.length_cons,
      Function.iterate_succ_apply']
    rw [Stage.XorDelta.length_iterate (Stage.XorDelta.length_follow 0), hl]

-- The elements that come back from a grid.
def restoredWords (k : FloatKind) (h : Hints) (ws : List Nat) : List Nat :=
  ws.map (Placement.onGrid k h ws).restored

theorem restoredWords_lt (hk : t.kind? = some k) (hws : ∀ w ∈ ws, w < 2 ^ t.width) :
    ∀ w ∈ restoredWords k h ws, w < 2 ^ t.width := by
  obtain rfl := FloatKind.datatype_of_kind? hk
  intro w hw
  obtain ⟨v, hv, rfl⟩ := List.mem_map.mp hw
  exact Placement.restored_lt (p := .onGrid k h ws) (hws v hv)

theorem length_restoredWords (k : FloatKind) (h : Hints) (ws : List Nat) :
    (restoredWords k h ws).length = ws.length := by
  simp [restoredWords]

theorem forall₂_restoredWords (hk : t.kind? = some k) (hws : ∀ w ∈ ws, w < 2 ^ t.width) :
    List.Forall₂ (h.Admits k) ws (restoredWords k h ws) := by
  obtain rfl := FloatKind.datatype_of_kind? hk
  rw [restoredWords, List.forall₂_map_right_iff, List.forall₂_same]
  exact fun w hw => Placement.admits_restored (p := .onGrid k h ws) (hws w hw)

theorem undoPasses_abstol (ha : a.method = .typed Registry.abstol) (hk : t.kind? = some k)
    (hclear : Stage.Abstol.Clear (.onGrid k h (Element.split t src)))
    (hps : passes h dims t src [a] = .ok ps) :
    undoPasses dims ps (dataBehind src ps) =
      .ok (Element.join t (restoredWords k h (Element.split t src))) := by
  obtain ⟨p, hp, rfl⟩ := passes_singleton_eq_ok_iff.mp hps
  obtain ⟨rfl, rfl, -, hf⟩ := Pass.run_eq_ok_iff.mp hp
  obtain ⟨hout, -⟩ := (Algorithm.forward_typed_eq_ok_iff ha).mp hf
  rw [undoPasses, undoPasses, Result.ok_bind, Pass.undo, Algorithm.backward, ha]
  exact Stage.Abstol.decompress_of_compress hk hout hclear

-- Behind the converter there are lossless stages only, which give back what it wrote.
theorem undoPasses_quantize (ha : a.method = .converter Registry.quantize)
    (has : ∀ b ∈ as, b.Lossless) (hk : t.kind? = some k)
    (hps : passes h dims t src (a :: as) = .ok ps) :
    undoPasses dims ps (dataBehind src ps) =
      .ok (Element.join t (restoredWords k h (Element.split t src))) := by
  obtain ⟨p, qs, hp, hqs, rfl⟩ := passes_cons_eq_ok_iff.mp hps
  obtain ⟨rfl, rfl, -, hf⟩ := Pass.run_eq_ok_iff.mp hp
  have htype : p.stage.outputType p.type = .int64 := by rw [Algorithm.outputType, ha]; rfl
  rw [Algorithm.forward, ha] at hf
  rw [htype] at hqs
  have hd : p.written.length % Datatype.int64.size = 0 := Stage.Quantize.length_mod_of_convert hf
  rw [undoPasses, dataBehind, undoPasses_of_lossless has hd hqs, Result.ok_bind, Pass.undo,
    Algorithm.backward, ha]
  exact Stage.Quantize.revert_of_convert hk hf

variable [Codecs]

theorem method_of_first (hc : c.Registered) :
    ∀ a ∈ c.preconditionFirst, a.method = .preconditionFirst Registry.xorDelta := by
  intro a ha
  have hm := Registry.method_of_mem (hc.mem a (by simp [Chain.stages, ha]))
  simpa [hc.placed.first a ha] using hm

theorem method_of_converter (hc : c.Registered) (ha : c.converter? = some a) :
    a.method = .converter Registry.quantize := by
  have hm := Registry.method_of_mem (hc.mem a (by simp [Chain.stages, ha]))
  simpa [hc.placed.converter a ha] using hm

theorem lossless_second (hc : c.Registered) : ∀ a ∈ c.preconditionSecond, a.Lossless := by
  intro a ha
  have hmem := hc.mem a (by simp [Chain.stages, ha])
  have hpos := hc.placed.second a ha
  have hlossy := Registry.isLossy_iff hmem
  rw [hpos] at hlossy
  exact Algorithm.lossless_of_mem hmem (by simpa using hlossy) (by simp [hpos])

-- Neither integers behind a converter nor floating-point elements have use for all stages.
theorem typed?_eq_none (hc : c.Registered) (ht : c.checkApplicable t = .ok ())
    (hint : (c.convertedType t).isFloat = false) : c.typed? = none := by
  cases hb : c.typed?
  case none => rfl
  case some a =>
    have ⟨_, _, _, htyped⟩ := Chain.checkApplicable_eq_ok_iff.mp ht
    have hsupports := htyped a hb
    have hm := Registry.method_of_mem (hc.mem a (by simp [Chain.stages, hb]))
    rw [hc.placed.typed a hb] at hm
    unfold Algorithm.supports at hsupports
    rcases hm with hm | hm <;> rw [hm] at hsupports <;>
      exact absurd hsupports (Bool.not_eq_true _ ▸ hint)

theorem second_eq_nil (hc : c.Registered) (ht : c.checkApplicable t = .ok ())
    (hfloat : (c.convertedType t).isFloat = true) : c.preconditionSecond = [] := by
  apply List.eq_nil_iff_forall_not_mem.mpr
  intro a ha
  have ⟨_, _, hsecond, _⟩ := Chain.checkApplicable_eq_ok_iff.mp ht
  have hsupports := hsecond a ha
  have hm := Registry.method_of_mem (hc.mem a (by simp [Chain.stages, ha]))
  rw [hc.placed.second a ha] at hm
  rw [Algorithm.supports, hm] at hsupports
  simp [Registry.delta, Registry.plainPreconditioner, hfloat] at hsupports

-- A chain for floating-point elements that rounds to a grid consists of exclusive-or stages, the
-- stage that rounds and lossless stages.
theorem below_of_roundsToGrid (hc : c.Registered) (hk : t.kind? = some k)
    (ht : c.checkApplicable t = .ok ()) (hg : c.RoundsToGrid) :
    (∃ a as, c.below = c.preconditionFirst ++ a :: as ∧
        a.method = .converter Registry.quantize ∧ ∀ b ∈ as, b.Lossless) ∨
      ∃ a, c.below = c.preconditionFirst ++ [a] ∧ c.typed? = some a ∧
        a.method = .typed Registry.abstol := by
  cases hq : c.converter?
  case some q =>
    have hm := method_of_converter hc hq
    have hint : (c.convertedType t).isFloat = false := by
      simp [Chain.convertedType, hq, Algorithm.outputType, hm]
      rfl
    have hnone := typed?_eq_none hc ht hint
    refine .inl ⟨q, c.preconditionSecond, ?_, hm, lossless_second hc⟩
    simp [Chain.below, Chain.leading, hq, hnone]
  case none =>
    have hfloat : (c.convertedType t).isFloat = true := by
      simp [Chain.convertedType, hq, Datatype.isFloat, hk]
    have hnil := second_eq_nil hc ht hfloat
    obtain ⟨a, ha, hname⟩ := hg
    obtain ⟨habstol, hquantize⟩ := Registry.method_of_name (hc.mem a ha)
    have hmem := hc.placed.mem_of_mem ha
    cases hname
    case inl hname =>
      have hm := habstol hname
      have hpos : a.position = .datatype := by rw [Algorithm.position, hm]; rfl
      have htyped : c.typed? = some a := by rwa [hpos] at hmem
      refine .inr ⟨a, ?_, htyped, hm⟩
      simp [Chain.below, Chain.leading, hq, hnil, htyped]
    case inr hname =>
      have hpos : a.position = .converter := by rw [Algorithm.position, hquantize hname]; rfl
      have hconverter : c.converter? = some a := by rwa [hpos] at hmem
      rw [hq] at hconverter
      contradiction

-- What is behind the exclusive-or stages gives back what the placement restores.
theorem exists_below_eq (dims : Dims) (hc : c.Registered) (hk : t.kind? = some k)
    (ht : c.checkApplicable t = .ok ()) (hg : c.RoundsToGrid)
    (hclear : ∀ a ∈ c.typed?, Stage.Abstol.Clear (.onGrid k h ws)) :
    ∃ as, c.below = c.preconditionFirst ++ as ∧ ∀ {src ps}, Element.split t src = ws →
      passes h dims t src as = .ok ps →
      undoPasses dims ps (dataBehind src ps) = .ok (Element.join t (restoredWords k h ws)) := by
  rcases below_of_roundsToGrid hc hk ht hg with ⟨a, as, hbelow, ha, has⟩ | ⟨a, hbelow, htyped, ha⟩
  · refine ⟨a :: as, hbelow, fun hsplit hps => ?_⟩
    rw [← hsplit]
    exact undoPasses_quantize ha has hk hps
  · refine ⟨[a], hbelow, fun hsplit hps => ?_⟩
    have hclear' := hclear a htyped
    rw [← hsplit] at hclear' ⊢
    exact undoPasses_abstol ha hk hclear' hps

theorem exists_decompress_eq_ok [Codecs.Lawful] (hc : c.Registered) (hk : t.kind? = some k)
    (ht : c.checkApplicable t = .ok ()) (hg : c.RoundsToGrid)
    (hclear : ∀ a ∈ c.typed?, Stage.Abstol.Clear (.onGrid k h (c.differences t src)))
    (hs : src.length = dims.byteSize t) (hm : src.length ≤ Size.maxArray)
    (hrun : runChain c t h dims src = .ok stream) :
    ∃ out, decompress t dims stream = .ok out ∧
      c.differences t out = restoredWords k h (c.differences t src) := by
  have ⟨hsize, r, hr, hf, hstream⟩ := (runChain_eq_ok_iff hc.placed).mp hrun
  have ⟨hsource, hps, _⟩ := Run.ofChain_eq_ok_iff.mp hr
  have hd : src.length % t.size = 0 := hs ▸ Dims.byteSize_mod_size (hs ▸ hm)
  have hfirst := method_of_first hc
  have ⟨rest, hbelow, hundo⟩ := exists_below_eq dims hc hk ht hg hclear
  rw [hbelow] at hps
  obtain ⟨ps, qs, hps, hqs, hr'⟩ := passes_append_eq_ok_iff.mp hps
  have hdifferences : dataBehind src ps = Element.join t (c.differences t src) :=
    dataBehind_xorDelta hfirst hd hps
  have hlt := c.differences_lt t src
  have hsplit : Element.split t (dataBehind src ps) = c.differences t src := by
    rw [hdifferences, Element.split_join hlt]
  rw [typeBehind_xorDelta hfirst] at hqs
  have hrestored := hundo hsplit hqs
  have hrlt : ∀ w ∈ restoredWords k h (c.differences t src), w < 2 ^ t.width :=
    restoredWords_lt hk hlt
  have hrl : t.size * (restoredWords k h (c.differences t src)).length = dims.byteSize t := by
    rw [length_restoredWords, Chain.length_differences, Element.length_split, ← hs]
    exact Nat.mul_div_cancel' (Nat.dvd_of_mod_eq_zero hd)
  have hfront := undoPasses_xorDelta hfirst hps hrlt hrl
  refine ⟨c.followed t (restoredWords k h (c.differences t src)), ?_, c.differences_followed hrlt⟩
  rw [← hstream, Run.decompress_stream hc ht hr hf hsize, Run.undo_eq_undoPasses hc hr,
    Run.payload, hsource, hr', dataBehind_append, undoPasses_append, hrestored, Result.ok_bind,
    hfront, Result.ok_bind]
  exact if_pos ((c.length_followed t _).trans hrl)

variable {env : Environment} {ctx ctx' : Context}

-- Compression in a chain that rounds to a grid can be undone, and each element behind the
-- exclusive-or stages then is one that the hints admit for the original.
theorem decompress_admits [Codecs.Lawful] (hctx : ctx.Valid) (hk : ctx.datatype.kind? = some k)
    (h : (compress env dims src).run.run ctx = (.ok stream, ctx')) (hchain : ctx'.chain? = some c)
    (hg : c.RoundsToGrid)
    (hclear : ∀ a ∈ c.typed?,
      Stage.Abstol.Clear (.onGrid k ctx.hints (c.differences ctx.datatype src)))
    (hm : src.length ≤ Size.maxArray) :
    ∃ out, decompress ctx.datatype dims stream = .ok out ∧
      List.Forall₂ (ctx.hints.Admits k) (c.differences ctx.datatype src)
        (c.differences ctx.datatype out) := by
  by_cases hne : src = []
  case pos =>
    subst hne
    have hnil : c.differences ctx.datatype [] = [] := by
      rw [← List.length_eq_zero_iff, Chain.length_differences, Element.length_split]
      exact Nat.zero_div _
    exact ⟨[], roundtrip_nil h, by rw [hnil]; exact .nil⟩
  case neg =>
    have ⟨hs, hchoose, d, hd, ht, hrun⟩ := (compress_eq_ok_iff hne).mp h
    obtain rfl := Option.some.inj (hchain.symm.trans hd)
    have hregistered := registered_of_choose hctx hchoose hchain
    have ⟨_, hhints, _⟩ := Chooser.choose_eq_ok hchoose
    rw [hhints] at hrun
    have ⟨out, hout, hdifferences⟩ := exists_decompress_eq_ok hregistered hk ht hg hclear hs hm hrun
    refine ⟨out, hout, ?_⟩
    rw [hdifferences]
    exact forall₂_restoredWords hk (c.differences_lt _ _)

end Stream

def Hints.hundredth : Hints :=
  { absoluteTolerance := .ofWord 0x3f847ae147ae147b }

def Bytes.oneAndHalf : Bytes :=
  [0, 0, 0, 0, 0, 0, 0xf0, 0x3f, 0, 0, 0, 0, 0, 0, 0xf8, 0x3f]

namespace Chain

def abstol : Chain where
  typed?  := some ⟨"abstol", 1, true, .typed Registry.abstol⟩
  isLossy := true

def xorDeltaAbstol : Chain where
  preconditionFirst := [⟨"xor_delta", 6, false, .preconditionFirst Registry.xorDelta⟩]
  typed?            := some ⟨"abstol", 1, true, .typed Registry.abstol⟩
  isLossy           := true

theorem abstol_registered [Codecs] : abstol.Registered :=
  ⟨by simp [stages, abstol, Registry.algorithms], rfl⟩

theorem xorDeltaAbstol_registered [Codecs] : xorDeltaAbstol.Registered :=
  ⟨by simp [stages, xorDeltaAbstol, Registry.algorithms], rfl⟩

end Chain

-- A context that compresses doubles within the tolerance.
def Context.rounding (c : Chain) : Context :=
  ⟨.double, .hundredth, false, some c⟩

theorem Context.rounding_valid [Codecs] {c : Chain} (hc : c.Registered) : (rounding c).Valid :=
  fun _ hd => Option.some.inj hd ▸ hc

namespace Stream

theorem run_compress_rounding [Codecs] {c : Chain} {stream : Bytes}
    (ht : c.checkApplicable .double = .ok ())
    (hrun : runChain c .double .hundredth .two .oneAndHalf = .ok stream) :
    (compress {} .two .oneAndHalf).run.run (.rounding c) = (.ok stream, .rounding c) :=
  (compress_eq_ok_iff (by decide)).mpr ⟨rfl, Chooser.choose_of_chain rfl, c, rfl, ht, hrun⟩

theorem decompress_admits_two :
    letI := Codecs.stored
    ∃ stream, (compress {} .two .oneAndHalf).run.run (.rounding .abstol) =
        (.ok stream, .rounding .abstol) ∧
      ∃ out, decompress .double .two stream = .ok out ∧
        List.Forall₂ (Hints.hundredth.Admits .double) (Chain.abstol.differences .double .oneAndHalf)
          (Chain.abstol.differences .double out) := by
  let codecs := Codecs.stored
  have := Codecs.stored_lawful
  have hrun : runChain .abstol .double .hundredth .two .oneAndHalf = .ok
      [1, 0, 0, 0, 0, 0, 0, 240, 63, 43, 135, 22, 217, 206, 247, 147, 63, 5, 255, 255, 255, 255,
        255, 255, 239, 127, 6, 128, 1] := by decide +kernel
  have hcompress := run_compress_rounding rfl hrun
  have hgrid : Chain.abstol.RoundsToGrid := ⟨_, List.mem_cons_self, .inl rfl⟩
  have hclear : Stage.Abstol.Clear (.onGrid .double .hundredth
      (Chain.abstol.differences .double .oneAndHalf)) := by
    intro bits hbits hle
    have hfive : Stage.Abstol.bitsFor (.onGrid .double .hundredth
      (Chain.abstol.differences .double .oneAndHalf)) = .ok 5 := by decide +kernel
    obtain rfl := Except.ok.inj (hfive.symm.trans hbits)
    exact absurd hle (by decide)
  have hadmits := decompress_admits (Context.rounding_valid Chain.abstol_registered) rfl hcompress
    rfl hgrid (fun _ _ => hclear) (by decide)
  exact ⟨_, hcompress, hadmits⟩

-- Behind an exclusive-or stage, the second number comes back as about 0.75.
theorem not_admits_of_xorDelta :
    ¬∀ (ctx ctx' : Context) (k : FloatKind) (c : Chain) (env : Environment) (dims : Dims)
      (src stream : Bytes), ctx.Valid → ctx.datatype.kind? = some k →
      (compress env dims src).run.run ctx = (.ok stream, ctx') → ctx'.chain? = some c →
      c.checkApplicable ctx.datatype = .ok () → c.RoundsToGrid →
      Double.zero < ctx.hints.absoluteTolerance → ctx.hints.absoluteTolerance < .largest →
      ∃ out, decompress ctx.datatype dims stream = .ok out ∧
        List.Forall₂ (ctx.hints.Admits k) (Element.split ctx.datatype src)
          (Element.split ctx.datatype out) := by
  intro hall
  have hrun : runChain .xorDeltaAbstol .double .hundredth .two .oneAndHalf = .ok
      [2, 0, 0, 0, 0, 0, 0, 8, 0, 43, 135, 22, 217, 206, 247, 147, 63, 6, 255, 255, 255, 255, 255,
        255, 239, 127, 204, 0, 0, 0, 0, 0, 6, 1] := by decide +kernel
  have hgrid : Chain.xorDeltaAbstol.RoundsToGrid :=
    ⟨_, List.mem_cons_of_mem _ List.mem_cons_self, .inl rfl⟩
  have ⟨out, hout, hadmits⟩ := hall _ _ .double .xorDeltaAbstol {} .two .oneAndHalf _
    (Context.rounding_valid Chain.xorDeltaAbstol_registered) rfl (run_compress_rounding rfl hrun)
    rfl rfl hgrid (by decide) (by decide)
  have hdecompress : decompress .double .two
      [2, 0, 0, 0, 0, 0, 0, 8, 0, 43, 135, 22, 217, 206, 247, 147, 63, 6, 255, 255, 255, 255, 255,
        255, 239, 127, 204, 0, 0, 0, 0, 0, 6, 1] =
      .ok [109, 231, 251, 169, 241, 210, 239, 63, 109, 231, 251, 169, 241, 210, 231, 63] := by
    decide +kernel
  obtain rfl := Except.ok.inj (hdecompress.symm.trans hout)
  exact absurd hadmits (by decide +kernel)

end Stream
end GridPress

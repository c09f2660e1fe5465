import GridPress.Proofs.Stage.Sigbits
import GridPress.Proofs.Stream.Tolerance

namespace GridPress

-- Whether no byte stage changes the data, as there is none or it copies.
def Chain.EndsPlain (c : Chain) : Prop :=
  ∀ a ∈ c.byte?, a.id = Registry.memcopyId

theorem Registry.plain_of_precondition {supports : Datatype → Bool}
    {precondition restore : Datatype → Dims → Bytes → Result Bytes} {t : Datatype} {h : Hints}
    {dims : Dims} {src out header : Bytes}
    (hf : (plainPreconditioner supports precondition restore).precondition t h dims src =
      .ok (out, header)) : precondition t dims src = .ok out ∧ header = [] := by
  obtain ⟨_, hout, heq⟩ := Result.bind_eq_ok_iff.mp hf
  obtain ⟨rfl, hheader⟩ := Prod.mk.inj (Except.ok.inj heq)
  exact ⟨hout, hheader.symm⟩

theorem Registry.method_of_memcopyId [Codecs] {a : Algorithm} (h : a ∈ algorithms)
    (hid : a.id = memcopyId) : a.method = .byte memcopy := by
  have hbyId := byId_id h
  rw [hid] at hbyId
  exact Except.ok.inj hbyId ▸ rfl

theorem Element.length_join_split_le (t : Datatype) (f : List Nat → List Nat) (bs : Bytes)
    (hf : ∀ ws, (f ws).length = ws.length) : (join t (f (split t bs))).length ≤ bs.length := by
  rw [length_join, hf, length_split]
  exact Nat.mul_div_le _ _

theorem Packing.length_of_pack {bits : Nat} {values : List Nat} {packed : Bytes}
    (h : pack bits values = .ok packed) : packed.length = (values.length * bits + 7) / 8 := by
  have ⟨_, _, hpacked⟩ := pack_eq_ok_iff.mp h
  rw [hpacked, length_join]

-- Codes no wider than the elements take no more room than these.
theorem Packing.length_le_of_pack {t : Datatype} {bits : Nat} {values : List Nat}
    {packed src : Bytes} (h : pack bits values = .ok packed) (hbits : bits ≤ t.width)
    (hl : values.length = (Element.split t src).length) : packed.length ≤ src.length := by
  have hwidth : values.length * bits ≤ 8 * src.length := by
    calc values.length * bits
      _ ≤ values.length * (8 * t.size) := Nat.mul_le_mul_left _ hbits
      _ = 8 * (t.size * (src.length / t.size)) := by
        rw [hl, Element.length_split]
        ring
      _ ≤ 8 * src.length := Nat.mul_le_mul_left _ (Nat.mul_div_le _ _)
  rw [length_of_pack h]
  omega

namespace Stage

variable {α : Type} {t : Datatype} {k : FloatKind} {h : Hints} {dims : Dims}
  {src out head : Bytes}

theorem exists_kind_of_ok {f : FloatKind → Result α} {e : Error} {x : α}
    (hf : (match t.kind? with | some k => f k | none => .error e) = .ok x) :
    ∃ k : FloatKind, t = k.datatype ∧ f k = .ok x := by
  cases hk : t.kind?
  case none =>
    rw [hk] at hf
    contradiction
  case some k =>
    rw [hk] at hf
    exact ⟨k, (FloatKind.datatype_of_kind? hk).symm, hf⟩

-- Those of the elements that are kept exactly.
theorem Placement.length_exactWords_le (k : FloatKind) (h : Hints) (src : Bytes) :
    (Element.join k.datatype
      (Placement.onGrid k h (Element.split k.datatype src)).exactWords).length ≤ src.length := by
  have hfilter : (Placement.onGrid k h (Element.split k.datatype src)).exactWords.length ≤
      (Element.split k.datatype src).length := List.length_filter_le _ _
  calc _
    _ ≤ k.datatype.size * (Element.split k.datatype src).length := by
      rw [Element.length_join]
      exact Nat.mul_le_mul_left _ hfilter
    _ ≤ src.length := by
      rw [Element.length_split]
      exact Nat.mul_div_le _ _

theorem Placement.eq_of_make {stage : String} {p : Placement}
    (hp : Placement.make stage k h dims src = .ok p) :
    p = .onGrid k h (Element.split k.datatype src) := by
  obtain ⟨-, ws, hws, rfl⟩ := Placement.make_eq_ok_iff.mp hp
  rw [(Element.decodeAs_eq_ok_iff.mp hws).right.left]

theorem Abstol.length_le (hf : compress t h dims src = .ok out) :
    out.length ≤ 2 * src.length + 25 := by
  obtain ⟨k, rfl, hk⟩ := exists_kind_of_ok hf
  obtain ⟨p, bits, packed, hp, -, hwidth, hpacked, rfl⟩ := compressAs_eq_ok_iff.mp hk
  obtain rfl := Placement.eq_of_make hp
  have hcodes : packed.length ≤ src.length :=
    Packing.length_le_of_pack hpacked (Nat.le_of_lt hwidth) (List.length_map _)
  have hexact := Placement.length_exactWords_le k h src
  have hheader : (header (.onGrid k h (Element.split k.datatype src)) bits).length = 25 := by
    simp [header]
  rw [List.length_append, List.length_append, hheader]
  omega

theorem Quantize.length_le (hf : convert t h dims src = .ok (out, head)) :
    out.length ≤ 2 * src.length ∧ head.length ≤ src.length + 24 := by
  obtain ⟨k, rfl, hk⟩ := exists_kind_of_ok hf
  obtain ⟨p, -, hp, -, rfl, rfl⟩ := convertAs_eq_ok_iff.mp hk
  obtain rfl := Placement.eq_of_make hp
  have hexact := Placement.length_exactWords_le k h src
  constructor
  case left =>
    have hindices : (indexWords (.onGrid k h (Element.split k.datatype src))).length =
        src.length / k.datatype.size := by
      rw [indexWords, List.length_map, Placement.words_onGrid, Element.length_split]
    rw [Element.length_join, hindices]
    cases k
    case single =>
      change 8 * (src.length / 4) ≤ _
      omega
    case double =>
      change 8 * (src.length / 8) ≤ _
      omega
  case right =>
    have hheader : (header (.onGrid k h (Element.split k.datatype src))).length =
        24 + (Element.join k.datatype
          (Placement.onGrid k h (Element.split k.datatype src)).exactWords).length := by
      simp [header]
      omega
    omega

theorem Sigbits.length_le (hf : compress t h dims src = .ok out) :
    out.length ≤ src.length + 21 := by
  obtain ⟨k, rfl, hk⟩ := exists_kind_of_ok hf
  obtain ⟨-, ws, fillCode?, packed, hws, hwidth, -, hpacked, rfl⟩ := exists_of_compressAs hk
  obtain ⟨-, rfl, -⟩ := Element.decodeAs_eq_ok_iff.mp hws
  have hcodes : packed.length ≤ src.length :=
    Packing.length_le_of_pack hpacked hwidth (List.length_map _)
  have hfill : ((fillCode?.map (Bytes.ofNat 8)).getD []).length ≤ 8 := by
    cases fillCode? <;> simp
  have hheader : (header (layoutOf k h (Element.split k.datatype src)) h.fillValue
      fillCode?).length = 13 + ((fillCode?.map (Bytes.ofNat 8)).getD []).length := by
    simp [header, layoutHeader]
    omega
  rw [List.length_append, hheader]
  omega

end Stage

namespace Stream

variable {c : Chain} {t : Datatype} {h : Hints} {dims : Dims} {src : Bytes} {a : Algorithm}
  {as : List Algorithm} {p : Pass} {ps : List Pass} {r : Run}

-- Such a stage keeps the size of the data, and its header is empty.
def TakesDifferences (a : Algorithm) : Prop :=
  a.method = .preconditionFirst Registry.xorDelta ∨
    a.method = .preconditionSecond Registry.delta

def LosesPrecision (a : Algorithm) : Prop :=
  a.method = .converter Registry.quantize ∨ a.method = .typed Registry.abstol ∨
    a.method = .typed Registry.sigbits

theorem length_mark (p : Pass) :
    p.mark.length = if p.stage.position < .datatype then p.header.length + 5 else 1 := by
  unfold Pass.mark
  split <;> simp

theorem length_of_differences (ha : TakesDifferences a) (hp : Pass.run h dims a t src = .ok p) :
    p.written.length ≤ src.length ∧ p.mark.length = 5 := by
  obtain ⟨rfl, -, -, hf⟩ := Pass.run_eq_ok_iff.mp hp
  have hposition : p.stage.position < .datatype := by
    unfold Algorithm.position
    rcases ha with ha | ha <;> rw [ha] <;> decide
  have ⟨hwritten, hheader⟩ : p.written.length ≤ src.length ∧ p.header = [] := by
    rcases ha with ha | ha <;> rw [Algorithm.forward, ha] at hf
    case inl =>
      obtain ⟨hout, hheader⟩ := Registry.plain_of_precondition hf
      obtain ⟨-, hout⟩ := Stage.XorDelta.transform_eq_ok_iff.mp hout
      rw [← hout]
      exact ⟨Element.length_join_split_le t _ src (Stage.XorDelta.length_changes 0), hheader⟩
    case inr =>
      obtain ⟨hout, hheader⟩ := Registry.plain_of_precondition hf
      obtain ⟨-, -, hout⟩ := Stage.Delta.transform_eq_ok_iff.mp hout
      rw [← hout]
      exact ⟨Element.length_join_split_le t _ src (Stage.Delta.length_differences _ 0), hheader⟩
  rw [length_mark, if_pos hposition, hheader]
  exact ⟨hwritten, rfl⟩

theorem length_of_precision (ha : LosesPrecision a) (hp : Pass.run h dims a t src = .ok p) :
    p.written.length + p.mark.length ≤ 3 * src.length + 29 := by
  obtain ⟨rfl, -, -, hf⟩ := Pass.run_eq_ok_iff.mp hp
  rw [length_mark]
  rcases ha with ha | ha | ha
  case inl =>
    rw [Algorithm.forward, ha] at hf
    have hposition : p.stage.position < .datatype := by
      rw [Algorithm.position, ha]
      decide
    obtain ⟨hwritten, hheader⟩ := Stage.Quantize.length_le hf
    rw [if_pos hposition]
    omega
  all_goals
    have hposition : ¬p.stage.position < .datatype := by
      rw [Algorithm.position, ha]
      decide
    obtain ⟨hout, -⟩ := (Algorithm.forward_typed_eq_ok_iff ha).mp hf
    rw [if_neg hposition]
  case inr.inl =>
    have := Stage.Abstol.length_le hout
    omega
  case inr.inr =>
    have := Stage.Sigbits.length_le hout
    omega

theorem length_passes_of_differences (has : ∀ a ∈ as, TakesDifferences a)
    (hps : passes h dims t src as = .ok ps) :
    (dataBehind src ps).length ≤ src.length ∧ (ps.flatMap Pass.mark).length = 5 * ps.length := by
  induction as generalizing t src ps
  case nil =>
    obtain rfl := passes_nil_eq_ok_iff.mp hps
    exact ⟨Nat.le_refl _, rfl⟩
  case cons a as ih =>
    obtain ⟨p, qs, hp, hqs, rfl⟩ := passes_cons_eq_ok_iff.mp hps
    have ⟨hwritten, hmark⟩ := length_of_differences (has a (by simp)) hp
    have ⟨hdata, hmarks⟩ := ih (fun b hb => has b (by simp [hb])) hqs
    refine ⟨Nat.le_trans hdata hwritten, ?_⟩
    rw [List.flatMap_cons, List.length_append, hmark, hmarks, List.length_cons]
    omega

section Chains

variable [Codecs]

theorem method_of_second (hc : c.Registered) :
    ∀ a ∈ c.preconditionSecond, a.method = .preconditionSecond Registry.delta := by
  intro a ha
  have hm := Registry.method_of_mem (hc.mem a (by simp [Chain.stages, ha]))
  simpa [hc.placed.second a ha] using hm

theorem method_of_typed (hc : c.Registered) (ha : c.typed? = some a) :
    a.method = .typed Registry.abstol ∨ a.method = .typed Registry.sigbits := by
  have hm := Registry.method_of_mem (hc.mem a (by simp [Chain.stages, ha]))
  simpa [hc.placed.typed a ha] using hm

-- At most one stage of a chain loses precision, and all others below the byte stage take
-- differences.
theorem exists_below_eq_append (hc : c.Registered) (ht : c.checkApplicable t = .ok ()) :
    ∃ as bs, ∃ a? : Option Algorithm, c.below = as ++ (a?.toList ++ bs) ∧
      (∀ a ∈ as, TakesDifferences a) ∧ (∀ b ∈ bs, TakesDifferences b) ∧
      ∀ a ∈ a?, LosesPrecision a := by
  have hfirst : ∀ a ∈ c.preconditionFirst, TakesDifferences a :=
    fun a ha => .inl (method_of_first hc a ha)
  have hsecond : ∀ a ∈ c.preconditionSecond, TakesDifferences a :=
    fun a ha => .inr (method_of_second hc a ha)
  cases hconverter : c.converter?
  case some q =>
    have hq := method_of_converter hc hconverter
    have hint : (c.convertedType t).isFloat = false := by
      rw [Chain.convertedType, hconverter]
      simp only [Algorithm.outputType, hq]
      rfl
    refine ⟨c.preconditionFirst, c.preconditionSecond, some q, ?_, hfirst, hsecond, ?_⟩
    · simp [Chain.below, Chain.leading, hconverter, typed?_eq_none hc ht hint]
    · exact fun a ha => Option.some.inj ha ▸ .inl hq
  case none =>
    refine ⟨c.preconditionFirst ++ c.preconditionSecond, [], c.typed?, ?_, ?_, by simp, ?_⟩
    · simp [Chain.below, Chain.leading, hconverter]
    · exact List.forall_mem_append.mpr ⟨hfirst, hsecond⟩
    · exact fun a ha => .inr (method_of_typed hc ha)

theorem length_framed_le (hc : c.Registered) (ht : c.checkApplicable t = .ok ())
    (hr : Run.ofChain c t h dims src = .ok r) :
    r.framed.length ≤ 3 * src.length + 5 * r.below.length + 24 := by
  obtain ⟨hsource, hps, _⟩ := Run.ofChain_eq_ok_iff.mp hr
  obtain ⟨as, bs, a?, heq, has, hbs, ha⟩ := exists_below_eq_append hc ht
  rw [heq] at hps
  obtain ⟨ps, qs, hps, hqs, hbelow⟩ := passes_append_eq_ok_iff.mp hps
  obtain ⟨hdata, hmarks⟩ := length_passes_of_differences has hps
  rw [Run.framed, Run.payload, hbelow, hsource, dataBehind_append]
  cases a?
  case none =>
    obtain ⟨hdata', hmarks'⟩ := length_passes_of_differences hbs hqs
    simp only [List.length_append, List.flatMap_append]
    omega
  case some a =>
    obtain ⟨p, rs, hp, hrs, rfl⟩ := passes_cons_eq_ok_iff.mp hqs
    have hprecision := length_of_precision (ha a rfl) hp
    obtain ⟨hdata', hmarks'⟩ := length_passes_of_differences hbs hrs
    simp only [List.length_append, List.flatMap_append, List.flatMap_cons, List.length_cons,
      dataBehind]
    omega

theorem length_stream_le (hc : c.Registered) (ht : c.checkApplicable t = .ok ())
    (hplain : c.EndsPlain) (hr : Run.ofChain c t h dims src = .ok r) :
    r.stream.length ≤ 3 * src.length + 5 * c.size + 25 := by
  have hframed := length_framed_le hc ht hr
  obtain ⟨_, _, hbyte⟩ := Run.ofChain_eq_ok_iff.mp hr
  rw [← Run.size_of_ofChain hr, Run.size, Run.stream, List.length_cons, Run.body]
  cases hb : c.byte?
  case none =>
    rw [(Run.byteStageOf_none_iff hb).mp hbyte]
    dsimp only [Option.toList_none, List.length_nil]
    omega
  case some a =>
    obtain ⟨p, hsome, hp⟩ := (Run.byteStageOf_some_iff hb).mp hbyte
    obtain ⟨rfl, -, -, hf⟩ := Pass.run_eq_ok_iff.mp hp
    have hmethod : p.stage.method = .byte Registry.memcopy :=
      Registry.method_of_memcopyId (hc.mem _ (by simp [Chain.stages, hb])) (hplain _ hb)
    rw [Algorithm.forward_byte hmethod] at hf
    have hwritten : r.framed = p.written := congrArg Prod.fst (Except.ok.inj hf)
    rw [hsome]
    simp only [← hwritten, List.length_append, List.length_singleton, Option.toList_some]
    omega

variable {env : Environment} {ctx ctx' : Context} {stream dest : Bytes}

theorem length_compress_le (hctx : ctx.Valid) (hne : src ≠ [])
    (h : (compress env dims src).run.run ctx = (.ok stream, ctx')) (hchain : ctx'.chain? = some c)
    (hplain : c.EndsPlain) : stream.length ≤ 3 * src.length + 5 * c.size + 25 := by
  have ⟨_, hchoose, d, hd, ht, hrun⟩ := (compress_eq_ok_iff hne).mp h
  obtain rfl : d = c := Option.some.inj (hd.symm.trans hchain)
  have hregistered := registered_of_choose hctx hchoose hchain
  have ⟨_, r, hr, _, hstream⟩ := (runChain_eq_ok_iff hregistered.placed).mp hrun
  exact hstream ▸ length_stream_le hregistered ht hplain hr

omit [Codecs] in
-- What memory can hold is not cut off.
theorem le_sizeBound {n : Nat} (hn : n ≤ dims.byteSize t * 4 + Dims.headerRoom)
    (hm : n ≤ Size.maxArray) : n ≤ dims.sizeBound t := by
  unfold Dims.sizeBound Size.clamp
  unfold Size.maxArray at hm
  unfold Size.max
  omega

omit [Codecs] in
theorem requiredSize_le (t : Datatype) (dims : Dims) : requiredSize t dims ≤ dims.sizeBound t := by
  unfold requiredSize
  split
  case isTrue => exact le_sizeBound (Nat.le_add_left_of_le (by decide)) (by decide)
  case isFalse => exact Nat.le_refl _

theorem length_le_sizeBound (hctx : ctx.Valid)
    (h : (compress env dims src).run.run ctx = (.ok stream, ctx'))
    (hchain : ∀ c ∈ ctx'.chain?, c.EndsPlain ∧ c.size ≤ 200)
    (hm : stream.length ≤ Size.maxArray) : stream.length ≤ dims.sizeBound ctx.datatype := by
  refine le_sizeBound ?_ hm
  unfold Dims.headerRoom
  by_cases hne : src = []
  case pos =>
    subst hne
    obtain ⟨-, rfl, -⟩ := compress_nil_eq_ok_iff.mp h
    exact Nat.le_add_left_of_le (by decide)
  case neg =>
    have ⟨hs, _, c, hc, _⟩ := (compress_eq_ok_iff hne).mp h
    have ⟨hplain, hsize⟩ := hchain c hc
    have hpos : 0 < src.length := List.length_pos_iff.mpr hne
    have hlength := length_compress_le hctx hne h hc hplain
    omega

-- If compression succeeds, it also does so into a destination of the size that is asked for.
theorem compressInto_sizeBound (hctx : ctx.Valid)
    (h : (compress env dims src).run.run ctx = (.ok stream, ctx'))
    (hchain : ∀ c ∈ ctx'.chain?, c.EndsPlain ∧ c.size ≤ 200) (hm : stream.length ≤ Size.maxArray)
    (hdest : dims.sizeBound ctx.datatype ≤ dest.length) :
    stream.length ≤ dims.sizeBound ctx.datatype ∧
      (compressInto env dims src dest).run.run ctx =
        (.ok (stream.length, stream ++ dest.drop stream.length), ctx') := by
  have hlength := length_le_sizeBound hctx h hchain hm
  refine ⟨hlength, compressInto_eq_ok_iff.mpr ?_⟩
  have hrequired := Nat.le_trans (requiredSize_le ctx.datatype dims) hdest
  exact ⟨hrequired, stream, h, Nat.le_trans hlength hdest, rfl⟩

end Chains
end Stream

namespace Chain

def xorDeltasQuantize (n : Nat) : Chain where
  preconditionFirst :=
    List.replicate n ⟨"xor_delta", 6, false, .preconditionFirst Registry.xorDelta⟩
  converter? := some ⟨"quantize", 7, true, .converter Registry.quantize⟩
  isLossy := true

theorem addAll_replicate {a : Algorithm} (ha : a.position = .preconditionFirst)
    (hl : a.isLossy = false) (c : Chain) (n : Nat) (as : List Algorithm) :
    c.addAll .preconditionFirst (List.replicate n a ++ as) =
      addAll { c with preconditionFirst := c.preconditionFirst ++ List.replicate n a }
        .preconditionFirst as := by
  induction n generalizing c
  case zero => simp
  case succ n ih =>
    have hlt : ¬Position.preconditionFirst < Position.preconditionFirst := by decide
    rw [List.replicate_succ, List.cons_append, addAll, ha, if_neg hlt]
    simp only [add, place, ha, hl, Bool.or_false, Result.ok_bind, Result.pure_eq]
    rw [ih]
    simp

theorem size_xorDeltasQuantize (n : Nat) : (xorDeltasQuantize n).size = n + 1 := by
  simp [xorDeltasQuantize, size]

theorem stages_xorDeltasQuantize (n : Nat) :
    (xorDeltasQuantize n).stages =
      List.replicate n ⟨"xor_delta", 6, false, .preconditionFirst Registry.xorDelta⟩ ++
        [⟨"quantize", 7, true, .converter Registry.quantize⟩] := by
  simp [xorDeltasQuantize, stages]

theorem xorDeltasQuantize_registered [Codecs] (n : Nat) : (xorDeltasQuantize n).Registered where
  mem a ha := by
    rw [stages_xorDeltasQuantize, List.mem_append, List.mem_replicate, List.mem_singleton] at ha
    rcases ha with ⟨_, rfl⟩ | rfl <;> simp [Registry.algorithms]
  ordered := by
    rw [stages_xorDeltasQuantize, ofAlgorithms_eq_ok_iff, addAll_replicate rfl rfl,
      size_xorDeltasQuantize]
    exact ⟨rfl, n.succ_ne_zero⟩

theorem checkApplicable_xorDeltasQuantize (n : Nat) :
    (xorDeltasQuantize n).checkApplicable .float = .ok () := by
  rw [checkApplicable_eq_ok_iff]
  refine ⟨fun a ha => ?_, ?_, nofun, nofun⟩
  · obtain ⟨_, rfl⟩ := List.mem_replicate.mp ha
    rfl
  · exact fun a ha => Option.some.inj ha ▸ rfl

end Chain

namespace Stream

def notANumber : Bytes :=
  [0, 0, 192, 127]

def longContext (n : Nat) : Context :=
  ⟨.float, .hundredth, false, some (.xorDeltasQuantize n)⟩

theorem longContext_valid [Codecs] (n : Nat) : (longContext n).Valid :=
  fun _ hc => Option.some.inj hc ▸ Chain.xorDeltasQuantize_registered n

theorem exists_compress_longContext [Codecs] {n : Nat} {l : Nat}
    (hrun : (runChain (.xorDeltasQuantize n) .float .hundredth .one notANumber).map List.length =
      .ok l) :
    ∃ stream, (compress {} .one notANumber).run.run (longContext n) = (.ok stream, longContext n) ∧
      stream.length = l := by
  obtain ⟨stream, hrun, hl⟩ := Result.map_eq_ok_iff.mp hrun
  exact ⟨stream, (compress_eq_ok_iff (by decide)).mpr ⟨rfl, Chooser.choose_of_chain rfl, _, rfl,
    Chain.checkApplicable_xorDeltasQuantize n, hrun⟩, hl⟩

-- With 200 stages the stream takes 1037 of 1040 bytes.
theorem compressInto_sizeBound_longest :
    let dest := List.replicate 1040 0
    ∃ stream, (compress {} .one notANumber).run.run (longContext 199) =
        (.ok stream, longContext 199) ∧ stream.length = 1037 ∧
      stream.length ≤ Dims.one.sizeBound .float ∧
      (compressInto {} .one notANumber dest).run.run (longContext 199) =
        (.ok (stream.length, stream ++ dest.drop stream.length), longContext 199) := by
  intro dest
  have hrun : (runChain (.xorDeltasQuantize 199) .float .hundredth .one notANumber).map
      List.length = .ok 1037 := by decide +kernel
  have ⟨stream, hcompress, hlength⟩ := exists_compress_longContext hrun
  have hchain : ∀ c ∈ (longContext 199).chain?, c.EndsPlain ∧ c.size ≤ 200 :=
    fun c hc => Option.some.inj hc ▸ ⟨nofun, Nat.le_of_eq (Chain.size_xorDeltasQuantize 199)⟩
  have hdest : Dims.one.sizeBound .float ≤ dest.length := by
    rw [List.length_replicate]
    decide
  have hmemory : stream.length ≤ Size.maxArray := hlength ▸ (by decide : 1037 ≤ Size.maxArray)
  have hfits := compressInto_sizeBound (longContext_valid 199) hcompress hchain hmemory hdest
  exact ⟨stream, hcompress, hlength, hfits⟩

-- One stage more, and it takes 1042 bytes.
theorem not_length_le_sizeBound :
    ¬∀ (ctx ctx' : Context) (c : Chain) (env : Environment) (dims : Dims) (src stream : Bytes),
      ctx.Valid → (compress env dims src).run.run ctx = (.ok stream, ctx') →
      ctx'.chain? = some c → c.size ≤ 255 → c.EndsPlain →
      stream.length ≤ dims.sizeBound ctx.datatype := by
  intro hall
  have hrun : (runChain (.xorDeltasQuantize 200) .float .hundredth .one notANumber).map
      List.length = .ok 1042 := by decide +kernel
  have ⟨stream, hcompress, hlength⟩ := exists_compress_longContext hrun
  have hsize : (Chain.xorDeltasQuantize 200).size ≤ 255 := by
    rw [Chain.size_xorDeltasQuantize]
    decide
  have hle := hall _ _ _ _ _ _ _ (longContext_valid 200) hcompress rfl hsize nofun
  rw [hlength] at hle
  exact absurd hle (by decide)

end Stream
end GridPress

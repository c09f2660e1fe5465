import GridPress.Proofs.Codec.Zstd
import GridPress.Proofs.Context
import GridPress.Proofs.Stream.Destination
import GridPress.Proofs.Stream.Reading
import GridPress.Stream.Describe

namespace GridPress

namespace Stream

variable {c : Chain} {t : Datatype} {h : Hints} {dims : Dims} {src : Bytes} {r : Run}

namespace Run

-- The passes before the datatype stage, and the pass of the datatype stage if there is one.
theorem exists_below_eq (hc : c.Placed) (hr : ofChain c t h dims src = .ok r) :
    ∃ ps, ∃ typed? : Option Pass, r.below = ps ++ typed?.toList ∧
      passes h dims t src c.leading = .ok ps ∧
      (∀ p ∈ ps, p.stage.position < .datatype) ∧
      ∀ p ∈ typed?, p.stage.position = .datatype ∧ p.type = typeBehind t c.leading ∧
        p.header = [] := by
  have ⟨_, hbelow, _⟩ := ofChain_eq_ok_iff.mp hr
  obtain ⟨ps, qs, hps, hqs, hr⟩ := passes_append_eq_ok_iff.mp hbelow
  have hlt : ∀ p ∈ ps, p.stage.position < .datatype :=
    fun _ hp => hc.leading_lt _ (stage_mem_of_passes hps hp)
  cases ht : c.typed?
  case none =>
    rw [ht, Option.toList_none] at hqs
    obtain rfl := passes_nil_eq_ok_iff.mp hqs
    exact ⟨ps, none, hr, hps, hlt, by simp⟩
  case some a =>
    rw [ht, Option.toList_some, passes_singleton_eq_ok_iff] at hqs
    obtain ⟨p, hp, rfl⟩ := hqs
    obtain ⟨rfl, htype, -, hf⟩ := Pass.run_eq_ok_iff.mp hp
    have hpos : p.stage.position = .datatype := hc.typed _ ht
    refine ⟨ps, some p, hr, hps, hlt, ?_⟩
    intro q hq
    obtain rfl : p = q := Option.some.inj hq
    exact ⟨hpos, htype, header_of_typed hpos hf⟩

theorem size_sub_byte (r : Run) :
    r.size - (r.byte?.map Pass.stage).toList.length = r.below.length := by
  cases hb : r.byte? <;> simp [size, hb]

theorem splitCount_stream (h₀ : 0 < r.size) (h₁ : r.size ≤ 255) :
    splitCount r.stream = .ok (r.size, r.body) ∧ r.size ≠ 0 := by
  have hn : (UInt8.ofNat r.size).toNat = r.size := by
    rw [UInt8.toNat_ofNat']
    omega
  exact ⟨by rw [stream, splitCount, hn], by omega⟩

variable [Codecs]

theorem readable_of_fits (hc : c.Registered) (hr : ofChain c t h dims src = .ok r)
    (hf : r.Fits) : Readable r.below := by
  have ⟨_, hps, _⟩ := ofChain_eq_ok_iff.mp hr
  refine ⟨fun p hp => hc.mem _ ?_, hf⟩
  exact c.stages_eq ▸ List.mem_append_left _ (stage_mem_of_passes hps hp)

theorem exists_read_eq_ok (hc : c.Registered) (hr : ofChain c t h dims src = .ok r)
    (hf : r.Fits) (hne : r.below ≠ []) :
    ∃ l, Layout.read r.below.length r.framed = .ok l ∧ l.stages = c.below ∧
      restore t dims l = undoPasses dims r.below r.payload := by
  have hread := readable_of_fits hc hr hf
  have ⟨_, hstages, _⟩ := ofChain_eq_ok_iff.mp hr
  have ⟨ps, typed?, hbelow, hps, hlt, htyped⟩ := exists_below_eq hc.placed hr
  refine ⟨⟨ps.map Pass.entry, typed?.map Pass.stage, r.payload⟩, ?_, ?_, ?_⟩
  · rw [framed, hbelow]
    exact Layout.read_framed (hbelow ▸ hread) hlt (fun p hp => (htyped p hp).left) (hbelow ▸ hne) _
  · rw [← stages_of_passes hstages, hbelow]
    cases typed? <;> simp [Layout.stages, Pass.entry, Function.comp_def]
  · rw [hbelow]
    exact restore_eq_undoPasses hps (fun p hp => (htyped p hp).right.left)
      (fun p hp => (htyped p hp).right.right) _

-- The pass of the byte stage is the chain's, and its inverse gives what it was given.
theorem byte_of_ofChain [Codecs.Lawful] (hc : c.Registered)
    (hr : ofChain c t h dims src = .ok r) :
    c.byte? = r.byte?.map Pass.stage ∧
      ∀ p ∈ r.byte?, p.stage ∈ Registry.algorithms ∧ p.stage.position = .byte ∧
        p.undo dims p.written = .ok r.framed := by
  have ⟨_, _, hbyte⟩ := ofChain_eq_ok_iff.mp hr
  cases hb : c.byte?
  case none => simp [(byteStageOf_none_iff hb).mp hbyte]
  case some a =>
    have ⟨p, hsome, hp⟩ := (byteStageOf_some_iff hb).mp hbyte
    obtain ⟨rfl, -, -, hf⟩ := Pass.run_eq_ok_iff.mp hp
    have hpos : p.stage.position = .byte := hc.placed.byte _ hb
    have hmem : p.stage ∈ Registry.algorithms := hc.mem _ (by simp [Chain.stages_eq, hb])
    have ⟨b, hm⟩ := Algorithm.method_of_byte hpos
    have ⟨out, hout, hback⟩ := Registry.byte_lawful hmem hm r.framed
    rw [Algorithm.forward_byte hm, hout] at hf
    have hwritten : out = p.written := congrArg Prod.fst (Except.ok.inj hf)
    refine ⟨by rw [hsome]; rfl, fun q hq => ?_⟩
    obtain rfl : p = q := Option.some.inj (hsome.symm.trans hq)
    refine ⟨hmem, hpos, ?_⟩
    rw [Pass.undo, Algorithm.backward_byte hm, ← hwritten, hback]

-- Undoing the byte stage of the body leaves the framed data.
theorem undoByteStage_body [Codecs.Lawful] (hc : c.Registered)
    (hr : ofChain c t h dims src = .ok r) (hf : r.Fits) :
    undoByteStage r.body = .ok (r.byte?.map Pass.stage, r.framed) := by
  obtain ⟨_, hbyte⟩ := byte_of_ofChain hc hr
  cases hb : r.byte?
  case some p =>
    obtain ⟨hmem, hpos, hback⟩ := hbyte p hb
    obtain ⟨b, hm⟩ := Algorithm.method_of_byte hpos
    rw [Pass.undo, Algorithm.backward_byte hm] at hback
    simp [body, hb, undoByteStage_concat hmem hm, hback]
  case none =>
    obtain ⟨_, hps, _⟩ := ofChain_eq_ok_iff.mp hr
    have hne : r.below ≠ [] := by
      intro hnil
      have hsize := hc.size_pos
      rw [← size_of_ofChain hr, size, hnil, hb] at hsize
      contradiction
    have hpos : ∀ p ∈ r.below, p.stage.position ≠ .byte :=
      fun _ hp => hc.placed.below_ne_byte _ (stage_mem_of_passes hps hp)
    rw [body, hb]
    exact undoByteStage_marks (readable_of_fits hc hr hf) hpos hne _

theorem undo_eq_undoPasses [Codecs.Lawful] (hc : c.Registered)
    (hr : ofChain c t h dims src = .ok r) :
    r.undo dims = undoPasses dims r.below r.payload := by
  have ⟨_, hback⟩ := byte_of_ofChain hc hr
  unfold undo
  cases hb : r.byte?
  case none => rfl
  case some p =>
    have ⟨_, _, hp⟩ := hback p hb
    simp [hp, framed]

theorem restoreBody_body [Codecs.Lawful] (hc : c.Registered) (ht : c.checkApplicable t = .ok ())
    (hr : ofChain c t h dims src = .ok r) (hf : r.Fits) :
    restoreBody t dims r.size r.body = r.undo dims := by
  obtain ⟨hbyte, _⟩ := byte_of_ofChain hc hr
  simp only [restoreBody, undoByteStage_body hc hr hf, Result.ok_bind, size_sub_byte,
    undo_eq_undoPasses hc hr]
  by_cases hne : r.below = []
  case pos => simp [hne, framed, payload, dataBehind, undoPasses]
  case neg =>
    obtain ⟨l, hl, hstages, hrestore⟩ := exists_read_eq_ok hc hr hf hne
    have hlen : r.below.length ≠ 0 := by simpa using hne
    have hchain : Chain.ofAlgorithms (l.stages ++ (r.byte?.map Pass.stage).toList) = .ok c := by
      rw [hstages, ← hbyte, ← c.stages_eq]
      exact hc.ordered
    rw [if_neg hlen, hl, Result.ok_bind, hchain, Result.ok_bind, ht, Result.ok_bind, hrestore]

theorem describe_stream [Codecs.Lawful] (hc : c.Registered)
    (hr : ofChain c t h dims src = .ok r) (hf : r.Fits) (hsize : c.size ≤ 255) :
    describe r.stream = .ok ⟨c.size, some c, r.stream.length⟩ := by
  have hrsize := size_of_ofChain hr
  have ⟨hsplit, hne⟩ := splitCount_stream (hrsize ▸ hc.size_pos) (hrsize ▸ hsize)
  have ⟨hbyte, _⟩ := byte_of_ofChain hc hr
  have ⟨_, hps, _⟩ := ofChain_eq_ok_iff.mp hr
  have hchain : Chain.ofAlgorithms (c.below ++ (r.byte?.map Pass.stage).toList) = .ok c := by
    rw [← hbyte, ← c.stages_eq]
    exact hc.ordered
  simp only [describe, hsplit, Result.ok_bind, if_neg hne, undoByteStage_body hc hr hf,
    size_sub_byte]
  by_cases hnil : r.below = []
  case pos =>
    rw [← stages_of_passes hps, hnil] at hchain
    have hlen : r.below.length = 0 := by simp [hnil]
    rw [if_pos hlen, Result.pure_eq, Result.ok_bind, hrsize]
    exact Result.bind_eq_ok_iff.mpr ⟨c, hchain, rfl⟩
  case neg =>
    have ⟨l, hl, hstages, _⟩ := exists_read_eq_ok hc hr hf hnil
    have hlen : r.below.length ≠ 0 := by simpa using hnil
    simp [hlen, hl, hstages, hchain, ← hrsize]

theorem decompress_stream [Codecs.Lawful] (hc : c.Registered)
    (ht : c.checkApplicable t = .ok ()) (hr : ofChain c t h dims src = .ok r) (hf : r.Fits)
    (hsize : c.size ≤ 255) :
    decompress t dims r.stream = r.undo dims >>= checkSize t dims := by
  have hrsize := size_of_ofChain hr
  have ⟨hsplit, hne⟩ := splitCount_stream (hrsize ▸ hc.size_pos) (hrsize ▸ hsize)
  simp only [decompress, hsplit, Result.ok_bind, if_neg hne, restoreBody_body hc ht hr hf]

end Run

theorem checkSource_eq_ok_iff :
    checkSource t dims src = .ok () ↔ src.length = dims.byteSize t := by
  unfold checkSource
  split <;> simp_all

section Compression

variable [Codecs] {env : Environment} {ctx ctx' : Context} {stream : Bytes}

-- An array without elements is compressed without any stage.
theorem compress_nil_eq_ok_iff :
    (compress env dims []).run.run ctx = (.ok stream, ctx') ↔
      dims.byteSize ctx.datatype = 0 ∧ stream = [0] ∧ ctx' = ctx := by
  rw [compress, ContextM.run_bind_get, ContextM.run_bind_liftExcept_unit_eq_ok_iff]
  simp only [checkSource_eq_ok_iff, List.isEmpty_nil, if_true, ContextM.run_pure_eq_ok_iff,
    List.length_nil]
  rw [eq_comm (a := 0), eq_comm (a := [0])]

theorem compress_eq_ok_iff (hne : src ≠ []) :
    (compress env dims src).run.run ctx = (.ok stream, ctx') ↔
      src.length = dims.byteSize ctx.datatype ∧
      (Chooser.choose env dims src).run.run ctx = (.ok (), ctx') ∧
      ∃ chain, ctx'.chain? = some chain ∧ chain.checkApplicable ctx.datatype = .ok () ∧
        runChain chain ctx.datatype ctx'.hints dims src = .ok stream := by
  have hempty : src.isEmpty = false := by simpa using hne
  rw [compress, ContextM.run_bind_get, ContextM.run_bind_liftExcept_unit_eq_ok_iff]
  simp only [checkSource_eq_ok_iff, hempty, Bool.false_eq_true, if_false,
    ContextM.run_bind_eq_ok_iff (x := Chooser.choose env dims src), ContextM.run_bind_get]
  refine and_congr_right fun _ => ?_
  constructor
  case mp =>
    rintro ⟨_, c, hchoose, h⟩
    cases hc : c.chain?
    case none => simp only [hc, ContextM.run_throw_ne_ok] at h
    case some chain =>
      simp only [hc, ContextM.run_bind_liftExcept_unit_eq_ok_iff,
        ContextM.run_liftExcept_eq_ok_iff] at h
      obtain ⟨ht, hrun, rfl⟩ := h
      exact ⟨hchoose, chain, hc, ht, hrun⟩
  case mpr =>
    rintro ⟨hchoose, chain, hc, ht, hrun⟩
    refine ⟨(), ctx', hchoose, ?_⟩
    simp only [hc, ContextM.run_bind_liftExcept_unit_eq_ok_iff,
      ContextM.run_liftExcept_eq_ok_iff]
    exact ⟨ht, hrun, trivial⟩

-- The chain behind compression is built from registered algorithms if all chains of the context
-- are.
theorem registered_of_choose {chain : Chain} (hctx : ctx.Valid)
    (hchoose : (Chooser.choose env dims src).run.run ctx = (.ok (), ctx'))
    (hchain : ctx'.chain? = some chain) : chain.Registered := by
  have hvalid := @Chooser.valid_of_choose _ env dims src ctx hctx
  rw [hchoose] at hvalid
  exact hvalid chain hchain

-- Whether or not compression fails, it leaves a valid context.
theorem valid_of_compress (hctx : ctx.Valid) :
    ((compress env dims src).run.run ctx).2.Valid := by
  rw [compress, ContextM.run_bind_get, ContextM.run_bind_liftExcept]
  cases checkSource ctx.datatype dims src
  case error => exact hctx
  case ok =>
    by_cases hempty : src.isEmpty = true
    case pos =>
      simp only [if_pos hempty]
      exact hctx
    case neg =>
      have hvalid := @Chooser.valid_of_choose _ env dims src ctx hctx
      simp only [if_neg hempty]
      rw [ContextM.run_bind]
      cases hchoose : (Chooser.choose env dims src).run.run ctx
      case mk result c =>
        rw [hchoose] at hvalid
        cases result
        case error => exact hvalid
        case ok =>
          simp only [ContextM.run_bind_get]
          cases c.chain?
          case none => exact hvalid
          case some chain =>
            rw [ContextM.run_bind_liftExcept]
            cases chain.checkApplicable ctx.datatype
            case error => exact hvalid
            case ok => simpa using hvalid

-- Into a destination, the stream is written that compression returns, if there is room for it.
theorem run_compressInto (dest : Bytes) :
    (compressInto env dims src dest).run.run ctx =
      if dest.length < requiredSize ctx.datatype dims then
        (.error (.memory (requiredSize ctx.datatype dims) dest.length), ctx)
      else match (compress env dims src).run.run ctx with
        | (.ok stream, c) =>
          if dest.length < stream.length then
            (.error (.memory stream.length dest.length), c)
          else
            (.ok (stream.length, stream ++ dest.drop stream.length), c)
        | (.error e, c) => (.error e, c) := by
  have hrun : (compressInto env dims src dest).run.run ctx =
      let r := (fill env dims src).run.run (ctx, dest)
      (r.1.map (·, r.2.2), r.2.1) := rfl
  rw [hrun, run_fill]
  by_cases hdest : dest.length < requiredSize ctx.datatype dims
  case pos => simp only [if_pos hdest, Except.map]
  case neg =>
    simp only [if_neg hdest]
    cases (compress env dims src).run.run ctx
    case mk result c =>
      cases result
      case error => rfl
      case ok stream =>
        by_cases hstream : dest.length < stream.length <;> simp [hstream, Except.map]

theorem compressInto_eq_ok_iff {dest : Bytes} {written : Nat × Bytes} :
    (compressInto env dims src dest).run.run ctx = (.ok written, ctx') ↔
      requiredSize ctx.datatype dims ≤ dest.length ∧
      ∃ stream, (compress env dims src).run.run ctx = (.ok stream, ctx') ∧
        stream.length ≤ dest.length ∧
        written = (stream.length, stream ++ dest.drop stream.length) := by
  rw [run_compressInto]
  constructor
  case mp =>
    intro h
    split at h
    case isTrue => cases h
    case isFalse hdest =>
      split at h
      case h_2 => cases h
      case h_1 stream c hrun =>
        split at h
        case isTrue => cases h
        case isFalse hstream =>
          cases h
          exact ⟨Nat.not_lt.mp hdest, stream, hrun, Nat.not_lt.mp hstream, rfl⟩
  case mpr =>
    intro ⟨hdest, stream, hrun, hstream, hwritten⟩
    simp only [if_neg (Nat.not_lt.mpr hdest), hrun, if_neg (Nat.not_lt.mpr hstream), hwritten]

-- Compression records a run of the chain, whose stream it returns. The stream tells the chain, and
-- decompressing it undoes the run.
theorem framing [Codecs.Lawful] {chain : Chain} (hctx : ctx.Valid) (hne : src ≠ [])
    (h : (compress env dims src).run.run ctx = (.ok stream, ctx'))
    (hchain : ctx'.chain? = some chain) :
    describe stream = .ok ⟨chain.size, some chain, stream.length⟩ ∧
    ∃ r, Run.ofChain chain ctx.datatype ctx.hints dims src = .ok r ∧ r.stream = stream ∧
      (∀ p ∈ r.byte?, p.undo dims p.written = .ok r.framed) ∧
      decompress ctx.datatype dims stream = r.undo dims >>= checkSize ctx.datatype dims := by
  have ⟨_, hchoose, d, hd, ht, hrun⟩ := (compress_eq_ok_iff hne).mp h
  obtain rfl : d = chain := Option.some.inj (hd.symm.trans hchain)
  have hregistered := registered_of_choose hctx hchoose hchain
  have ⟨_, hhints, _⟩ := Chooser.choose_eq_ok hchoose
  have ⟨hsize, r, hr, hf, hstream⟩ := (runChain_eq_ok_iff hregistered.placed).mp hrun
  have ⟨_, hbyte⟩ := Run.byte_of_ofChain hregistered hr
  rw [hhints] at hr
  refine ⟨hstream ▸ Run.describe_stream hregistered hr hf hsize, r, hr, hstream, ?_, ?_⟩
  · exact fun p hp => (hbyte p hp).right.right
  · exact hstream ▸ Run.decompress_stream hregistered ht hr hf hsize

-- Compresses an array in a context that is made for the hints, and decompresses the stream: whether
-- lossless compression is required behind that, and the array that comes back.
def roundtrip (t : Datatype) (h : Hints) (env : Environment) (dims : Dims) (src : Bytes) :
    Result (Bool × Bytes) := do
  let c ← Context.make t h
  let (result, c') := (compress env dims src).run.run c
  return (c'.lossless, ← decompress t dims (← result))

theorem exists_of_roundtrip {lossless : Bool} {out : Bytes}
    (hr : roundtrip t h env dims src = .ok (lossless, out)) :
    ∃ c c' stream, Context.make t h = .ok c ∧
      (compress env dims src).run.run c = (.ok stream, c') ∧ c'.lossless = lossless ∧
      decompress t dims stream = .ok out := by
  have ⟨c, hc, hr⟩ := Result.bind_eq_ok_iff.mp hr
  have ⟨stream, hstream, hr⟩ := Result.bind_eq_ok_iff.mp hr
  have ⟨out', hout, heq⟩ := Result.bind_eq_ok_iff.mp hr
  obtain ⟨rfl, rfl⟩ := Prod.mk.inj (Except.ok.inj heq)
  exact ⟨c, _, stream, hc, Prod.ext hstream rfl, rfl, hout⟩

end Compression
end Stream

def Dims.one : Dims :=
  ⟨[1], by decide, by decide⟩

def Dims.two : Dims :=
  ⟨[2], by decide, by decide⟩

def Context.stored (h : Hints) (lossless : Bool) : Context :=
  ⟨.int8, h, lossless, some (@Chain.xorDeltaZstd Codecs.stored)⟩

theorem Context.stored_valid (h : Hints) (lossless : Bool) :
    @Valid Codecs.stored (stored h lossless) :=
  fun _ hc => Option.some.inj hc ▸ @Chain.xorDeltaZstd_registered Codecs.stored

namespace Stream

theorem framing_two :
    letI := Codecs.stored
    let ctx := Context.stored {} false
    ∃ stream, (compress {} .two [1, 2]).run.run ctx = (.ok stream, ctx) ∧
      describe stream = .ok ⟨2, some Chain.xorDeltaZstd, stream.length⟩ ∧
      ∃ r, Run.ofChain Chain.xorDeltaZstd .int8 {} .two [1, 2] = .ok r ∧ r.stream = stream ∧
        (∀ p ∈ r.byte?, p.undo .two p.written = .ok r.framed) ∧
        decompress .int8 .two stream = r.undo .two >>= checkSize .int8 .two := by
  let codecs := Codecs.stored
  have := Codecs.stored_lawful
  have hcompress : (compress {} .two [1, 2]).run.run (Context.stored {} false) =
      (.ok [2, 40, 181, 47, 253, 0, 56, 57, 0, 0, 1, 3, 0, 0, 0, 0, 6, 5], .stored {} false) := rfl
  exact ⟨_, hcompress, framing (Context.stored_valid _ _) (by decide) hcompress rfl⟩

end Stream
end GridPress

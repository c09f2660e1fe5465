import GridPress.Proofs.Chain
import GridPress.Proofs.Trailer
import GridPress.Stream.Compress

namespace GridPress.Stream

-- One stage at work.
structure Pass where
  stage   : Algorithm
  type    : Datatype
  given   : Bytes
  header  : Bytes
  written : Bytes

namespace Pass

def run (h : Hints) (dims : Dims) (a : Algorithm) (t : Datatype) (src : Bytes) : Result Pass := do
  let (out, header) ← a.forward t h dims src
  return ⟨a, t, src, header, out⟩

-- Undoes the stage, with the type it was given and the header it gave.
def undo (dims : Dims) (p : Pass) (src : Bytes) : Result Bytes :=
  p.stage.backward p.type p.header dims src

-- What the stage leaves behind the data.
def mark (p : Pass) : Bytes :=
  if p.stage.position < .datatype then
    p.header ++ Bytes.ofNat 4 p.header.length ++ [p.stage.id]
  else
    [p.stage.id]

end Pass

-- Runs stages, each on what the one before wrote.
def passes (h : Hints) (dims : Dims) : Datatype → Bytes → List Algorithm → Result (List Pass)
  | _, _, [] => .ok []
  | t, src, a :: as => do
    let p ← Pass.run h dims a t src
    return p :: (← passes h dims (a.outputType t) p.written as)

-- Undoes stages, the last one first.
def undoPasses (dims : Dims) : List Pass → Bytes → Result Bytes
  | [], out => .ok out
  | p :: ps, out => do p.undo dims (← undoPasses dims ps out)

-- The data behind stages that were given `src`.
def dataBehind : Bytes → List Pass → Bytes
  | src, [] => src
  | _, p :: ps => dataBehind p.written ps

-- The type of the elements behind stages that were given elements of type `t`.
def typeBehind : Datatype → List Algorithm → Datatype
  | t, [] => t
  | t, a :: as => typeBehind (a.outputType t) as

-- A way of the array `source` through a chain. The byte stage is not among the stages `below` it.
structure Run where
  source : Bytes
  below  : List Pass
  byte?  : Option Pass

namespace Run

variable (r : Run)

def size : Nat :=
  r.below.length + r.byte?.toList.length

-- The data in front of the marks.
def payload : Bytes :=
  dataBehind r.source r.below

-- The data with the marks, which is what a byte stage is given.
def framed : Bytes :=
  r.payload ++ r.below.flatMap Pass.mark

-- What follows the number of stages.
def body : Bytes :=
  match r.byte? with
  | some p => p.written ++ [p.stage.id]
  | none => r.framed

def stream : Bytes :=
  UInt8.ofNat r.size :: r.body

def ofChain (c : Chain) (t : Datatype) (h : Hints) (dims : Dims) (src : Bytes) : Result Run := do
  let r : Run := ⟨src, ← passes h dims t src c.below, none⟩
  match c.byte? with
  | some a =>
    return { r with byte? := some (← Pass.run h dims a (typeBehind t c.below) r.framed) }
  | none => return r

-- Undoes all stages. The first to be undone gets what it wrote, and each other one what the one
-- undone before it gave, from which the marks are taken off once it was the byte stage.
def undo (dims : Dims) : Result Bytes :=
  match r.byte? with
  | some p => do undoPasses dims r.below ((← p.undo dims p.written).take r.payload.length)
  | none => undoPasses dims r.below r.payload

-- All headers have a length that can be written down.
def Fits : Prop :=
  ∀ p ∈ r.below, p.header.length ≤ Trailer.maxHeader

end Run

variable {h : Hints} {dims : Dims} {t : Datatype} {a : Algorithm} {as : List Algorithm}
  {src entries : Bytes} {p : Pass} {ps : List Pass}

theorem Pass.run_eq_ok_iff :
    Pass.run h dims a t src = .ok p ↔
      p.stage = a ∧ p.type = t ∧ p.given = src ∧
        a.forward t h dims src = .ok (p.written, p.header) := by
  simp only [Pass.run, Result.bind_eq_ok_iff, Result.pure_eq, Except.ok.injEq]
  constructor
  case mp =>
    rintro ⟨⟨out, header⟩, hf, rfl⟩
    exact ⟨rfl, rfl, rfl, hf⟩
  case mpr =>
    rintro ⟨rfl, rfl, rfl, hf⟩
    exact ⟨_, hf, rfl⟩

theorem passes_nil_eq_ok_iff : passes h dims t src [] = .ok ps ↔ ps = [] := by
  simp [passes, eq_comm]

theorem passes_cons_eq_ok_iff :
    passes h dims t src (a :: as) = .ok ps ↔
      ∃ p qs, Pass.run h dims a t src = .ok p ∧
        passes h dims (a.outputType t) p.written as = .ok qs ∧ ps = p :: qs := by
  simp only [passes, Result.bind_eq_ok_iff, Result.pure_eq, Except.ok.injEq]
  constructor
  case mp =>
    rintro ⟨p, hp, qs, hqs, rfl⟩
    exact ⟨p, qs, hp, hqs, rfl⟩
  case mpr =>
    rintro ⟨p, qs, hp, hqs, rfl⟩
    exact ⟨p, hp, qs, hqs, rfl⟩

theorem dataBehind_append (src : Bytes) (ps qs : List Pass) :
    dataBehind src (ps ++ qs) = dataBehind (dataBehind src ps) qs := by
  induction ps generalizing src
  case nil => rfl
  case cons p ps ih => exact ih p.written

theorem typeBehind_append (t : Datatype) (as bs : List Algorithm) :
    typeBehind t (as ++ bs) = typeBehind (typeBehind t as) bs := by
  induction as generalizing t
  case nil => rfl
  case cons a as ih => exact ih (a.outputType t)

theorem passes_singleton_eq_ok_iff :
    passes h dims t src [a] = .ok ps ↔ ∃ p, Pass.run h dims a t src = .ok p ∧ ps = [p] := by
  simp only [passes, Result.ok_bind, Result.bind_eq_ok_iff, Result.pure_eq, Except.ok.injEq]
  exact exists_congr fun p => and_congr_right fun _ => eq_comm

theorem stages_of_passes (hp : passes h dims t src as = .ok ps) : ps.map Pass.stage = as := by
  induction as generalizing t src ps
  case nil =>
    obtain rfl := passes_nil_eq_ok_iff.mp hp
    rfl
  case cons a as ih =>
    obtain ⟨p, qs, hrun, hqs, rfl⟩ := passes_cons_eq_ok_iff.mp hp
    have ⟨hstage, _⟩ := Pass.run_eq_ok_iff.mp hrun
    rw [List.map_cons, hstage, ih hqs]

theorem stage_mem_of_passes (hps : passes h dims t src as = .ok ps) (hp : p ∈ ps) :
    p.stage ∈ as := by
  rw [← stages_of_passes hps]
  exact List.mem_map_of_mem hp

theorem exists_forward_of_mem_passes (hps : passes h dims t src as = .ok ps) (ha : a ∈ as) :
    ∃ t' src' x, a.forward t' h dims src' = .ok x := by
  induction as generalizing t src ps
  case nil => contradiction
  case cons b as ih =>
    obtain ⟨p, qs, hp, hqs, rfl⟩ := passes_cons_eq_ok_iff.mp hps
    cases List.mem_cons.mp ha
    case inl hab =>
      subst hab
      exact ⟨t, src, _, (Pass.run_eq_ok_iff.mp hp).right.right.right⟩
    case inr ha => exact ih hqs ha

theorem passes_append_eq_ok_iff {bs : List Algorithm} :
    passes h dims t src (as ++ bs) = .ok ps ↔
      ∃ qs rs, passes h dims t src as = .ok qs ∧
        passes h dims (typeBehind t as) (dataBehind src qs) bs = .ok rs ∧ ps = qs ++ rs := by
  induction as generalizing t src ps
  case nil => simp [passes_nil_eq_ok_iff, dataBehind, typeBehind]
  case cons a as ih =>
    simp only [List.cons_append, passes_cons_eq_ok_iff, ih, typeBehind]
    constructor
    case mp =>
      rintro ⟨p, _, hp, ⟨qs, rs, hqs, hrs, rfl⟩, rfl⟩
      exact ⟨p :: qs, rs, ⟨p, qs, hp, hqs, rfl⟩, hrs, rfl⟩
    case mpr =>
      rintro ⟨_, rs, ⟨p, qs, hp, hqs, rfl⟩, hrs, rfl⟩
      exact ⟨p, qs ++ rs, hp, ⟨qs, rs, hqs, hrs, rfl⟩, rfl⟩

theorem runStage_leading_eq_ok_iff (ha : a.position < .datatype) {q : Progress} :
    runStage h dims ⟨src, t, entries⟩ a = .ok q ↔
      ∃ p, Pass.run h dims a t src = .ok p ∧ p.header.length ≤ Trailer.maxHeader ∧
        q = ⟨p.written, a.outputType t, entries ++ p.mark⟩ := by
  have hrun : runStage h dims ⟨src, t, entries⟩ a = do
      let (out, header) ← a.forward t h dims src
      let entry ← Trailer.Entry.toBytes ⟨a.id, header⟩
      return ⟨out, a.outputType t, entries ++ entry⟩ := by
    unfold runStage
    split
    case h_1 hp => rw [hp] at ha; contradiction
    case h_2 hp => rw [hp] at ha; contradiction
    case h_3 => rfl
  rw [hrun]
  simp only [Result.bind_eq_ok_iff, Trailer.Entry.toBytes_eq_ok_iff, Result.pure_eq,
    Except.ok.injEq]
  constructor
  case mp =>
    rintro ⟨⟨out, header⟩, hf, _, ⟨hl, rfl⟩, rfl⟩
    refine ⟨⟨a, t, src, header, out⟩, Pass.run_eq_ok_iff.mpr ⟨rfl, rfl, rfl, hf⟩, hl, ?_⟩
    simp [Pass.mark, ha]
  case mpr =>
    rintro ⟨p, hp, hl, rfl⟩
    obtain ⟨rfl, -, -, hf⟩ := Pass.run_eq_ok_iff.mp hp
    exact ⟨_, hf, _, ⟨hl, rfl⟩, by simp [Pass.mark, ha]⟩

theorem foldlM_leading_eq_ok_iff (has : ∀ a ∈ as, a.position < .datatype) {q : Progress} :
    as.foldlM (runStage h dims) ⟨src, t, entries⟩ = .ok q ↔
      ∃ ps, passes h dims t src as = .ok ps ∧
        (∀ p ∈ ps, p.header.length ≤ Trailer.maxHeader) ∧
        q = ⟨dataBehind src ps, typeBehind t as, entries ++ ps.flatMap Pass.mark⟩ := by
  induction as generalizing t src entries
  case nil =>
    simp only [passes_nil_eq_ok_iff, typeBehind, List.foldlM_nil]
    simp [dataBehind, eq_comm]
  case cons a as ih =>
    have ha : a.position < .datatype := has a (by simp)
    have has' : ∀ b ∈ as, b.position < .datatype := fun b hb => has b (by simp [hb])
    simp only [List.foldlM_cons, Result.bind_eq_ok_iff, runStage_leading_eq_ok_iff ha,
      passes_cons_eq_ok_iff]
    constructor
    case mp =>
      rintro ⟨_, ⟨p, hp, hl, rfl⟩, hq⟩
      obtain ⟨qs, hqs, hls, rfl⟩ := (ih has').mp hq
      refine ⟨p :: qs, ⟨p, qs, hp, hqs, rfl⟩, by simpa using ⟨hl, hls⟩, ?_⟩
      simp [dataBehind, typeBehind]
    case mpr =>
      rintro ⟨_, ⟨p, qs, hp, hqs, rfl⟩, hls, rfl⟩
      obtain ⟨hl, hls⟩ := List.forall_mem_cons.mp hls
      refine ⟨_, ⟨p, hp, hl, rfl⟩, (ih has').mpr ⟨qs, hqs, hls, ?_⟩⟩
      simp [dataBehind, typeBehind]

theorem runStage_typed_eq_ok_iff (ha : a.position = .datatype) {q : Progress} :
    runStage h dims ⟨src, t, entries⟩ a = .ok q ↔
      ∃ p, Pass.run h dims a t src = .ok p ∧
        q = ⟨p.written ++ entries ++ p.mark, t, []⟩ := by
  have hlt : ¬Position.datatype < Position.datatype := by decide
  simp only [runStage, ha, Result.bind_eq_ok_iff, Result.pure_eq, Except.ok.injEq]
  constructor
  case mp =>
    rintro ⟨⟨out, header⟩, hf, rfl⟩
    refine ⟨⟨a, t, src, header, out⟩, Pass.run_eq_ok_iff.mpr ⟨rfl, rfl, rfl, hf⟩, ?_⟩
    simp [Pass.mark, ha, hlt]
  case mpr =>
    rintro ⟨p, hp, rfl⟩
    obtain ⟨rfl, -, -, hf⟩ := Pass.run_eq_ok_iff.mp hp
    exact ⟨_, hf, by simp [Pass.mark, ha, hlt]⟩

theorem runStage_byte_eq_ok_iff (ha : a.position = .byte) {q q' : Progress} :
    runStage h dims q a = .ok q' ↔
      ∃ p, Pass.run h dims a q.type (q.data ++ q.entries) = .ok p ∧
        q' = ⟨p.written ++ [p.stage.id], q.type, []⟩ := by
  simp only [runStage, ha, Result.bind_eq_ok_iff, Result.pure_eq, Except.ok.injEq]
  constructor
  case mp =>
    rintro ⟨⟨out, header⟩, hf, rfl⟩
    exact ⟨⟨a, q.type, _, header, out⟩, Pass.run_eq_ok_iff.mpr ⟨rfl, rfl, rfl, hf⟩, rfl⟩
  case mpr =>
    rintro ⟨p, hp, rfl⟩
    obtain ⟨rfl, -, -, hf⟩ := Pass.run_eq_ok_iff.mp hp
    exact ⟨_, hf, rfl⟩

theorem header_of_typed {out header : Bytes} (ha : a.position = .datatype)
    (hf : a.forward t h dims src = .ok (out, header)) : header = [] := by
  unfold Algorithm.position at ha
  unfold Algorithm.forward at hf
  cases hm : a.method <;> rw [hm] at ha hf
  case typed c =>
    obtain ⟨_, -, heq⟩ := Result.bind_eq_ok_iff.mp hf
    simp_all
  all_goals contradiction

-- The entries are still to be placed if there is no datatype stage.
def progressBelow (c : Chain) (t : Datatype) (src : Bytes) (ps : List Pass) : Progress :=
  match c.typed? with
  | some _ => ⟨dataBehind src ps ++ ps.flatMap Pass.mark, typeBehind t c.below, []⟩
  | none => ⟨dataBehind src ps, typeBehind t c.below, ps.flatMap Pass.mark⟩

theorem foldlM_below_eq_ok_iff {c : Chain} (hc : c.Placed) {q : Progress} :
    c.below.foldlM (runStage h dims) ⟨src, t, []⟩ = .ok q ↔
      ∃ ps, passes h dims t src c.below = .ok ps ∧
        (∀ p ∈ ps, p.header.length ≤ Trailer.maxHeader) ∧ q = progressBelow c t src ps := by
  cases ht : c.typed?
  case none =>
    simp only [Chain.below, progressBelow, ht, Option.toList_none, List.append_nil,
      foldlM_leading_eq_ok_iff hc.leading_lt, List.nil_append]
  case some a =>
    have ha : a.position = .datatype := hc.typed a ht
    simp only [Chain.below, progressBelow, ht, Option.toList_some, List.foldlM_append,
      List.foldlM_cons, List.foldlM_nil, bind_pure, Result.bind_eq_ok_iff,
      foldlM_leading_eq_ok_iff hc.leading_lt, passes_append_eq_ok_iff, passes_singleton_eq_ok_iff,
      runStage_typed_eq_ok_iff ha, typeBehind_append, typeBehind,
      a.outputType_eq (ha.trans_ne nofun)]
    constructor
    case mp =>
      rintro ⟨_, ⟨ps, hps, hl, rfl⟩, p, hp, rfl⟩
      obtain ⟨rfl, -, -, hf⟩ := Pass.run_eq_ok_iff.mp hp
      refine ⟨ps ++ [p], ⟨ps, [p], hps, ⟨p, hp, rfl⟩, rfl⟩, ?_, ?_⟩
      · simpa [or_imp, forall_and, header_of_typed ha hf] using hl
      · simp [dataBehind_append, dataBehind]
    case mpr =>
      rintro ⟨_, ⟨ps, _, hps, ⟨p, hp, rfl⟩, rfl⟩, hl, rfl⟩
      refine ⟨_, ⟨ps, hps, fun b hb => hl b (by simp [hb]), rfl⟩, p, hp, ?_⟩
      simp [dataBehind_append, dataBehind]

theorem data_entries_progressBelow (c : Chain) (t : Datatype) (src : Bytes) (ps : List Pass) :
    (progressBelow c t src ps).data ++ (progressBelow c t src ps).entries =
      dataBehind src ps ++ ps.flatMap Pass.mark := by
  unfold progressBelow
  cases c.typed? <;> simp

theorem type_progressBelow (c : Chain) (t : Datatype) (src : Bytes) (ps : List Pass) :
    (progressBelow c t src ps).type = typeBehind t c.below := by
  unfold progressBelow
  cases c.typed? <;> rfl

namespace Run

variable {c : Chain} {r : Run}

-- The byte stage of the run is the chain's, if the chain has one, at work on the framed data.
def ByteStageOf (c : Chain) (t : Datatype) (h : Hints) (dims : Dims) (r : Run) : Prop :=
  match c.byte?, r.byte? with
  | some a, some p => Pass.run h dims a (typeBehind t c.below) r.framed = .ok p
  | none, none => True
  | _, _ => False

theorem byteStageOf_some_iff (hb : c.byte? = some a) :
    r.ByteStageOf c t h dims ↔
      ∃ p, r.byte? = some p ∧ Pass.run h dims a (typeBehind t c.below) r.framed = .ok p := by
  unfold ByteStageOf
  cases hr : r.byte? <;> simp [hb]

theorem byteStageOf_none_iff (hb : c.byte? = none) :
    r.ByteStageOf c t h dims ↔ r.byte? = none := by
  unfold ByteStageOf
  cases hr : r.byte? <;> simp [hb]

theorem ofChain_eq_ok_iff :
    ofChain c t h dims src = .ok r ↔
      r.source = src ∧ passes h dims t src c.below = .ok r.below ∧ r.ByteStageOf c t h dims := by
  unfold ofChain
  cases hb : c.byte?
  case none =>
    simp only [Result.bind_eq_ok_iff, Result.pure_eq, Except.ok.injEq, byteStageOf_none_iff hb]
    constructor
    case mp =>
      rintro ⟨ps, hps, rfl⟩
      exact ⟨rfl, hps, rfl⟩
    case mpr =>
      rintro ⟨rfl, hps, hnone⟩
      exact ⟨r.below, hps, by rw [← hnone]⟩
  case some a =>
    simp only [Result.bind_eq_ok_iff, Result.pure_eq, Except.ok.injEq, byteStageOf_some_iff hb]
    constructor
    case mp =>
      rintro ⟨ps, hps, p, hp, rfl⟩
      exact ⟨rfl, hps, p, rfl, hp⟩
    case mpr =>
      rintro ⟨rfl, hps, p, hsome, hp⟩
      exact ⟨r.below, hps, p, hp, by rw [← hsome]⟩

theorem size_of_ofChain (hr : ofChain c t h dims src = .ok r) : r.size = c.size := by
  have ⟨_, hps, hbyte⟩ := ofChain_eq_ok_iff.mp hr
  have hbelow : r.below.length = c.below.length := by
    rw [← stages_of_passes hps, List.length_map]
  have hlast : r.byte?.toList.length = c.byte?.toList.length := by
    cases hb : c.byte?
    case none => simp [(byteStageOf_none_iff hb).mp hbyte]
    case some a =>
      have ⟨p, hsome, _⟩ := (byteStageOf_some_iff hb).mp hbyte
      simp [hsome]
  rw [size, hbelow, hlast, ← c.length_stages, c.stages_eq, List.length_append]

end Run

-- What the stages leave behind is the body of a run, with the entries behind the data if no stage
-- placed them.
theorem foldlM_stages_eq_ok_iff {c : Chain} {body : Bytes} (hc : c.Placed) :
    (∃ q, c.stages.foldlM (runStage h dims) ⟨src, t, []⟩ = .ok q ∧ q.data ++ q.entries = body) ↔
      ∃ r, Run.ofChain c t h dims src = .ok r ∧ r.Fits ∧ r.body = body := by
  simp only [c.stages_eq, List.foldlM_append, Result.bind_eq_ok_iff, foldlM_below_eq_ok_iff hc]
  cases hb : c.byte?
  case none =>
    simp only [Option.toList_none, List.foldlM_nil, Result.pure_eq, Except.ok.injEq]
    constructor
    case mp =>
      rintro ⟨_, ⟨_, ⟨ps, hps, hl, rfl⟩, rfl⟩, rfl⟩
      have hr : Run.ofChain c t h dims src = .ok ⟨src, ps, none⟩ :=
        Run.ofChain_eq_ok_iff.mpr ⟨rfl, hps, (Run.byteStageOf_none_iff hb).mpr rfl⟩
      exact ⟨_, hr, hl, (data_entries_progressBelow c t src ps).symm⟩
    case mpr =>
      rintro ⟨r, hr, hl, rfl⟩
      obtain ⟨hsrc, hps, hbyte⟩ := Run.ofChain_eq_ok_iff.mp hr
      have hnone := (Run.byteStageOf_none_iff hb).mp hbyte
      refine ⟨_, ⟨_, ⟨r.below, hps, hl, rfl⟩, rfl⟩, ?_⟩
      rw [Run.body, data_entries_progressBelow, hnone, ← hsrc]
      rfl
  case some a =>
    have ha : a.position = .byte := hc.byte a hb
    simp only [Option.toList_some, List.foldlM_cons, List.foldlM_nil, bind_pure,
      runStage_byte_eq_ok_iff ha]
    constructor
    case mp =>
      rintro ⟨_, ⟨_, ⟨ps, hps, hl, rfl⟩, p, hp, rfl⟩, rfl⟩
      rw [type_progressBelow, data_entries_progressBelow] at hp
      have hr : Run.ofChain c t h dims src = .ok ⟨src, ps, some p⟩ :=
        Run.ofChain_eq_ok_iff.mpr ⟨rfl, hps, (Run.byteStageOf_some_iff hb).mpr ⟨p, rfl, hp⟩⟩
      exact ⟨_, hr, hl, (List.append_nil _).symm⟩
    case mpr =>
      rintro ⟨r, hr, hl, rfl⟩
      obtain ⟨hsrc, hps, hbyte⟩ := Run.ofChain_eq_ok_iff.mp hr
      obtain ⟨p, hsome, hp⟩ := (Run.byteStageOf_some_iff hb).mp hbyte
      refine ⟨_, ⟨_, ⟨r.below, hps, hl, rfl⟩, p, ?_, rfl⟩, ?_⟩
      · rwa [type_progressBelow, data_entries_progressBelow, ← hsrc]
      · rw [Run.body, hsome, List.append_nil]

theorem runChain_eq_ok_iff {c : Chain} {stream : Bytes} (hc : c.Placed) :
    runChain c t h dims src = .ok stream ↔
      c.size ≤ 255 ∧ ∃ r, Run.ofChain c t h dims src = .ok r ∧ r.Fits ∧ r.stream = stream := by
  unfold runChain
  by_cases hsize : 255 < c.size
  case pos =>
    simp only [if_pos hsize, reduceCtorEq, false_iff]
    exact fun hle => Nat.not_lt.mpr hle.left hsize
  case neg =>
    have hle : c.size ≤ 255 := Nat.not_lt.mp hsize
    simp only [if_neg hsize, hle, true_and, Result.bind_eq_ok_iff, Result.pure_eq,
      Except.ok.injEq]
    constructor
    case mp =>
      rintro ⟨q, hq, rfl⟩
      obtain ⟨r, hr, hf, hbody⟩ := (foldlM_stages_eq_ok_iff hc).mp ⟨q, hq, rfl⟩
      exact ⟨r, hr, hf, by rw [Run.stream, Run.size_of_ofChain hr, hbody]⟩
    case mpr =>
      rintro ⟨r, hr, hf, rfl⟩
      obtain ⟨q, hq, hbody⟩ := (foldlM_stages_eq_ok_iff hc).mpr ⟨r, hr, hf, rfl⟩
      exact ⟨q, hq, by rw [Run.stream, Run.size_of_ofChain hr, hbody]⟩

end GridPress.Stream

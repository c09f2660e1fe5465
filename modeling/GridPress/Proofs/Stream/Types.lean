import GridPress.Proofs.Chain.Building
import GridPress.Proofs.Stage.Faults
import GridPress.Proofs.Stream.Inspection

namespace GridPress

variable {a : Algorithm} {as : List Algorithm} {c : Chain} {s t : Datatype} {e : Error}

namespace Stream

-- The stages with the types that they meet, given the one that the first of them meets.
def withTypes : Datatype → List Algorithm → List (Algorithm × Datatype)
  | _, [] => []
  | t, a :: as => (a, t) :: withTypes (a.outputType t) as

-- The stage `a` does not support the type `s` that it meets, and all stages before support theirs.
def FirstUnsupported (t : Datatype) (as : List Algorithm) (a : Algorithm) (s : Datatype) : Prop :=
  ∃ before after, withTypes t as = before ++ (a, s) :: after ∧
    (∀ x ∈ before, x.1.supports x.2 = true) ∧ a.supports s = false

theorem withTypes_append (t : Datatype) (as bs : List Algorithm) :
    withTypes t (as ++ bs) = withTypes t as ++ withTypes (typeBehind t as) bs := by
  induction as generalizing t
  case nil => rfl
  case cons a as ih => exact congrArg ((a, t) :: ·) (ih (a.outputType t))

theorem length_withTypes (t : Datatype) (as : List Algorithm) :
    (withTypes t as).length = as.length := by
  induction as generalizing t
  case nil => rfl
  case cons a as ih => exact congrArg Nat.succ (ih (a.outputType t))

theorem mem_of_withTypes (h : (a, s) ∈ withTypes t as) : a ∈ as := by
  induction as generalizing t
  case nil => contradiction
  case cons b as ih =>
    cases List.mem_cons.mp h
    case inl h => exact (Prod.mk.inj h).left ▸ List.mem_cons_self
    case inr h => exact List.mem_cons_of_mem b (ih h)

-- Between stages that are no converters the type stays.
theorem withTypes_eq_map (has : ∀ a ∈ as, a.position ≠ .converter) (t : Datatype) :
    withTypes t as = as.map (·, t) ∧ typeBehind t as = t := by
  induction as
  case nil => exact ⟨rfl, rfl⟩
  case cons a as ih =>
    have ⟨ha, has⟩ := List.forall_mem_cons.mp has
    have ⟨hmap, hbehind⟩ := ih has
    rw [withTypes, typeBehind, a.outputType_eq ha, hmap, hbehind]
    exact ⟨rfl, rfl⟩

def checkEach (l : List (Algorithm × Datatype)) : Result Unit :=
  match l.find? fun x => !x.1.supports x.2 with
  | some (a, t) => .error (.invalidChain (.unsupported a.name t))
  | none => .ok ()

theorem checkEach_append (l m : List (Algorithm × Datatype)) :
    checkEach (l ++ m) = (do checkEach l; checkEach m) := by
  unfold checkEach
  rw [List.find?_append]
  cases l.find? fun x => !x.1.supports x.2 <;> rfl

theorem checkEach_map (t : Datatype) (as : List Algorithm) :
    checkEach (as.map (·, t)) = Chain.checkSupport t as := by
  simp only [checkEach, Chain.checkSupport, List.find?_map, Function.comp_def]
  cases as.find? fun a => !a.supports t <;> rfl

theorem checkEach_eq_ok_iff {l : List (Algorithm × Datatype)} :
    checkEach l = .ok () ↔ ∀ x ∈ l, x.1.supports x.2 = true := by
  unfold checkEach
  cases hfind : l.find? fun x => !x.1.supports x.2
  case none => simpa using List.find?_eq_none.mp hfind
  case some x =>
    have hx := List.find?_some hfind
    refine iff_of_false nofun fun h => ?_
    simp [h x (List.mem_of_find?_eq_some hfind)] at hx

theorem checkEach_eq_error_iff :
    checkEach (withTypes t as) = .error e ↔
      ∃ a s, FirstUnsupported t as a s ∧ e = .invalidChain (.unsupported a.name s) := by
  have hfirst : ∀ a s, FirstUnsupported t as a s ↔
      (withTypes t as).find? (fun x => !x.1.supports x.2) = some (a, s) := by
    intro a s
    simp only [List.find?_eq_some_iff_append, Bool.not_eq_true', Bool.not_not]
    exact ⟨fun ⟨before, after, h, hbefore, ha⟩ => ⟨ha, before, after, h, hbefore⟩,
      fun ⟨ha, before, after, h, hbefore⟩ => ⟨before, after, h, hbefore, ha⟩⟩
  simp only [checkEach, hfirst]
  cases (withTypes t as).find? fun x => !x.1.supports x.2
  case none => simp
  case some x =>
    constructor
    case mp => exact fun h => ⟨x.1, x.2, rfl, (Except.error.inj h).symm⟩
    case mpr =>
      rintro ⟨a, s, h, rfl⟩
      obtain rfl := Option.some.inj h
      rfl

-- In front of the converter the type is the first one, and behind it the converted one.
theorem withTypes_stages (hc : c.Placed) (t : Datatype) :
    withTypes t c.stages =
      c.preconditionFirst.map (·, t) ++ c.converter?.toList.map (·, t) ++
        c.preconditionSecond.map (·, c.convertedType t) ++
        c.typed?.toList.map (·, c.convertedType t) ++
        c.byte?.toList.map (·, c.convertedType t) := by
  have hconverter : withTypes t c.converter?.toList = c.converter?.toList.map (·, t) ∧
      typeBehind t c.converter?.toList = c.convertedType t := by
    unfold Chain.convertedType
    cases c.converter? <;> exact ⟨rfl, rfl⟩
  have hfirst := withTypes_eq_map (fun a ha => (hc.first a ha).trans_ne nofun) t
  have hsecond := withTypes_eq_map (fun a ha => (hc.second a ha).trans_ne nofun) (c.convertedType t)
  have htyped := withTypes_eq_map
    (fun a ha => (hc.typed a (Option.mem_toList.mp ha)).trans_ne nofun) (c.convertedType t)
  have hbyte := withTypes_eq_map
    (fun a ha => (hc.byte a (Option.mem_toList.mp ha)).trans_ne nofun) (c.convertedType t)
  simp only [Chain.stages, withTypes_append, typeBehind_append, hfirst, hconverter, hsecond, htyped,
    hbyte]

theorem checkApplicable_eq (hc : c.Placed) (t : Datatype) :
    c.checkApplicable t = checkEach (withTypes t c.stages) := by
  have hbyte : Chain.checkSupport (c.convertedType t) c.byte?.toList = .ok () := by
    rw [Chain.checkSupport_eq_ok_iff]
    exact fun a ha => a.supports_of_byte (hc.byte a (Option.mem_toList.mp ha)) _
  rw [withTypes_stages hc]
  simp only [checkEach_append, checkEach_map, hbyte, Chain.checkApplicable, bind_assoc,
    ← Result.pure_eq, bind_pure_unit]

section Running

variable {h : Hints} {dims : Dims} {p q : Progress}

-- Runs one stage on elements of the type that comes with it.
def runAs (h : Hints) (dims : Dims) (p : Progress) (x : Algorithm × Datatype) : Result Progress :=
  runStage h dims { p with type := x.2 } x.1

theorem type_of_runStage (hq : runStage h dims p a = .ok q) : q.type = a.outputType p.type := by
  unfold runStage at hq
  split at hq
  case h_1 hp =>
    obtain ⟨_, _, hq⟩ := Result.bind_eq_ok_iff.mp hq
    rw [a.outputType_eq (hp.trans_ne nofun), ← Except.ok.inj hq]
  case h_2 hp =>
    obtain ⟨_, _, hq⟩ := Result.bind_eq_ok_iff.mp hq
    rw [a.outputType_eq (hp.trans_ne nofun), ← Except.ok.inj hq]
  case h_3 =>
    obtain ⟨_, _, hq⟩ := Result.bind_eq_ok_iff.mp hq
    obtain ⟨_, _, hq⟩ := Result.bind_eq_ok_iff.mp hq
    rw [← Except.ok.inj hq]

theorem foldlM_runStage (p : Progress) (as : List Algorithm) :
    as.foldlM (runStage h dims) p = (withTypes p.type as).foldlM (runAs h dims) p := by
  induction as generalizing p
  case nil => rfl
  case cons a as ih =>
    rw [withTypes, List.foldlM_cons, List.foldlM_cons]
    show runStage h dims p a >>= _ = runStage h dims p a >>= _
    cases hq : runStage h dims p a
    case error => rfl
    case ok q =>
      rw [Result.ok_bind, Result.ok_bind, ih, type_of_runStage hq]

end Running

section Undoing

variable {dims : Dims}

-- The stages with their types, as far as there are headers for them, each with its header.
def withHeaders (typed : List (Algorithm × Datatype)) (headers : List Bytes) :
    List ((Algorithm × Bytes) × Datatype) :=
  typed.zipWith (fun x header => ((x.1, header), x.2)) headers

-- The headers of a layout's stages. A datatype stage has none.
def Layout.headers (l : Layout) : List Bytes :=
  l.entries.map Prod.snd ++ l.typed?.toList.map fun _ => []

theorem withHeaders_append {typed : List (Algorithm × Datatype)} {headers : List Bytes}
    (h : typed.length = headers.length) (typed' : List (Algorithm × Datatype))
    (headers' : List Bytes) :
    withHeaders (typed ++ typed') (headers ++ headers') =
      withHeaders typed headers ++ withHeaders typed' headers' :=
  List.zipWith_append h

-- Stages that leave no header are left out.
theorem withHeaders_append_left {typed : List (Algorithm × Datatype)} {headers : List Bytes}
    (h : typed.length = headers.length) (typed' : List (Algorithm × Datatype)) :
    withHeaders (typed ++ typed') headers = withHeaders typed headers :=
  calc withHeaders (typed ++ typed') headers
    _ = withHeaders (typed ++ typed') (headers ++ []) := by rw [List.append_nil]
    _ = withHeaders typed headers ++ withHeaders typed' [] := withHeaders_append h typed' []
    _ = withHeaders typed headers := by simp [withHeaders]

theorem restoreEntries_append (frame : Bytes) (l m : List ((Algorithm × Bytes) × Datatype)) :
    restoreEntries dims frame (l ++ m) =
      restoreEntries dims frame m >>= fun data => restoreEntries dims data l := by
  induction l
  case nil => exact (bind_pure _).symm
  case cons x l ih =>
    simp only [List.cons_append, restoreEntries, ih, bind_assoc]

theorem entryTypes_eq (t : Datatype) (entries : List (Algorithm × Bytes)) :
    entries.zip (entryTypes t entries).1 =
        withHeaders (withTypes t (entries.map Prod.fst)) (entries.map Prod.snd) ∧
      (entryTypes t entries).2 = typeBehind t (entries.map Prod.fst) := by
  induction entries generalizing t
  case nil => exact ⟨rfl, rfl⟩
  case cons x entries ih =>
    have ⟨hzip, hlast⟩ := ih (x.1.outputType t)
    exact ⟨congrArg (((x.1, x.2), t) :: ·) hzip, hlast⟩

theorem restore_eq (t : Datatype) (dims : Dims) (l : Layout) :
    restore t dims l =
      restoreEntries dims l.frame (withHeaders (withTypes t l.stages) l.headers) := by
  have ⟨hzip, hlast⟩ := entryTypes_eq t l.entries
  have hlength :
      (withTypes t (l.entries.map Prod.fst)).length = (l.entries.map Prod.snd).length := by
    simp [length_withTypes]
  simp only [restore, hzip, hlast]
  rw [Layout.stages, Layout.headers, withTypes_append, withHeaders_append hlength,
    restoreEntries_append]
  cases l.typed? <;> rfl

theorem Layout.length_headers (l : Layout) : l.headers.length = l.stages.length := by
  simp [headers, stages]

theorem Layout.WellFormed.stages_ne_byte [Codecs] {l : Layout} (h : l.WellFormed) :
    ∀ a ∈ l.stages, a.position ≠ .byte := by
  intro a ha
  cases List.mem_append.mp ha
  case inl ha =>
    obtain ⟨x, hx, rfl⟩ := List.mem_map.mp ha
    have hlt := (h.entries x hx).position
    exact fun hbyte => absurd (hbyte ▸ hlt) (by decide)
  case inr ha => exact (h.typed a (Option.mem_toList.mp ha)).right.trans_ne nofun

-- The stages that come before a byte stage are the ones below it.
theorem below_of_ofAlgorithms {byte? : Option Algorithm} (has : ∀ a ∈ as, a.position ≠ .byte)
    (hbyte : ∀ a ∈ byte?, a.position = .byte)
    (hc : Chain.ofAlgorithms (as ++ byte?.toList) = .ok c) : c.below = as := by
  have ⟨hplaced, hstages⟩ := Chain.placed_of_ofAlgorithms hc
  have hfilter : ∀ (bs : List Algorithm) (b? : Option Algorithm), (∀ a ∈ bs, a.position ≠ .byte) →
      (∀ a ∈ b?, a.position = .byte) →
        (bs ++ b?.toList).filter (fun a => a.position ≠ .byte) = bs := by
    intro bs b? hbs hb?
    rw [List.filter_append, List.filter_eq_self.mpr (by simpa using hbs),
      List.filter_eq_nil_iff.mpr (by simpa using hb?), List.append_nil]
  rw [← hfilter as byte? has hbyte, ← hstages, Chain.stages_eq]
  exact (hfilter c.below c.byte? hplaced.below_ne_byte hplaced.byte).symm

variable [Codecs] {stream : Bytes} {d : Description}

-- What inspection finds is what is undone, one stage after the other.
theorem exists_of_describe (hd : describe stream = .ok d) (hc : c ∈ d.chain?) :
    ∃ (n : UInt8) (body below : Bytes) (byte? : Option Algorithm), stream = n :: body ∧
      n.toNat ≠ 0 ∧ undoByteStage body = .ok (byte?, below) ∧
      if n.toNat - byte?.toList.length = 0 then
        Chain.ofAlgorithms byte?.toList = .ok c
      else
        ∃ l, Layout.read (n.toNat - byte?.toList.length) below = .ok l ∧
          Chain.ofAlgorithms (l.stages ++ byte?.toList) = .ok c := by
  cases stream
  case nil => contradiction
  case cons n body =>
    simp only [describe, splitCount, Result.ok_bind] at hd
    split at hd
    case isTrue =>
      obtain rfl := Except.ok.inj hd
      contradiction
    case isFalse hn =>
      obtain ⟨⟨byte?, below⟩, hbyte, hd⟩ := Result.bind_eq_ok_iff.mp hd
      refine ⟨n, body, below, byte?, rfl, hn, hbyte, ?_⟩
      dsimp only at hd
      split at hd
      case isTrue hremaining =>
        obtain ⟨_, ⟨rfl⟩, hd⟩ := Result.bind_eq_ok_iff.mp hd
        obtain ⟨chain, hchain, hd⟩ := Result.bind_eq_ok_iff.mp hd
        obtain rfl := Except.ok.inj hd
        obtain rfl := Option.some.inj hc
        rwa [if_pos hremaining]
      case isFalse hremaining =>
        obtain ⟨stages, hstages, hd⟩ := Result.bind_eq_ok_iff.mp hd
        obtain ⟨l, hl, rfl⟩ := Result.map_eq_ok_iff.mp hstages
        obtain ⟨chain, hchain, hd⟩ := Result.bind_eq_ok_iff.mp hd
        obtain rfl := Except.ok.inj hd
        obtain rfl := Option.some.inj hc
        rw [if_neg hremaining]
        exact ⟨l, hl, hchain⟩

-- The byte stage is undone before the layout is read, and leaves no header.
theorem exists_decompress_eq (hd : describe stream = .ok d) (hc : c ∈ d.chain?) :
    ∃ frame headers, headers.length = c.below.length ∧ ∀ t dims,
      decompress t dims stream = (do
        c.checkApplicable t
        checkSize t dims (← restoreEntries dims frame
          (withHeaders (withTypes t c.stages) headers))) := by
  obtain ⟨n, body, below, byte?, rfl, hn, hbyte, h⟩ := exists_of_describe hd hc
  have hposition := position_of_undoByteStage hbyte
  simp only [decompress, splitCount, Result.ok_bind, if_neg hn, restoreBody, hbyte]
  split at h
  case isTrue hremaining =>
    cases byte?
    case none => contradiction
    case some a =>
      have hchain := Chain.ofAlgorithms_byte (hposition a rfl)
      obtain rfl := Except.ok.inj (h.symm.trans hchain)
      exact ⟨below, [], rfl, fun t dims => by rw [if_pos hremaining]; rfl⟩
  case isFalse hremaining =>
    obtain ⟨l, hl, h⟩ := h
    obtain ⟨hwell, _⟩ := Layout.toBytes_of_read hl
    have hbelow : c.below = l.stages := below_of_ofAlgorithms hwell.stages_ne_byte hposition h
    obtain ⟨_, hstages⟩ := Chain.placed_of_ofAlgorithms h
    refine ⟨l.frame, l.headers, by rw [hbelow, l.length_headers], fun t dims => ?_⟩
    have hlength : (withTypes t l.stages).length = l.headers.length := by
      rw [length_withTypes, l.length_headers]
    have hundo : withHeaders (withTypes t c.stages) l.headers =
        withHeaders (withTypes t l.stages) l.headers := by
      rw [hstages, withTypes_append, withHeaders_append_left hlength]
    simp only [if_neg hremaining, hl, h, Result.ok_bind, restore_eq, hundo, bind_assoc]

end Undoing

section Supporting

variable {h : Hints} {dims : Dims}

theorem sparesChain_toBytes (e : Trailer.Entry) : Result.SparesChain e.toBytes := by
  simp [Trailer.Entry.toBytes]

theorem sparesChain_runStage {p : Progress} (ha : a.SparesChain p.type) :
    Result.SparesChain (runStage h dims p a) := by
  unfold runStage
  split <;> simp [ha.forward, sparesChain_toBytes]

theorem sparesChain_foldlM {p : Progress} (has : ∀ x ∈ withTypes p.type as, x.1.SparesChain x.2) :
    Result.SparesChain (as.foldlM (runStage h dims) p) := by
  induction as generalizing p
  case nil => exact .ok p
  case cons a as ih =>
    have ⟨ha, has⟩ := List.forall_mem_cons.mp has
    rw [List.foldlM_cons]
    refine Result.SparesChain.bind_iff.mpr ⟨sparesChain_runStage ha, fun q hq => ih ?_⟩
    rwa [type_of_runStage hq]

theorem sparesChain_restoreEntries {frame : Bytes} {l : List ((Algorithm × Bytes) × Datatype)}
    (hl : ∀ x ∈ l, x.1.1.SparesChain x.2) : Result.SparesChain (restoreEntries dims frame l) := by
  induction l
  case nil => exact .ok frame
  case cons x l ih =>
    have ⟨hx, hl⟩ := List.forall_mem_cons.mp hl
    exact (ih hl).bind fun data => hx.backward x.1.2 dims data

theorem mem_of_withHeaders {typed : List (Algorithm × Datatype)} {headers : List Bytes}
    {x : (Algorithm × Bytes) × Datatype} (hx : x ∈ withHeaders typed headers) :
    (x.1.1, x.2) ∈ typed := by
  rw [withHeaders, ← List.map_uncurry_zip_eq_zipWith] at hx
  obtain ⟨y, hy, rfl⟩ := List.mem_map.mp hx
  exact (List.of_mem_zip hy).left

variable [Codecs]

theorem sparesChain_of_applicable (hc : c.Registered) (ht : c.checkApplicable t = .ok ()) :
    ∀ x ∈ withTypes t c.stages, x.1.SparesChain x.2 := by
  rw [checkApplicable_eq hc.placed, checkEach_eq_ok_iff] at ht
  intro (a, s) hx
  exact Registry.sparesChain_of_supports (hc.mem a (mem_of_withTypes hx)) (ht (a, s) hx)

-- A chain may still have too many stages to count.
theorem runChain_ne_unsupported {src : Bytes} {name : String} (hc : c.Registered)
    (ht : c.checkApplicable t = .ok ()) :
    runChain c t h dims src ≠ .error (.invalidChain (.unsupported name s)) := by
  intro herror
  unfold runChain at herror
  split at herror
  case isTrue => cases herror
  case isFalse =>
    have hrun : Result.SparesChain (c.stages.foldlM (runStage h dims) ⟨src, t, []⟩) :=
      sparesChain_foldlM (sparesChain_of_applicable hc ht)
    exact hrun.bind (fun p => .pure _) _ herror

theorem sparesChain_decompress {stream : Bytes} {d : Description} (hc : c.Registered)
    (ht : c.checkApplicable t = .ok ()) (hd : describe stream = .ok d) (hchain : c ∈ d.chain?) :
    Result.SparesChain (decompress t dims stream) := by
  have ⟨frame, headers, _, hdecompress⟩ := exists_decompress_eq hd hchain
  rw [hdecompress, ht, Result.ok_bind]
  apply Result.SparesChain.bind
  · apply sparesChain_restoreEntries
    exact fun x hx => sparesChain_of_applicable hc ht _ (mem_of_withHeaders hx)
  · intro out
    simp [checkSize]

end Supporting

-- A chain is applicable if and only if every stage supports the type it meets, which is the type
-- it is run with and the one it is undone with.
theorem applicable_iff_supported [Codecs] (hc : Chain.ofAlgorithms as = .ok c) (t : Datatype) :
    (c.checkApplicable t = .ok () ↔ ∀ x ∈ withTypes t c.stages, x.1.supports x.2 = true) ∧
    (∀ e, c.checkApplicable t = .error e ↔
      ∃ a s, FirstUnsupported t c.stages a s ∧ e = .invalidChain (.unsupported a.name s)) ∧
    (∀ h dims src, runChain c t h dims src =
      if 255 < c.size then
        .error (.invalidChain (.length c.size))
      else do
        let p ← (withTypes t c.stages).foldlM (runAs h dims) { data := src, type := t }
        return UInt8.ofNat c.size :: (p.data ++ p.entries)) ∧
    (∀ stream d, describe stream = .ok d → c ∈ d.chain? →
      ∃ frame headers, headers.length = c.below.length ∧ ∀ s dims,
        decompress s dims stream = do
          c.checkApplicable s
          checkSize s dims (← restoreEntries dims frame
            (withHeaders (withTypes s c.stages) headers))) ∧
    ((∀ a ∈ as, a ∈ Registry.algorithms) → c.checkApplicable t = .ok () →
      (∀ h dims src name s,
        runChain c t h dims src ≠ .error (.invalidChain (.unsupported name s))) ∧
      ∀ stream d dims name s, describe stream = .ok d → c ∈ d.chain? →
        decompress t dims stream ≠ .error (.invalidChain (.unsupported name s))) := by
  have ⟨hplaced, _⟩ := Chain.placed_of_ofAlgorithms hc
  have hcheck := checkApplicable_eq hplaced t
  refine ⟨hcheck ▸ checkEach_eq_ok_iff, fun e => hcheck ▸ checkEach_eq_error_iff,
    fun h dims src => by rw [runChain, foldlM_runStage],
    fun stream d hd hchain => exists_decompress_eq hd hchain, fun has ht => ?_⟩
  have hregistered := Chain.Registered.of_ofAlgorithms has hc
  exact ⟨fun h dims src name s => runChain_ne_unsupported hregistered ht,
    fun stream d dims name s hd hchain => sparesChain_decompress hregistered ht hd hchain _⟩

-- Three stages on doubles, and on integers that the first of them does not support.
theorem applicable_iff_supported_three :
    letI := Codecs.stored
    ∃ c, Chain.ofAlgorithms Chain.quantizeDeltaMemcopy = .ok c ∧
      c.checkApplicable .double = .ok () ∧
      (∀ x ∈ withTypes .double c.stages, x.1.supports x.2 = true) ∧
      (∃ a s, FirstUnsupported .int32 c.stages a s ∧
        c.checkApplicable .int32 = .error (.invalidChain (.unsupported a.name s))) ∧
      (∀ h dims src name s,
        runChain c .double h dims src ≠ .error (.invalidChain (.unsupported name s))) ∧
      ∃ d, describe [3, 0, 0, 0, 0, 7, 0, 0, 0, 0, 8, 0] = .ok d ∧ c ∈ d.chain? ∧
        ∀ dims name s, decompress .double dims [3, 0, 0, 0, 0, 7, 0, 0, 0, 0, 8, 0] ≠
          .error (.invalidChain (.unsupported name s)) := by
  let _ := Codecs.stored
  have hc : Chain.ofAlgorithms Chain.quantizeDeltaMemcopy =
      .ok ⟨[], some _, [_], none, some _, true⟩ :=
    rfl
  have hmem : ∀ a ∈ Chain.quantizeDeltaMemcopy, a ∈ Registry.algorithms := by
    simp [Chain.quantizeDeltaMemcopy, Registry.algorithms]
  obtain ⟨hdouble, _, _, _, hnever⟩ := applicable_iff_supported hc .double
  obtain ⟨_, hinteger, _⟩ := applicable_iff_supported hc .int32
  obtain ⟨a, s, hfirst, he⟩ := (hinteger _).mp rfl
  obtain ⟨hrun, hundo⟩ := hnever hmem rfl
  exact ⟨_, hc, rfl, hdouble.mp rfl, ⟨a, s, hfirst, congrArg _ he⟩, hrun, _, rfl, rfl,
    fun dims name s => hundo _ _ dims name s rfl rfl⟩

end Stream
end GridPress

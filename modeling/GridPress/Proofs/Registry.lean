import GridPress.Proofs.Results
import GridPress.Proofs.Text

namespace GridPress

-- Every input is compressed, and comes back.
def ByteCodec.Lawful (c : ByteCodec) : Prop :=
  ∀ bs, ∃ out, c.compress bs = .ok out ∧ c.decompress out = .ok bs

namespace Algorithm

variable {a : Algorithm}

theorem method_of_byte (h : a.position = .byte) : ∃ c, a.method = .byte c := by
  unfold position at h
  cases hm : a.method <;> rw [hm] at h
  case byte c => exact ⟨c, rfl⟩
  all_goals contradiction

theorem supports_of_byte (h : a.position = .byte) (t : Datatype) : a.supports t = true := by
  have ⟨c, hm⟩ := method_of_byte h
  rw [supports, hm]

-- Only a converter changes the type.
theorem outputType_eq (h : a.position ≠ .converter) (t : Datatype) : a.outputType t = t := by
  unfold position at h
  unfold outputType
  cases hm : a.method <;> rw [hm] at h
  exact absurd rfl h

theorem forward_byte {c : ByteCodec} (hm : a.method = .byte c) (t : Datatype) (h : Hints)
    (dims : Dims) (src : Bytes) :
    a.forward t h dims src = do return (← c.compress src, []) := by
  rw [forward, hm]

theorem backward_byte {c : ByteCodec} (hm : a.method = .byte c) (t : Datatype) (header : Bytes)
    (dims : Dims) (src : Bytes) : a.backward t header dims src = c.decompress src := by
  rw [backward, hm]

-- A typed stage leaves no header.
theorem forward_typed_eq_ok_iff {c : TypedCodec} (hm : a.method = .typed c) {t : Datatype}
    {h : Hints} {dims : Dims} {src out header : Bytes} :
    a.forward t h dims src = .ok (out, header) ↔
      c.compress t h dims src = .ok out ∧ header = [] := by
  simp only [forward, hm, Result.bind_eq_ok_iff, Result.pure_eq, Except.ok.injEq, Prod.mk.injEq]
  constructor
  case mp =>
    rintro ⟨_, hout, rfl, rfl⟩
    exact ⟨hout, rfl⟩
  case mpr =>
    rintro ⟨hout, rfl⟩
    exact ⟨out, hout, rfl, rfl⟩

end Algorithm

namespace Registry

theorem codec_lawful (name : String) {c : Codec} (h : c.Lawful) : (codec name c).Lawful := by
  intro bs
  refine ⟨c.encode bs, rfl, ?_⟩
  simp [codec, h bs]

theorem memcopy_lawful : memcopy.Lawful :=
  fun bs => ⟨bs, rfl, rfl⟩

variable [Codecs] {a : Algorithm}

theorem byId_id (h : a ∈ algorithms) : byId a.id = .ok a := by
  simp only [algorithms, List.mem_cons, List.not_mem_nil, or_false] at h
  rcases h with rfl | rfl | rfl | rfl | rfl | rfl | rfl | rfl | rfl <;> rfl

theorem byId_eq_ok_iff {magic : UInt8} :
    byId magic = .ok a ↔ a ∈ algorithms ∧ a.id = magic := by
  constructor
  case mp =>
    unfold byId
    split
    case h_1 b hb =>
      intro h
      obtain rfl := Except.ok.inj h
      exact ⟨List.mem_of_getElem? hb, id_of_find? hb⟩
    case h_2 => nofun
  case mpr =>
    rintro ⟨ha, rfl⟩
    exact byId_id ha

-- The algorithms that are not byte stages, by position, and what is left.
theorem method_of_mem (h : a ∈ algorithms) :
    match a.position with
    | .preconditionFirst => a.method = .preconditionFirst xorDelta
    | .converter => a.method = .converter quantize
    | .preconditionSecond => a.method = .preconditionSecond delta
    | .datatype => a.method = .typed abstol ∨ a.method = .typed sigbits
    | .byte => ∃ c, a.method = .byte c := by
  simp only [algorithms, List.mem_cons, List.not_mem_nil, or_false] at h
  rcases h with rfl | rfl | rfl | rfl | rfl | rfl | rfl | rfl | rfl <;>
    simp [Algorithm.position, Method.position]

-- The names of the stages that keep within a tolerance tell what they are.
theorem method_of_name (h : a ∈ algorithms) :
    (a.name = Stage.Abstol.name → a.method = .typed abstol) ∧
      (a.name = Stage.Quantize.name → a.method = .converter quantize) := by
  simp only [algorithms, List.mem_cons, List.not_mem_nil, or_false] at h
  rcases h with rfl | rfl | rfl | rfl | rfl | rfl | rfl | rfl | rfl <;>
    simp [Stage.Abstol.name, Stage.Quantize.name]

theorem isLossy_iff (h : a ∈ algorithms) :
    a.isLossy = true ↔ a.position = .converter ∨ a.position = .datatype := by
  simp only [algorithms, List.mem_cons, List.not_mem_nil, or_false] at h
  rcases h with rfl | rfl | rfl | rfl | rfl | rfl | rfl | rfl | rfl <;>
    simp [Algorithm.isLossy, Algorithm.position, Method.position]

theorem byte_lawful [Codecs.Lawful] {c : ByteCodec} (h : a ∈ algorithms)
    (hc : a.method = .byte c) : c.Lawful := by
  simp only [algorithms, List.mem_cons, List.not_mem_nil, or_false] at h
  rcases h with rfl | rfl | rfl | rfl | rfl | rfl | rfl | rfl | rfl <;> cases hc
  case inl => exact memcopy_lawful
  case inr.inr.inl => exact codec_lawful _ Codecs.Lawful.gzip
  case inr.inr.inr.inr.inl => exact codec_lawful _ Codecs.Lawful.lz4
  case inr.inr.inr.inr.inr.inl => exact codec_lawful _ Codecs.Lawful.zstd

section Named

variable {s : String} {n : Nat} {id : UInt8} {e : Error}

-- Whether `s` is the name of the registered algorithm `a` or a numeral of its id.
def Denotes (s : String) (a : Algorithm) : Prop :=
  a ∈ algorithms ∧ (s = a.name ∨ Text.IsNumeral s.toList a.id.toNat)

theorem find?_eq_some_iff : find? id = some a ↔ a ∈ algorithms ∧ a.id = id := by
  rw [← byId_eq_ok_iff, byId]
  cases find? id <;> simp

theorem getElem?_algorithms (h : n ≤ 255) :
    algorithms[n]? = some a ↔ a ∈ algorithms ∧ a.id.toNat = n := by
  have hn : (UInt8.ofNat n).toNat = n := UInt8.toNat_ofNat_of_lt' (Nat.lt_succ_of_le h)
  have hfind : find? (UInt8.ofNat n) = some a ↔ _ := find?_eq_some_iff
  rw [find?, hn] at hfind
  rw [hfind, ← UInt8.toNat_inj, hn]

-- Names are unique.
theorem find?_name : algorithms.find? (fun a => a.name == s) = some a ↔
    a ∈ algorithms ∧ a.name = s := by
  constructor
  case mp =>
    intro h
    exact ⟨List.mem_of_find?_eq_some h, by simpa using List.find?_some h⟩
  case mpr =>
    rintro ⟨ha, rfl⟩
    simp only [algorithms, List.mem_cons, List.not_mem_nil, or_false] at ha
    rcases ha with rfl | rfl | rfl | rfl | rfl | rfl | rfl | rfl | rfl <;> rfl

-- No name reads as a numeral, and none has a blank or a comma in it.
theorem name_of_mem (h : a ∈ algorithms) :
    Text.natural? 255 a.name.toList = none ∧ a.name ≠ "" ∧ ',' ∉ a.name.toList ∧
      a.name.toList.any Text.isBlank = false := by
  simp only [algorithms, List.mem_cons, List.not_mem_nil, or_false] at h
  rcases h with rfl | rfl | rfl | rfl | rfl | rfl | rfl | rfl | rfl <;>
    (dsimp only; decide)

theorem natural?_of_denotes (h : Denotes s a) :
    s = a.name ∧ Text.natural? 255 s.toList = none ∨
      Text.natural? 255 s.toList = some a.id.toNat := by
  obtain ⟨ha, rfl | hn⟩ := h
  · exact .inl ⟨rfl, (name_of_mem ha).left⟩
  · exact .inr (Text.natural?_eq_some_iff.mpr ⟨hn, Nat.le_of_lt_succ a.id.toNat_lt⟩)

theorem named?_eq_some_iff : named? s = some a ↔ Denotes (Text.trim s) a := by
  unfold named?
  dsimp only
  split
  case h_1 n hn =>
    have ⟨hnumeral, hle⟩ := Text.natural?_eq_some_iff.mp hn
    rw [getElem?_algorithms hle]
    constructor
    case mp =>
      rintro ⟨ha, rfl⟩
      exact ⟨ha, .inr hnumeral⟩
    case mpr =>
      intro h
      cases natural?_of_denotes h
      case inl hname => simp [hname.right] at hn
      case inr hid => exact ⟨h.left, Option.some.inj (hid.symm.trans hn)⟩
  case h_2 hn =>
    rw [find?_name]
    constructor
    case mp => exact fun ⟨ha, hs⟩ => ⟨ha, .inl hs.symm⟩
    case mpr =>
      intro h
      cases natural?_of_denotes h
      case inl hname => exact ⟨h.left, hname.left.symm⟩
      case inr hid => simp [hid] at hn

theorem byName_eq_ok_iff : byName s = .ok a ↔ Denotes (Text.trim s) a := by
  rw [← named?_eq_some_iff, byName]
  cases named? s <;> simp

theorem byName_eq_error_iff :
    byName s = .error e ↔
      (∀ a, ¬Denotes (Text.trim s) a) ∧ e = .unknownAlgorithm (Text.trim s) := by
  simp only [← named?_eq_some_iff, byName]
  cases named? s
  case none => simp [eq_comm]
  case some b => simp

end Named

end Registry
end GridPress

import GridPress.Proofs.Registry

namespace GridPress

variable {α β : Type}

-- The step does not fail for a fault of the chain.
def Result.SparesChain (x : Result α) : Prop :=
  ∀ fault, x ≠ .error (.invalidChain fault)

namespace Result.SparesChain

@[simp]
theorem ok (a : α) : SparesChain (.ok a) :=
  nofun

@[simp]
theorem pure (a : α) : SparesChain (pure a : Result α) :=
  nofun

@[simp]
theorem error_iff {e : Error} :
    SparesChain (.error e : Result α) ↔ ∀ fault, e ≠ .invalidChain fault := by
  simp [SparesChain]

@[simp]
theorem bind_iff {x : Result α} {f : α → Result β} :
    SparesChain (x >>= f) ↔ SparesChain x ∧ ∀ a, x = .ok a → SparesChain (f a) := by
  cases x <;> simp [SparesChain]

theorem bind {x : Result α} {f : α → Result β} (hx : SparesChain x)
    (hf : ∀ a, SparesChain (f a)) : SparesChain (x >>= f) :=
  bind_iff.mpr ⟨hx, fun a _ => hf a⟩

@[simp]
theorem map_iff {x : Result α} {f : α → β} : SparesChain (f <$> x) ↔ SparesChain x := by
  cases x <;> simp [SparesChain, Functor.map, Except.map]

@[simp]
theorem ite_iff {p : Prop} [Decidable p] {x y : Result α} :
    SparesChain (if p then x else y) ↔ (p → SparesChain x) ∧ (¬p → SparesChain y) := by
  split <;> simp_all

theorem mapM {f : α → Result β} {as : List α} (h : ∀ a ∈ as, SparesChain (f a)) :
    SparesChain (as.mapM f) := by
  intro fault hf
  have ⟨a, ha, hfa⟩ := exists_of_mapM_eq_error hf
  exact h a ha fault hfa

end Result.SparesChain

open Result (SparesChain)

namespace Header

-- A reader that spares the chain wherever it stands.
def Reader.SparesChain (r : Reader α) : Prop :=
  ∀ c, Result.SparesChain (r c)

namespace Reader.SparesChain

theorem bind {r : Reader α} {f : α → Reader β} (hr : r.SparesChain)
    (hf : ∀ a, (f a).SparesChain) : (r >>= f).SparesChain :=
  fun c => (hr c).bind fun x => hf x.1 x.2

theorem pure (a : α) : (Pure.pure a : Reader α).SparesChain :=
  fun _ => Result.SparesChain.ok _

theorem throw {e : Error} (he : ∀ fault, e ≠ .invalidChain fault) :
    (throw e : Reader α).SparesChain :=
  fun _ => Result.SparesChain.error_iff.mpr he

theorem map {r : Reader α} (hr : r.SparesChain) (f : α → β) : (f <$> r).SparesChain := by
  rw [map_eq_pure_bind]
  exact hr.bind fun a => pure (f a)

end Reader.SparesChain

open Reader.SparesChain

theorem sparesChain_take (n : Nat) : (take n).SparesChain := by
  intro c
  simp [take]

theorem sparesChain_nat (n : Nat) : (nat n).SparesChain :=
  (sparesChain_take n).map _

theorem sparesChain_int (n : Nat) : (int n).SparesChain :=
  (sparesChain_nat n).bind fun _ => pure _

theorem sparesChain_double : double.SparesChain :=
  (sparesChain_nat 8).map _

theorem sparesChain_rest : rest.SparesChain :=
  fun _ => Result.SparesChain.ok _

theorem sparesChain_read {r : Reader α} (hr : r.SparesChain) (bs : Bytes) :
    Result.SparesChain (read r bs) :=
  Result.SparesChain.map_iff.mpr (hr ⟨bs, 0⟩)

-- A header with bytes behind it.
theorem sparesChain_read_rest {r : Reader α} (hr : r.SparesChain) (bs : Bytes) :
    Result.SparesChain (read (do return (← r, ← rest)) bs) :=
  sparesChain_read (hr.bind fun _ => sparesChain_rest.bind fun _ => pure _) bs

end Header

variable {t : Datatype} {k : FloatKind} {dims : Dims} {h : Hints} {bs src : Bytes}

namespace Element

@[simp]
theorem sparesChain_decode : SparesChain (decode t bs) := by
  simp [decode]

@[simp]
theorem sparesChain_decodeAs : SparesChain (decodeAs t dims bs) := by
  simp [decodeAs]

@[simp]
theorem sparesChain_decodeSized : SparesChain (decodeSized t dims bs) := by
  simp [decodeSized]

end Element

namespace Packing

variable {bits count : Nat} {values : List Nat}

@[simp]
theorem sparesChain_size : SparesChain (size count bits) := by
  simp [size, checkWidth]

@[simp]
theorem sparesChain_pack : SparesChain (pack bits values) := by
  unfold pack
  cases values.find? (2 ^ bits ≤ ·) <;> simp

@[simp]
theorem sparesChain_unpack : SparesChain (unpack bits count bs) := by
  simp [unpack]

end Packing

@[simp]
theorem Grid.sparesChain_bitsNeeded {low high half : Double} {reserved : Nat} :
    SparesChain (Grid.bitsNeeded low high half reserved) := by
  simp [Grid.bitsNeeded]

namespace Stage

open Header

-- Of the kinds of elements, only the floating-point ones are asked for what `f` does.
theorem sparesChain_of_isFloat {f : FloatKind → Result α} {other : Result α}
    (ht : t.isFloat = true) (hf : ∀ k, SparesChain (f k)) :
    SparesChain (match t.kind? with
      | some k => f k
      | none => other) := by
  have ⟨k, hk⟩ := Option.isSome_iff_exists.mp ht
  rw [hk]
  exact hf k

@[simp]
theorem Placement.sparesChain_make {stage : String} :
    SparesChain (Placement.make stage k h dims src) := by
  simp [Placement.make]

namespace Abstol

theorem sparesChain_compressAs : SparesChain (compressAs k h dims src) := by
  simp [compressAs, bitsFor]

theorem sparesChain_decode {params : Params} {r : Reserved} {codes exact : List Nat} :
    SparesChain (decode k params r codes exact) := by
  fun_induction decode k params r codes exact <;> simp_all

theorem sparesChain_reader : Params.reader.SparesChain := by
  apply sparesChain_double.bind fun _ => sparesChain_double.bind fun _ => ?_
  exact (sparesChain_nat 1).bind fun _ => sparesChain_double.bind fun _ => .pure _

theorem sparesChain_decompressAs : SparesChain (decompressAs k dims src) := by
  apply (sparesChain_read_rest sparesChain_reader src).bind
  intro (params, body)
  simp [sparesChain_decode]

end Abstol

namespace Quantize

theorem sparesChain_convertAs : SparesChain (convertAs k h dims src) := by
  simp [convertAs]

theorem sparesChain_decode {params : Params} {is : List Int} {exact : List Nat} :
    SparesChain (decode k params is exact) := by
  fun_induction decode k params is exact <;> simp_all

theorem sparesChain_reader : Params.reader.SparesChain := by
  apply sparesChain_double.bind fun _ => sparesChain_double.bind fun _ => ?_
  exact sparesChain_double.bind fun _ => .pure _

theorem sparesChain_revertAs {header : Bytes} : SparesChain (revertAs k header dims src) := by
  apply (sparesChain_read_rest sparesChain_reader header).bind
  intro (params, rest)
  simp [sparesChain_decode]

end Quantize

namespace Sigbits

theorem sparesChain_fillCodeFor {l : Layout} {codes : List Nat} :
    SparesChain (fillCodeFor h l codes) := by
  unfold fillCodeFor
  cases freeCode? l codes <;> simp

theorem sparesChain_compressAs : SparesChain (compressAs k h dims src) := by
  simp [compressAs, sparesChain_fillCodeFor]

theorem sparesChain_layoutReader : (layoutReader k).SparesChain := by
  apply (sparesChain_nat 1).bind fun signs => (sparesChain_nat 1).bind fun exponentBits => ?_
  apply (sparesChain_nat 1).bind fun mantissaBits => (sparesChain_int 2).bind fun least => ?_
  cases Signs.ofCode? signs
  case none => exact .throw nofun
  case some signs =>
    dsimp only
    split
    case isTrue => exact .throw nofun
    case isFalse => exact .pure _

theorem sparesChain_headerReader : (headerReader k).SparesChain := by
  apply sparesChain_layoutReader.bind fun l => sparesChain_double.bind fun fill => ?_
  split
  case isTrue => exact .pure _
  case isFalse => exact (sparesChain_nat 8).bind fun _ => .pure _

theorem sparesChain_decode {l : Layout} {code : Nat} : SparesChain (decode k l code) := by
  simp [decode, overflow]

theorem sparesChain_decompressAs : SparesChain (decompressAs k dims src) := by
  apply (sparesChain_read_rest sparesChain_headerReader src).bind
  intro (fields, body)
  apply Packing.sparesChain_unpack.bind fun codes => ?_
  apply Result.SparesChain.bind (.mapM fun c _ => ?_) fun _ => .pure _
  simp [sparesChain_decode]

end Sigbits

theorem XorDelta.sparesChain_transform {f : Nat → List Nat → List Nat} :
    SparesChain (XorDelta.transform f t dims src) := by
  simp [XorDelta.transform]

theorem Delta.sparesChain_transform {f : Nat → List Nat → List Nat} (ht : t.isFloat = false) :
    SparesChain (Delta.transform f t dims src) := by
  simp [Delta.transform, ht]

end Stage

-- The stage spares the chain in both directions if it is given elements of type `t`.
structure Algorithm.SparesChain (a : Algorithm) (t : Datatype) : Prop where
  forward  : ∀ h dims src, Result.SparesChain (a.forward t h dims src)
  backward : ∀ header dims src, Result.SparesChain (a.backward t header dims src)

namespace Algorithm.SparesChain

variable {a : Algorithm}

theorem of_plain {supports : Datatype → Bool}
    {precondition restore : Datatype → Dims → Bytes → Result Bytes}
    (hm : let p := Registry.plainPreconditioner supports precondition restore
      a.method = .preconditionFirst p ∨ a.method = .preconditionSecond p)
    (hp : ∀ dims src, Result.SparesChain (precondition t dims src))
    (hr : ∀ dims src, Result.SparesChain (restore t dims src)) : a.SparesChain t := by
  refine ⟨fun h dims src => ?_, fun header dims src => ?_⟩
  all_goals
    rcases hm with hm | hm <;>
      simp [Algorithm.forward, Algorithm.backward, hm, Registry.plainPreconditioner, hp, hr]

theorem of_typed {c : TypedCodec} (hm : a.method = .typed c)
    (hc : ∀ h dims src, Result.SparesChain (c.compress t h dims src))
    (hd : ∀ dims src, Result.SparesChain (c.decompress t dims src)) : a.SparesChain t := by
  refine ⟨fun h dims src => ?_, fun header dims src => ?_⟩
  · simp [Algorithm.forward, hm, hc]
  · rw [Algorithm.backward, hm]
    exact hd dims src

theorem of_byte {c : ByteCodec} (hm : a.method = .byte c)
    (hc : ∀ src, Result.SparesChain (c.compress src))
    (hd : ∀ src, Result.SparesChain (c.decompress src)) : a.SparesChain t := by
  refine ⟨fun h dims src => ?_, fun header dims src => ?_⟩
  · simp [forward_byte hm, hc]
  · rw [backward_byte hm]
    exact hd src

end Algorithm.SparesChain

namespace Registry

open Algorithm.SparesChain Stage

variable [Codecs] {a : Algorithm}

omit [Codecs] in
theorem sparesChain_codec (name : String) (c : Codec) (src : Bytes) :
    SparesChain ((codec name c).decompress src) := by
  simp only [codec]
  split <;> simp

-- Byte stages spare the chain whatever they are given.
theorem sparesChain_byte (ha : a ∈ algorithms) (hp : a.position = .byte) : a.SparesChain t := by
  simp only [algorithms, List.mem_cons, List.not_mem_nil, or_false] at ha
  rcases ha with rfl | rfl | rfl | rfl | rfl | rfl | rfl | rfl | rfl <;> cases hp
  case inl => exact of_byte rfl (fun _ => .ok _) (fun _ => .ok _)
  all_goals exact of_byte rfl (fun _ => .ok _) (sparesChain_codec _ _)

theorem sparesChain_of_supports (ha : a ∈ algorithms) (ht : a.supports t = true) :
    a.SparesChain t := by
  have hm := method_of_mem ha
  cases hp : a.position <;> simp only [hp] at hm
  case preconditionFirst =>
    exact of_plain (.inl hm) (fun _ _ => XorDelta.sparesChain_transform)
      fun _ _ => XorDelta.sparesChain_transform
  case converter =>
    have hfloat : t.isFloat = true := by rwa [Algorithm.supports, hm] at ht
    refine ⟨fun h dims src => ?_, fun header dims src => ?_⟩
    · rw [Algorithm.forward, hm]
      exact sparesChain_of_isFloat hfloat fun _ => Quantize.sparesChain_convertAs
    · rw [Algorithm.backward, hm]
      exact sparesChain_of_isFloat hfloat fun _ => Quantize.sparesChain_revertAs
  case preconditionSecond =>
    have hinteger : (!t.isFloat) = true := by rwa [Algorithm.supports, hm] at ht
    rw [Bool.not_eq_true'] at hinteger
    exact of_plain (.inr hm) (fun _ _ => Delta.sparesChain_transform hinteger)
      fun _ _ => Delta.sparesChain_transform hinteger
  case datatype =>
    cases hm
    case inl hm =>
      have hfloat : t.isFloat = true := by rwa [Algorithm.supports, hm] at ht
      apply of_typed hm <;> intros <;> apply sparesChain_of_isFloat hfloat
      · exact fun _ => Abstol.sparesChain_compressAs
      · exact fun _ => Abstol.sparesChain_decompressAs
    case inr hm =>
      have hfloat : t.isFloat = true := by rwa [Algorithm.supports, hm] at ht
      apply of_typed hm <;> intros <;> apply sparesChain_of_isFloat hfloat
      · exact fun _ => Sigbits.sparesChain_compressAs
      · exact fun _ => Sigbits.sparesChain_decompressAs
  case byte => exact sparesChain_byte ha hp

end Registry
end GridPress

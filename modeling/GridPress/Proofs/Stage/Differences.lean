import GridPress.Proofs.Elements
import GridPress.Proofs.Results
import GridPress.Registry
import Mathlib.Logic.Function.Iterate

namespace GridPress.Stage

variable {t : Datatype} {dims : Dims} {src out : Bytes} {f g : List Nat → List Nat}

-- On words below `m`, `f` gives as many such words, from which `g` leads back.
structure UndoneBy (m : Nat) (f g : List Nat → List Nat) : Prop where
  length : ∀ ws, (f ws).length = ws.length
  lt     : ∀ ws, (∀ w ∈ ws, w < m) → ∀ d ∈ f ws, d < m
  undo   : ∀ ws, (∀ w ∈ ws, w < m) → g (f ws) = ws

-- What holds of the words of an array holds of the array.
theorem UndoneBy.join_split (h : UndoneBy (2 ^ t.width) f g) (hd : src.length % t.size = 0) :
    (Element.join t (f (Element.split t src))).length = src.length ∧
      Element.join t (g (Element.split t (Element.join t (f (Element.split t src))))) = src := by
  have hsplit : ∀ w ∈ Element.split t src, w < 2 ^ t.width := fun _ => Element.lt_of_mem_split
  constructor
  case left => exact Element.length_join_of_length_eq hd (h.length _)
  case right => rw [Element.split_join (h.lt _ hsplit), h.undo _ hsplit, Element.join_split hd]

namespace XorDelta

theorem transform_eq_ok_iff {f : Nat → List Nat → List Nat} :
    transform f t dims src = .ok out ↔
      src.length = dims.byteSize t ∧ Element.join t (f 0 (Element.split t src)) = out := by
  by_cases h : src.length = dims.byteSize t <;>
    simp [transform, Element.decodeSized, h, bind, Except.bind, pure, Except.pure]

@[simp]
theorem length_changes (previous : Nat) (ws : List Nat) :
    (changes previous ws).length = ws.length := by
  induction ws generalizing previous with
  | nil => rfl
  | cons w ws ih => simp [changes, ih]

@[simp]
theorem length_follow (previous : Nat) (ds : List Nat) :
    (follow previous ds).length = ds.length := by
  induction ds generalizing previous with
  | nil => rfl
  | cons d ds ih => simp [follow, ih]

theorem changes_lt {n previous : Nat} {ws : List Nat} (hp : previous < 2 ^ n)
    (h : ∀ w ∈ ws, w < 2 ^ n) : ∀ d ∈ changes previous ws, d < 2 ^ n := by
  induction ws generalizing previous with
  | nil => simp [changes]
  | cons w ws ih =>
    have hw : w < 2 ^ n := h w (by simp)
    intro d hd
    cases List.mem_cons.mp hd
    case inl hd => exact hd ▸ Nat.xor_lt_two_pow hw hp
    case inr hd => exact ih hw (fun v hv => h v (by simp [hv])) d hd

theorem follow_lt {n previous : Nat} {ds : List Nat} (hp : previous < 2 ^ n)
    (h : ∀ d ∈ ds, d < 2 ^ n) : ∀ w ∈ follow previous ds, w < 2 ^ n := by
  induction ds generalizing previous with
  | nil => simp [follow]
  | cons d ds ih =>
    have hw : previous ^^^ d < 2 ^ n := Nat.xor_lt_two_pow hp (h d (by simp))
    intro w hw'
    cases List.mem_cons.mp hw'
    case inl hw' => exact hw' ▸ hw
    case inr hw' => exact ih hw (fun v hv => h v (by simp [hv])) w hw'

theorem changes_undoneBy (n : Nat) : UndoneBy (2 ^ n) (changes 0) (follow 0) where
  length := length_changes 0
  lt _ := changes_lt (Nat.two_pow_pos n)
  undo ws _ := follow_changes 0 ws

theorem follow_undoneBy (n : Nat) : UndoneBy (2 ^ n) (follow 0) (changes 0) where
  length := length_follow 0
  lt _ := follow_lt (Nat.two_pow_pos n)
  undo ds _ := changes_follow 0 ds

theorem transform_undoneBy {f g : Nat → List Nat → List Nat}
    (hu : UndoneBy (2 ^ t.width) (f 0) (g 0)) (hd : src.length % t.size = 0)
    (h : transform f t dims src = .ok out) :
    out.length = src.length ∧ transform g t dims out = .ok src := by
  obtain ⟨hsize, rfl⟩ := transform_eq_ok_iff.mp h
  have ⟨hl, hback⟩ := hu.join_split hd
  exact ⟨hl, transform_eq_ok_iff.mpr ⟨hl.trans hsize, hback⟩⟩

theorem exists_transform {f g : Nat → List Nat → List Nat}
    (hu : UndoneBy (2 ^ t.width) (f 0) (g 0)) (hd : src.length % t.size = 0)
    (hs : src.length = dims.byteSize t) :
    ∃ out, transform f t dims src = .ok out ∧ out.length = src.length ∧
      transform g t dims out = .ok src :=
  have h := transform_eq_ok_iff.mpr ⟨hs, rfl⟩
  ⟨_, h, transform_undoneBy hu hd h⟩

theorem length_iterate {f : List Nat → List Nat} (hf : ∀ ws, (f ws).length = ws.length) (n : Nat)
    (ws : List Nat) : (f^[n] ws).length = ws.length := by
  induction n generalizing ws
  case zero => rfl
  case succ n ih => rw [Function.iterate_succ_apply, ih, hf]

theorem iterate_lt {f : List Nat → List Nat} {m : Nat} {ws : List Nat}
    (hf : ∀ ws, (∀ w ∈ ws, w < m) → ∀ w ∈ f ws, w < m) (n : Nat) (hws : ∀ w ∈ ws, w < m) :
    ∀ w ∈ f^[n] ws, w < m := by
  induction n generalizing ws
  case zero => exact hws
  case succ n ih => exact ih (hf ws hws)

theorem changes_iterate_lt {m : Nat} (n : Nat) {ws : List Nat} (hws : ∀ w ∈ ws, w < 2 ^ m) :
    ∀ w ∈ (changes 0)^[n] ws, w < 2 ^ m :=
  iterate_lt (fun _ => changes_lt (Nat.two_pow_pos _)) n hws

theorem follow_iterate_lt {m : Nat} (n : Nat) {ws : List Nat} (hws : ∀ w ∈ ws, w < 2 ^ m) :
    ∀ w ∈ (follow 0)^[n] ws, w < 2 ^ m :=
  iterate_lt (fun _ => follow_lt (Nat.two_pow_pos _)) n hws

theorem iterate_changes_follow (n : Nat) (ws : List Nat) :
    (changes 0)^[n] ((follow 0)^[n] ws) = ws :=
  Function.LeftInverse.iterate (changes_follow 0) n ws

end XorDelta

namespace Delta

theorem transform_eq_ok_iff {f : Nat → List Nat → List Nat} :
    transform f t dims src = .ok out ↔
      t.isFloat = false ∧ src.length = dims.byteSize t ∧
        Element.join t (f (2 ^ t.width) (Element.split t src)) = out := by
  by_cases ht : t.isFloat
  case pos => simp [transform, ht]
  case neg =>
    by_cases h : src.length = dims.byteSize t <;>
      simp [transform, ht, Element.decodeSized, h, bind, Except.bind, pure, Except.pure]

@[simp]
theorem length_differences (m previous : Nat) (ws : List Nat) :
    (differences m previous ws).length = ws.length := by
  induction ws generalizing previous with
  | nil => rfl
  | cons w ws ih => simp [differences, ih]

theorem differences_lt {m previous : Nat} (hm : 0 < m) (ws : List Nat) :
    ∀ d ∈ differences m previous ws, d < m := by
  induction ws generalizing previous with
  | nil => simp [differences]
  | cons w ws ih =>
    intro d hd
    cases List.mem_cons.mp hd
    case inl hd => exact hd ▸ Nat.mod_lt _ hm
    case inr hd => exact ih d hd

@[simp]
theorem length_sums (m previous : Nat) (ds : List Nat) :
    (sums m previous ds).length = ds.length := by
  induction ds generalizing previous with
  | nil => rfl
  | cons d ds ih => simp [sums, ih]

theorem sums_lt {m previous : Nat} (hm : 0 < m) (ds : List Nat) :
    ∀ w ∈ sums m previous ds, w < m := by
  induction ds generalizing previous with
  | nil => simp [sums]
  | cons d ds ih =>
    intro w hw
    cases List.mem_cons.mp hw
    case inl hw => exact hw ▸ Nat.mod_lt _ hm
    case inr hw => exact ih w hw

-- The sum that comes before is taken off again, whether or not the next one wraps around.
theorem differences_sums {m previous : Nat} {ds : List Nat} (hp : previous < m)
    (h : ∀ d ∈ ds, d < m) : differences m previous (sums m previous ds) = ds := by
  induction ds generalizing previous with
  | nil => rfl
  | cons d ds ih =>
    have hd : d < m := h d (by simp)
    have hdifference : ((previous + d) % m + (m - previous % m)) % m = d := by
      rw [Nat.mod_eq_of_lt hp, Nat.mod_add_mod, show previous + d + (m - previous) = d + m by omega,
        Nat.add_mod_right, Nat.mod_eq_of_lt hd]
    have hlt : (previous + d) % m < m := Nat.mod_lt _ (by omega)
    simp only [sums, differences, hdifference]
    rw [ih hlt fun v hv => h v (by simp [hv])]

theorem differences_undoneBy {m : Nat} (hm : 0 < m) :
    UndoneBy m (differences m 0) (sums m 0) where
  length := length_differences m 0
  lt ws _ := differences_lt hm ws
  undo _ h := sums_differences h hm

theorem sums_undoneBy {m : Nat} (hm : 0 < m) : UndoneBy m (sums m 0) (differences m 0) where
  length := length_sums m 0
  lt ds _ := sums_lt hm ds
  undo _ h := differences_sums hm h

theorem transform_undoneBy {f g : Nat → List Nat → List Nat}
    (hu : UndoneBy (2 ^ t.width) (f (2 ^ t.width)) (g (2 ^ t.width)))
    (hd : src.length % t.size = 0) (h : transform f t dims src = .ok out) :
    out.length = src.length ∧ transform g t dims out = .ok src := by
  obtain ⟨ht, hsize, rfl⟩ := transform_eq_ok_iff.mp h
  have ⟨hl, hback⟩ := hu.join_split hd
  exact ⟨hl, transform_eq_ok_iff.mpr ⟨ht, hl.trans hsize, hback⟩⟩

theorem exists_transform {f g : Nat → List Nat → List Nat}
    (hu : UndoneBy (2 ^ t.width) (f (2 ^ t.width)) (g (2 ^ t.width))) (ht : t.isFloat = false)
    (hd : src.length % t.size = 0) (hs : src.length = dims.byteSize t) :
    ∃ out, transform f t dims src = .ok out ∧ out.length = src.length ∧
      transform g t dims out = .ok src :=
  have h := transform_eq_ok_iff.mpr ⟨ht, hs, rfl⟩
  ⟨_, h, transform_undoneBy hu hd h⟩

end Delta
end GridPress.Stage

namespace GridPress.Registry

open Stage (UndoneBy)

variable {t : Datatype} {dims : Dims} {src : Bytes}

-- Both directions succeed on an array, and each of them is undone by the other one.
theorem plainPreconditioner_bijective {supports : Datatype → Bool}
    {precondition restore : Datatype → Dims → Bytes → Result Bytes}
    (hout : ∃ out, precondition t dims src = .ok out ∧ out.length = src.length ∧
      restore t dims out = .ok src)
    (hback : ∃ back, restore t dims src = .ok back ∧ back.length = src.length ∧
      precondition t dims back = .ok src)
    (h : Hints) (header : Bytes) :
    let p := plainPreconditioner supports precondition restore
    ∃ out back, p.precondition t h dims src = .ok (out, []) ∧ out.length = src.length ∧
      p.restore t header dims out = .ok src ∧ p.restore t header dims src = .ok back ∧
      back.length = src.length ∧ p.precondition t h dims back = .ok (src, []) := by
  have ⟨out, hout, hlout, hrestore⟩ := hout
  have ⟨back, hback, hlback, hprecondition⟩ := hback
  refine ⟨out, back, ?_, hlout, hrestore, hback, hlback, ?_⟩
  · simp [plainPreconditioner, hout]
  · simp [plainPreconditioner, hprecondition]

-- On the arrays of one size that memory can hold, a preconditioner and its inverse are bijections,
-- and no header is needed.
theorem preconditioner_bijective {p : Preconditioner}
    (hp : p = xorDelta ∨ p = delta ∧ t.isFloat = false) (h : Hints) (header : Bytes)
    (hs : src.length = dims.byteSize t) (hm : src.length ≤ Size.maxArray) :
    ∃ out back, p.precondition t h dims src = .ok (out, []) ∧ out.length = src.length ∧
      p.restore t header dims out = .ok src ∧ p.restore t header dims src = .ok back ∧
      back.length = src.length ∧ p.precondition t h dims back = .ok (src, []) := by
  have hd : src.length % t.size = 0 := hs ▸ Dims.byteSize_mod_size (hs ▸ hm)
  cases hp
  case inl hp =>
    subst hp
    apply plainPreconditioner_bijective
    case hout => exact Stage.XorDelta.exists_transform (Stage.XorDelta.changes_undoneBy _) hd hs
    case hback => exact Stage.XorDelta.exists_transform (Stage.XorDelta.follow_undoneBy _) hd hs
  case inr hp =>
    obtain ⟨rfl, ht⟩ := hp
    have hpos : 0 < 2 ^ t.width := Nat.two_pow_pos _
    apply plainPreconditioner_bijective
    case hout =>
      exact Stage.Delta.exists_transform (Stage.Delta.differences_undoneBy hpos) ht hd hs
    case hback => exact Stage.Delta.exists_transform (Stage.Delta.sums_undoneBy hpos) ht hd hs

-- Two integers of 16 bits, the second of which is less than the first.
theorem preconditioner_bijective_wrapping :
    let dims : Dims := ⟨[2], by decide, by decide⟩
    let src : Bytes := [5, 0, 3, 0]
    Datatype.isFloat .int16 = false ∧ src.length = dims.byteSize .int16 ∧
      src.length ≤ Size.maxArray ∧
      ∃ out back, delta.precondition .int16 {} dims src = .ok (out, []) ∧
        out.length = src.length ∧ delta.restore .int16 [] dims out = .ok src ∧
        delta.restore .int16 [] dims src = .ok back ∧ back.length = src.length ∧
        delta.precondition .int16 {} dims back = .ok (src, []) := by
  intro dims src
  have ht : Datatype.isFloat .int16 = false := rfl
  have hs : src.length = dims.byteSize .int16 := by decide
  have hm : src.length ≤ Size.maxArray := by decide
  exact ⟨ht, hs, hm, preconditioner_bijective (.inr ⟨rfl, ht⟩) {} [] hs hm⟩

end GridPress.Registry

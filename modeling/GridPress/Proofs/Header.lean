import GridPress.Header
import GridPress.Proofs.Binary.Order
import GridPress.Proofs.Elements
import GridPress.Proofs.Results

namespace GridPress.Header

-- A position behind `before`, with `after` still to be read.
def Cursor.between (before after : Bytes) : Cursor :=
  ⟨before ++ after, before.length⟩

-- Wherever `field` is next, the reader gets `a` from it and goes on behind it.
def Reads (r : Reader α) (field : Bytes) (a : α) : Prop :=
  ∀ before after, r (.between before (field ++ after)) =
    .ok (a, .between (before ++ field) after)

variable {α β : Type} {r : Reader α} {f : α → Reader β} {g : α → β} {field field' : Bytes} {a : α}
  {b : β}

theorem bind_eq_ok {c c' : Cursor} (h : r c = .ok (a, c')) : (r >>= f) c = f a c' := by
  change (r c >>= fun (a, c) => f a c) = _
  rw [h]
  rfl

theorem bind_eq_ok_iff {c c' : Cursor} :
    (r >>= f) c = .ok (b, c') ↔ ∃ a c₁, r c = .ok (a, c₁) ∧ f a c₁ = .ok (b, c') :=
  Result.bind_eq_ok_iff.trans Prod.exists

theorem reads_bind (hr : Reads r field a) (hf : Reads (f a) field' b) :
    Reads (r >>= f) (field ++ field') b := by
  intro before after
  rw [List.append_assoc, bind_eq_ok (hr before (field' ++ after)), hf, List.append_assoc]

theorem reads_pure (a : α) : Reads (pure a) [] a := by
  intro before after
  rw [List.append_nil]
  rfl

-- Nothing is read behind the field.
theorem reads_last (hr : Reads r field a) (hf : f a = pure b) : Reads (r >>= f) field b := by
  intro before after
  rw [bind_eq_ok (hr before after), hf]
  rfl

theorem reads_map (hr : Reads r field a) : Reads (r >>= fun a => pure (g a)) field (g a) :=
  reads_last hr rfl

theorem reads_take (field : Bytes) : Reads (take field.length) field field := by
  intro before after
  simp [take, Cursor.between, Cursor.rest]

theorem reads_nat {n x : Nat} (h : x < 256 ^ n) : Reads (nat n) (Bytes.ofNat n x) x := by
  have htake := reads_take (Bytes.ofNat n x)
  rw [Bytes.length_ofNat] at htake
  have hmap := reads_map (g := Bytes.toNat) htake
  rwa [Bytes.toNat_ofNat_of_lt h] at hmap

theorem reads_int {n : Nat} {i : Int} (hlow : -((256 ^ n : Nat) / 2) ≤ i)
    (hhigh : i < ((256 ^ n : Nat) + 1) / 2) :
    Reads (int n) (Bytes.ofNat n (i % (256 ^ n : Nat)).toNat) i := by
  have hpos : 0 < 256 ^ n := Nat.pow_pos (by decide)
  have hnonneg : 0 ≤ i % (256 ^ n : Nat) := Int.emod_nonneg _ (by omega)
  have hlt : i % (256 ^ n : Nat) < (256 ^ n : Nat) := Int.emod_lt_of_pos _ (by omega)
  have hword : (i % (256 ^ n : Nat)).toNat < 256 ^ n := by omega
  have hmap := reads_map (g := fun x : Nat => Int.bmod x (256 ^ n)) (reads_nat hword)
  rwa [Int.toNat_of_nonneg hnonneg, Int.emod_bmod, Int.bmod_eq_of_le hlow hhigh] at hmap

theorem reads_double (x : Double) : Reads double (Bytes.ofNat 8 x.toWord) x := by
  have hlt : x.toWord < 256 ^ 8 := x.word.toNat_lt
  have hmap := reads_map (g := Double.ofWord) (reads_nat hlt)
  rwa [Double.ofWord_toWord] at hmap

theorem int_between {c c' : Cursor} {n : Nat} {i : Int} (h : int n c = .ok (i, c')) :
    -((256 ^ n : Nat) / 2) ≤ i ∧ i < ((256 ^ n : Nat) + 1) / 2 := by
  have hpos : 0 < 256 ^ n := Nat.pow_pos (by decide)
  have ⟨x, _, _, hi⟩ := bind_eq_ok_iff.mp h
  obtain ⟨rfl, -⟩ := Prod.mk.inj (Except.ok.inj hi)
  exact ⟨Int.le_bmod hpos, Int.bmod_lt hpos⟩

-- What follows the fields is left.
theorem read_rest (hr : Reads r field a) (after : Bytes) :
    read (do return (← r, ← rest)) (field ++ after) = .ok (a, after) := by
  change Prod.fst <$> (r >>= fun a => rest >>= fun bs => pure (a, bs))
    (.between [] (field ++ after)) = _
  rw [bind_eq_ok (hr [] after)]
  change Except.ok (a, (Cursor.between ([] ++ field) after).rest) = _
  simp [Cursor.between, Cursor.rest]

theorem exists_of_read_rest {bs after : Bytes}
    (h : read (do return (← r, ← rest)) bs = .ok (a, after)) : ∃ c, r ⟨bs, 0⟩ = .ok (a, c) := by
  have ⟨_, hrun, hfst⟩ := Result.map_eq_ok_iff.mp h
  have ⟨a', c, hr, hrest⟩ := bind_eq_ok_iff.mp hrun
  have heq : (a', c.rest) = (a, after) := (congrArg Prod.fst (Except.ok.inj hrest)).trans hfst
  exact ⟨c, (Prod.mk.inj heq).left ▸ hr⟩

end GridPress.Header

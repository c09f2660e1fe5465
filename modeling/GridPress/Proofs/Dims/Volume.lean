import GridPress.Proofs.Dims
import Mathlib.Algebra.BigOperators.Group.List.Basic
import Mathlib.Data.List.TakeWhile

namespace GridPress

namespace Size

-- Cutting off early makes no difference to a product.
theorem clamp_clamp_mul (m n : Nat) : clamp (clamp m * n) = clamp (m * n) := by
  by_cases hm : m ≤ max
  case pos => rw [clamp_eq_of_le hm]
  case neg =>
    have hclamp : clamp m = max := Nat.min_eq_right (by omega)
    rw [hclamp]
    cases n
    case zero => rfl
    case succ n =>
      have hmax : max ≤ max * (n + 1) := Nat.le_mul_of_pos_right _ (Nat.succ_pos n)
      have hle : max * (n + 1) ≤ m * (n + 1) := Nat.mul_le_mul_right _ (by omega)
      simp only [clamp]
      omega

theorem clamp_clamp_add (m n : Nat) : clamp (clamp m + n) = clamp (m + n) := by
  simp only [clamp]
  omega

end Size

namespace Dims

variable {d : Dims} {ls ls' : List UInt64}

-- The number of elements that extents describe.
def volume (ls : List UInt64) : Nat :=
  (ls.map UInt64.toNat).prod

@[simp]
theorem volume_nil : volume [] = 1 := rfl

@[simp]
theorem volume_cons (l : UInt64) (ls : List UInt64) : volume (l :: ls) = l.toNat * volume ls :=
  List.prod_cons

theorem volume_append (ls ls' : List UInt64) : volume (ls ++ ls') = volume ls * volume ls' := by
  rw [volume, List.map_append, List.prod_append]
  rfl

theorem volume_perm (h : ls.Perm ls') : volume ls = volume ls' :=
  (h.map _).prod_eq

theorem volume_eq_zero_iff : volume ls = 0 ↔ 0 ∈ ls := by
  induction ls
  case nil => decide
  case cons l ls ih =>
    have hl : l.toNat = 0 ↔ l = 0 := UInt64.toNat_inj (b := 0)
    rw [volume_cons, Nat.mul_eq_zero, hl, ih, List.mem_cons, eq_comm]

theorem volume_pos (h : 0 ∉ ls) : 0 < volume ls :=
  Nat.pos_of_ne_zero (mt volume_eq_zero_iff.mp h)

theorem foldl_clamp (ls : List UInt64) (m : Nat) :
    ls.foldl (fun n l => Size.clamp (n * l.toNat)) (Size.clamp m) = Size.clamp (m * volume ls) := by
  induction ls generalizing m
  case nil => rw [List.foldl_nil, volume_nil, Nat.mul_one]
  case cons l ls ih => rw [List.foldl_cons, Size.clamp_clamp_mul, ih, volume_cons, Nat.mul_assoc]

theorem count_eq (d : Dims) : d.count = Size.clamp (volume d.lengths) := by
  have h := foldl_clamp d.lengths 1
  rwa [Nat.one_mul] at h

theorem byteSize_eq_clamp (d : Dims) (t : Datatype) :
    d.byteSize t = Size.clamp (volume d.lengths * t.size) := by
  rw [byteSize, count_eq, Size.clamp_clamp_mul]

theorem sizeBound_eq_clamp (d : Dims) (t : Datatype) :
    d.sizeBound t = Size.clamp (4 * volume d.lengths * t.size + headerRoom) := by
  rw [sizeBound, byteSize_eq_clamp, Size.clamp_clamp_mul, Size.clamp_clamp_add, Nat.mul_comm _ 4,
    Nat.mul_assoc]

-- The extents in front of the first axis that is empty.
def leading (ls : List UInt64) : List UInt64 :=
  ls.takeWhile (· ≠ 0)

-- The extents of all axes that are not empty.
def filled (ls : List UInt64) : List UInt64 :=
  ls.filter (· ≠ 0)

-- An empty axis makes the product zero, but only those before it are multiplied without it.
structure Fits (ls : List UInt64) : Prop where
  volume_le  : volume ls ≤ maxElements
  leading_le : 0 ∈ ls → volume (leading ls) ≤ Size.max

def Accepts (ls : List UInt64) : Prop :=
  ∃ d, ofLengths ls = .ok d ∧ d.lengths = ls

theorem leading_cons_zero (ls : List UInt64) : leading (0 :: ls) = [] := rfl

theorem leading_cons {l : UInt64} (hl : l ≠ 0) (ls : List UInt64) :
    leading (l :: ls) = l :: leading ls :=
  List.takeWhile_cons_of_pos (by simpa using hl)

theorem leading_append (h : 0 ∉ ls) (ls' : List UInt64) :
    leading (ls ++ ls') = ls ++ leading ls' := by
  refine List.takeWhile_append_of_pos fun l hl => ?_
  simpa using fun hzero : l = 0 => h (hzero ▸ hl)

theorem leading_eq (h : 0 ∉ ls) : leading ls = ls := by
  have happend := leading_append h []
  rwa [List.append_nil, leading, leading, List.takeWhile_nil, List.append_nil] at happend

theorem not_mem_filled (ls : List UInt64) : 0 ∉ filled ls := by
  simp [filled]

theorem volume_leading_pos (ls : List UInt64) : 0 < volume (leading ls) := by
  refine volume_pos fun h => ?_
  simpa using List.mem_takeWhile_imp h

theorem volume_leading_le (ls : List UInt64) : volume (leading ls) ≤ volume (filled ls) := by
  induction ls
  case nil => exact Nat.le_refl _
  case cons l ls ih =>
    by_cases hl : l = 0
    case pos =>
      rw [hl, leading_cons_zero]
      exact volume_pos (not_mem_filled _)
    case neg =>
      have hfilled : filled (l :: ls) = l :: filled ls :=
        List.filter_cons_of_pos (by simpa using hl)
      rw [leading_cons hl, hfilled, volume_cons, volume_cons]
      exact Nat.mul_le_mul_left _ ih

-- The product is taken from left to right, and zero once there is an empty axis.
theorem foldlM_mul?_eq_some_iff {m n : Nat} (hm : m ≤ Size.max) :
    ls.foldlM (fun n l => Size.mul? n l.toNat) m = some n ↔
      m * volume (leading ls) ≤ Size.max ∧ m * volume ls = n := by
  induction ls generalizing m
  case nil => simpa [leading] using fun _ => hm
  case cons l ls ih =>
    rw [List.foldlM_cons, Option.bind_eq_bind, Option.bind_eq_some_iff]
    simp only [Size.mul?_eq_some_iff]
    by_cases hl : l = 0
    case pos =>
      have hzero := ih (Nat.zero_le _)
      simp only [Nat.zero_mul, Nat.zero_le, true_and] at hzero
      simp [hl, leading_cons_zero, hzero, hm]
    case neg =>
      rw [leading_cons hl, volume_cons, volume_cons, ← Nat.mul_assoc, ← Nat.mul_assoc]
      constructor
      case mp =>
        rintro ⟨_, ⟨hle, rfl⟩, h⟩
        exact (ih hle).mp h
      case mpr =>
        intro h
        have hle : m * l.toNat ≤ Size.max :=
          Nat.le_trans (Nat.le_mul_of_pos_right _ (volume_leading_pos ls)) h.left
        exact ⟨_, ⟨hle, rfl⟩, (ih hle).mpr h⟩

theorem product?_eq_some_iff {n : Nat} :
    product? ls = some n ↔ volume (leading ls) ≤ Size.max ∧ volume ls = n := by
  have hone : 1 ≤ Size.max := by decide
  refine (foldlM_mul?_eq_some_iff hone).trans ?_
  rw [Nat.one_mul, Nat.one_mul]

theorem product?_any_iff : (product? ls).any (· ≤ maxElements) = true ↔ Fits ls := by
  simp only [Option.any_eq_true, product?_eq_some_iff, decide_eq_true_eq]
  constructor
  case mp =>
    rintro ⟨_, ⟨hleading, rfl⟩, hvolume⟩
    exact ⟨hvolume, fun _ => hleading⟩
  case mpr =>
    intro h
    refine ⟨_, ⟨?_, rfl⟩, h.volume_le⟩
    by_cases hzero : 0 ∈ ls
    case pos => exact h.leading_le hzero
    case neg =>
      rw [leading_eq hzero]
      exact Nat.le_trans h.volume_le (by decide)

theorem ofLengths_eq_ok_iff : ofLengths ls = .ok d ↔ d.lengths = ls ∧ Fits ls := by
  rw [← product?_any_iff]
  constructor
  case mp =>
    intro h
    refine ⟨ofLengths_eq_ok h, ?_⟩
    unfold ofLengths at h
    split at h
    case h_1 => contradiction
    case h_2 =>
      split at h
      case isTrue hany => exact hany
      case isFalse => contradiction
  case mpr =>
    rintro ⟨rfl, hany⟩
    rw [ofLengths, ofLengths?_lengths]
    exact if_pos hany

theorem accepted_iff_fits : d.Accepted ↔ Fits d.lengths := by
  constructor
  case mp => exact fun hd => (ofLengths_eq_ok_iff.mp hd.ofLengths_lengths).right
  case mpr => exact fun hd => ⟨_, ofLengths_eq_ok_iff.mpr ⟨rfl, hd⟩⟩

theorem accepts_iff_fits : Accepts ls ↔ (1 ≤ ls.length ∧ ls.length ≤ 4) ∧ Fits ls := by
  constructor
  case mp =>
    rintro ⟨d, hd, rfl⟩
    exact ⟨⟨d.rank_pos, d.rank_le⟩, (ofLengths_eq_ok_iff.mp hd).right⟩
  case mpr =>
    rintro ⟨⟨hpos, hle⟩, hfits⟩
    exact ⟨⟨ls, hpos, hle⟩, ofLengths_eq_ok_iff.mpr ⟨rfl, hfits⟩, rfl⟩

-- Dims that were never checked are read back exactly if they are accepted.
theorem ofBytes_toBytes_iff (d : Dims) (after : Bytes) :
    ofBytes (d.toBytes ++ after) = .ok (d, d.encodedSize) ↔ Fits d.lengths := by
  rw [← accepted_iff_fits]
  exact ⟨fun h => (ofBytes_eq_ok h).left, fun hd => ofBytes_toBytes hd after⟩

-- The bound on the number of elements leaves room for four times the widest ones and the headers.
theorem Fits.sizeBound_le (h : Fits d.lengths) (t : Datatype) :
    4 * volume d.lengths * t.size + headerRoom ≤ Size.max := by
  have hsize : t.size ≤ 8 := by cases t <;> decide
  have hroom : 4 * maxElements * 8 + headerRoom ≤ Size.max := by decide
  have hbytes : 4 * volume d.lengths * t.size ≤ 4 * maxElements * 8 :=
    Nat.mul_le_mul (Nat.mul_le_mul_left 4 h.volume_le) hsize
  omega

-- One cut at the end makes the same difference as a cut after every step. Accepted dims are below
-- all cuts.
theorem sizes_saturate (d : Dims) (t : Datatype) :
    d.count = min (volume d.lengths) Size.max ∧
    d.byteSize t = min (volume d.lengths * t.size) Size.max ∧
    d.sizeBound t = min (4 * volume d.lengths * t.size + headerRoom) Size.max ∧
    (d.Accepted →
      d.count = volume d.lengths ∧ d.byteSize t = volume d.lengths * t.size ∧
        d.sizeBound t = 4 * volume d.lengths * t.size + headerRoom) := by
  refine ⟨count_eq d, byteSize_eq_clamp d t, sizeBound_eq_clamp d t, fun hd => ?_⟩
  have hbound := (accepted_iff_fits.mp hd).sizeBound_le t
  have hbytes : volume d.lengths * t.size ≤ Size.max := by
    rw [Nat.mul_assoc] at hbound
    omega
  have hcount : volume d.lengths ≤ Size.max :=
    Nat.le_trans (Nat.le_mul_of_pos_right _ t.size_pos) hbytes
  rw [count_eq, byteSize_eq_clamp, sizeBound_eq_clamp]
  exact ⟨Size.clamp_eq_of_le hcount, Size.clamp_eq_of_le hbytes, Size.clamp_eq_of_le hbound⟩

-- As many of the widest elements as are accepted.
theorem sizes_saturate_most :
    let d : Dims := ⟨[UInt64.ofNat maxElements], by decide, by decide⟩
    d.Accepted ∧ d.sizeBound .double = 32 * maxElements + headerRoom := by
  intro d
  have hd : d.Accepted := ⟨d.lengths, by decide⟩
  have ⟨_, _, hbound⟩ := (sizes_saturate d .double).2.2.2 hd
  exact ⟨hd, hbound.trans (by decide)⟩

-- An empty axis behind a product that was cut off.
example : Dims.count ⟨[4294967296, 4294967296, 0], by decide, by decide⟩ = 0 := by decide

-- Without an empty axis, only the product counts. With one, the order matters unless all other axes
-- have a product that is a size.
theorem fits_iff_volume (h : 0 ∉ ls) : Fits ls ↔ volume ls ≤ maxElements :=
  ⟨Fits.volume_le, fun hvolume => ⟨hvolume, fun hzero => absurd hzero h⟩⟩

theorem fits_iff_leading (h : 0 ∈ ls) : Fits ls ↔ volume (leading ls) ≤ Size.max := by
  refine ⟨fun hfits => hfits.leading_le h, fun hleading => ⟨?_, fun _ => hleading⟩⟩
  rw [volume_eq_zero_iff.mpr h]
  exact Nat.zero_le _

theorem fits_cons_zero (ls : List UInt64) : Fits (0 :: ls) := by
  rw [fits_iff_leading List.mem_cons_self, leading_cons_zero]
  decide

theorem filled_append_perm (ls : List UInt64) : (filled ls ++ ls.filter (· = 0)).Perm ls := by
  simpa [filled] using List.filter_append_perm (fun l : UInt64 => decide (l ≠ 0)) ls

theorem volume_filled_le (h : Fits (filled ls ++ ls.filter (· = 0))) (hzero : 0 ∈ ls) :
    volume (filled ls) ≤ Size.max := by
  have hmem : 0 ∈ filled ls ++ ls.filter (· = 0) := (filled_append_perm ls).mem_iff.mpr hzero
  have hleading := (fits_iff_leading hmem).mp h
  rw [leading_append (not_mem_filled ls), volume_append] at hleading
  exact Nat.le_trans (Nat.le_mul_of_pos_right _ (volume_leading_pos _)) hleading

theorem forall_perm_fits_iff :
    (∀ ls', ls'.Perm ls → (Fits ls' ↔ Fits ls)) ↔ (0 ∈ ls → volume (filled ls) ≤ Size.max) := by
  constructor
  case mp =>
    intro h hzero
    have hfirst := h _ (List.perm_cons_erase hzero).symm
    have hlast := h _ (filled_append_perm ls)
    exact volume_filled_le (hlast.mpr (hfirst.mp (fits_cons_zero _))) hzero
  case mpr =>
    intro h ls' hperm
    by_cases hzero : 0 ∈ ls
    case neg =>
      have hzero' : 0 ∉ ls' := mt hperm.mem_iff.mp hzero
      rw [fits_iff_volume hzero, fits_iff_volume hzero', volume_perm hperm]
    case pos =>
      have hfilled : volume (filled ls') = volume (filled ls) := volume_perm (hperm.filter _)
      have hle := h hzero
      rw [fits_iff_leading hzero, fits_iff_leading (hperm.mem_iff.mpr hzero)]
      exact iff_of_true (Nat.le_trans (volume_leading_le ls') (hfilled ▸ hle))
        (Nat.le_trans (volume_leading_le ls) hle)

-- Whether extents are accepted depends on their number and their product and, if an axis is empty,
-- also on the product of those before it. So the order of the axes makes no difference exactly if
-- none is empty or the others have a product that is a size. Unchecked dims with such extents are
-- read back.
theorem accepts_iff_volume (ls : List UInt64) :
    (Accepts ls ↔ (1 ≤ ls.length ∧ ls.length ≤ 4) ∧ volume ls ≤ maxElements ∧
      (0 ∈ ls → volume (leading ls) ≤ Size.max)) ∧
    ((∀ ls', ls'.Perm ls → (Accepts ls' ↔ Accepts ls)) ↔
      (1 ≤ ls.length ∧ ls.length ≤ 4 → 0 ∈ ls → volume (filled ls) ≤ Size.max)) ∧
    ∀ (d : Dims) (after : Bytes), d.lengths = ls →
      (ofBytes (d.toBytes ++ after) = .ok (d, d.encodedSize) ↔ Accepts ls) := by
  have hfits : Fits ls ↔ volume ls ≤ maxElements ∧ (0 ∈ ls → volume (leading ls) ≤ Size.max) :=
    ⟨fun h => ⟨h.volume_le, h.leading_le⟩, fun h => ⟨h.left, h.right⟩⟩
  refine ⟨?accepted, ?ordered, ?reread⟩
  case accepted => rw [accepts_iff_fits, hfits]
  case ordered =>
    by_cases hrank : 1 ≤ ls.length ∧ ls.length ≤ 4
    case pos =>
      rw [imp_iff_right hrank, ← forall_perm_fits_iff]
      refine forall₂_congr fun ls' hperm => ?_
      have hrank' : 1 ≤ ls'.length ∧ ls'.length ≤ 4 := hperm.length_eq ▸ hrank
      rw [accepts_iff_fits, accepts_iff_fits, and_iff_right hrank, and_iff_right hrank']
    case neg =>
      refine iff_of_true (fun ls' hperm => ?_) fun h => absurd h hrank
      rw [accepts_iff_fits, accepts_iff_fits, hperm.length_eq]
      simp only [hrank, false_and]
  case reread =>
    rintro d after rfl
    rw [ofBytes_toBytes_iff, accepts_iff_fits]
    exact (and_iff_right ⟨d.rank_pos, d.rank_le⟩).symm

-- Two axes of `2 ^ 32` behind an empty one, which are not accepted in every order.
theorem accepts_iff_volume_emptyFirst :
    Accepts [0, 4294967296, 4294967296] ∧
      ¬∀ ls, ls.Perm [0, 4294967296, 4294967296] →
        (Accepts ls ↔ Accepts [0, 4294967296, 4294967296]) := by
  have ⟨haccepts, hordered, _⟩ := accepts_iff_volume [0, 4294967296, 4294967296]
  refine ⟨haccepts.mpr ⟨by decide, by decide, by decide⟩, fun h => ?_⟩
  exact absurd (hordered.mp h (by decide) (by decide)) (by decide)

-- With the empty axis last they hold no element either, but the product leaves the word before it.
theorem not_accepts_iff_volume :
    ¬∀ ls, Accepts ls ↔ (1 ≤ ls.length ∧ ls.length ≤ 4) ∧ volume ls ≤ maxElements := by
  intro hall
  have haccepts := (hall [4294967296, 4294967296, 0]).mpr ⟨by decide, by decide⟩
  have hleading := (accepts_iff_fits.mp haccepts).right.leading_le (by decide)
  exact absurd hleading (by decide)

end Dims
end GridPress

import GridPress.Digits

namespace GridPress

abbrev Bytes := List UInt8

namespace Bytes

-- The number with the bytes `bs`, least significant first.
def toNat (bs : Bytes) : Nat :=
  bs.foldr (fun b x => b.toNat + 256 * x) 0

-- The low `n` bytes of `x`, least significant first.
def ofNat : Nat → Nat → Bytes
  | 0, _ => []
  | n + 1, x => UInt8.ofNat x :: ofNat n (x / 256)

-- The first `k` pieces of `bs`, each of `n` bytes.
def chunks (n : Nat) : Nat → Bytes → List Bytes
  | 0, _ => []
  | k + 1, bs => bs.take n :: chunks n k (bs.drop n)

-- The number read from bytes whose first one is the most significant.
def toNatBig (bs : Bytes) : Nat :=
  Digits.value 256 (bs.map UInt8.toNat)

-- The low `n` bytes of `x`, most significant first.
def ofNatBig (n x : Nat) : Bytes :=
  (Digits.expand 256 n x).map UInt8.ofNat

@[simp]
theorem length_ofNat (n x : Nat) : (ofNat n x).length = n := by
  induction n generalizing x with
  | zero => rfl
  | succ n ih => simp [ofNat, ih]

@[simp]
theorem length_ofNatBig (n x : Nat) : (ofNatBig n x).length = n := by
  simp [ofNatBig]

@[simp]
theorem length_chunks (n k : Nat) (bs : Bytes) : (chunks n k bs).length = k := by
  induction k generalizing bs with
  | zero => rfl
  | succ k ih => simp [chunks, ih]

theorem toNat_lt (bs : Bytes) : bs.toNat < 256 ^ bs.length := by
  induction bs with
  | nil => simp [toNat]
  | cons b bs ih =>
    have := b.toNat_lt
    simp only [toNat, List.foldr_cons, List.length_cons, Nat.pow_succ] at *
    omega

theorem toNat_ofNat (n x : Nat) : (ofNat n x).toNat = x % 256 ^ n := by
  induction n generalizing x with
  | zero => simp [ofNat, toNat, Nat.mod_one]
  | succ n ih =>
    have h := ih (x / 256)
    simp only [ofNat, toNat, List.foldr_cons] at *
    rw [h, Nat.pow_succ, Nat.mul_comm (256 ^ n), Nat.mod_mul]
    simp

theorem ofNat_toNat (bs : Bytes) : ofNat bs.length bs.toNat = bs := by
  induction bs with
  | nil => rfl
  | cons b bs ih =>
    have hb := b.toNat_lt
    have h₁ : toNat (b :: bs) / 256 = toNat bs := by
      simp only [toNat, List.foldr_cons]
      omega
    have h₂ : UInt8.ofNat (toNat (b :: bs)) = b := by
      apply UInt8.toNat_inj.1
      simp only [toNat, List.foldr_cons, UInt8.toNat_ofNat']
      omega
    simp [ofNat, h₁, h₂, ih]

theorem flatten_chunks (n k : Nat) {bs : Bytes} (h : bs.length = n * k) :
    (chunks n k bs).flatten = bs := by
  induction k generalizing bs with
  | zero => simp [chunks, List.length_eq_zero_iff.1 (by simpa using h)]
  | succ k ih =>
    have : (bs.drop n).length = n * k := by
      rw [List.length_drop, h, Nat.mul_succ]
      omega
    simp [chunks, ih this]

end Bytes
end GridPress

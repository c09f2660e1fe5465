import GridPress.Digits

namespace GridPress.Size

def max : Nat := 2 ^ 64 - 1

-- The most bytes that an array in memory can have.
def maxArray : Nat := 2 ^ 63 - 1

def clamp (n : Nat) : Nat :=
  min n max

-- The product, unless it leaves the word.
def mul? (m n : Nat) : Option Nat :=
  if m * n ≤ max then some (m * n) else none

theorem clamp_eq_of_le {n : Nat} (h : n ≤ max) : clamp n = n :=
  Nat.min_eq_left h

theorem mul?_eq_some_iff {m n k : Nat} : mul? m n = some k ↔ m * n ≤ max ∧ m * n = k := by
  simp [mul?]

end GridPress.Size

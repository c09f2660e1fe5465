-- A power of naturals is the core one, also where a library offers another.
attribute [instance (high), default_instance (high + 1)] instPowNat

namespace GridPress.Digits

-- The number whose digits in base `b` are `ds`.
def value (b : Nat) (ds : List Nat) : Nat :=
  ds.foldl (fun x d => x * b + d) 0

-- The last `n` digits of `x` in base `b`.
def expand (b n x : Nat) : List Nat :=
  go n x []
where
  go : Nat → Nat → List Nat → List Nat
    | 0, _, ds => ds
    | n + 1, x, ds => go n (x / b) (x % b :: ds)

variable {b : Nat}

theorem expand_go_eq (n x : Nat) (ds : List Nat) : expand.go b n x ds = expand b n x ++ ds := by
  induction n generalizing x ds with
  | zero => simp [expand, expand.go]
  | succ n ih =>
    have h₁ := ih (x / b) (x % b :: ds)
    have h₂ := ih (x / b) [x % b]
    simp only [expand, expand.go] at *
    simp [h₁, h₂]

@[simp]
theorem expand_zero (x : Nat) : expand b 0 x = [] := rfl

theorem expand_succ (n x : Nat) : expand b (n + 1) x = expand b n (x / b) ++ [x % b] :=
  expand_go_eq n (x / b) [x % b]

@[simp]
theorem length_expand (n x : Nat) : (expand b n x).length = n := by
  induction n generalizing x with
  | zero => rfl
  | succ n ih => simp [expand_succ, ih]

theorem lt_of_mem_expand {n x d : Nat} (hb : 0 < b) (h : d ∈ expand b n x) : d < b := by
  induction n generalizing x with
  | zero => simp at h
  | succ n ih =>
    rcases List.mem_append.1 (expand_succ n x ▸ h) with h | h
    · exact ih h
    · simp only [List.mem_singleton] at h
      exact h ▸ Nat.mod_lt _ hb

@[simp]
theorem value_nil : value b [] = 0 := rfl

theorem value_concat (ds : List Nat) (d : Nat) : value b (ds ++ [d]) = value b ds * b + d := by
  simp [value]

theorem value_expand (n x : Nat) : value b (expand b n x) = x % b ^ n := by
  induction n generalizing x with
  | zero => simp [Nat.mod_one]
  | succ n ih =>
    rw [expand_succ, value_concat, ih, Nat.pow_succ, Nat.mul_comm (b ^ n), Nat.mod_mul]
    rw [Nat.mul_comm, Nat.add_comm]

theorem expand_value {ds : List Nat} (h : ∀ d ∈ ds, d < b) :
    expand b ds.length (value b ds) = ds := by
  induction hn : ds.length generalizing ds with
  | zero => simp [List.length_eq_zero_iff.1 hn]
  | succ n ih =>
    obtain ⟨init, last, rfl⟩ : ∃ init last, ds = init ++ [last] :=
      ⟨ds.dropLast, ds.getLast (by rintro rfl; simp at hn), (List.dropLast_concat_getLast _).symm⟩
    have hlast : last < b := h last (by simp)
    have hlen : init.length = n := by simpa using hn
    rw [expand_succ, value_concat, Nat.mul_comm, Nat.mul_add_div (by omega),
      Nat.div_eq_of_lt hlast, Nat.mul_add_mod, Nat.mod_eq_of_lt hlast, Nat.add_zero,
      ih (fun d hd => h d (by simp [hd])) hlen]

end GridPress.Digits

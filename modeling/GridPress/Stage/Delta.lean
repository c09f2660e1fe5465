import GridPress.Element

namespace GridPress.Stage.Delta

def name : String := "delta"

-- The differences of `ws` modulo `m`, the first one to `previous`.
def differences (m : Nat) : Nat → List Nat → List Nat
  | _, [] => []
  | previous, w :: ws => (w + (m - previous % m)) % m :: differences m w ws

-- The running sums of `ds` modulo `m`, starting from `previous`.
def sums (m : Nat) : Nat → List Nat → List Nat
  | _, [] => []
  | previous, d :: ds =>
    let w := (previous + d) % m
    w :: sums m w ds

-- Runs `f` over the words of `src`, which are not those of floating-point numbers.
def transform (f : Nat → List Nat → List Nat) (t : Datatype) (dims : Dims) (src : Bytes) :
    Result Bytes :=
  if t.isFloat then
    .error (.invalidChain (.unsupported name t))
  else do
    let ws ← Element.decodeSized t dims src
    return Element.join t (f (2 ^ t.width) ws)

def precondition : Datatype → Dims → Bytes → Result Bytes :=
  transform fun m => differences m 0

def restore : Datatype → Dims → Bytes → Result Bytes :=
  transform fun m => sums m 0

theorem sums_differences {m : Nat} {ws : List Nat} (h : ∀ w ∈ ws, w < m) {previous : Nat}
    (hp : previous < m) : sums m previous (differences m previous ws) = ws := by
  induction ws generalizing previous with
  | nil => rfl
  | cons w ws ih =>
    have hw : w < m := h w (by simp)
    have hd : (previous + (w + (m - previous % m)) % m) % m = w := by
      rw [Nat.mod_eq_of_lt hp, Nat.add_mod_mod,
        show previous + (w + (m - previous)) = w + m by omega, Nat.add_mod_right,
        Nat.mod_eq_of_lt hw]
    simp only [differences, sums, hd]
    rw [ih (fun w hw => h w (by simp [hw])) hw]

end GridPress.Stage.Delta

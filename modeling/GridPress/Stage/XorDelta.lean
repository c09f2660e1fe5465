import GridPress.Element

namespace GridPress.Stage.XorDelta

def name : String := "xor_delta"

-- The changes from each of `ws` to the next, the first one from `previous`.
def changes : Nat → List Nat → List Nat
  | _, [] => []
  | previous, w :: ws => (w ^^^ previous) :: changes w ws

-- The words that the changes `ds` lead to, starting from `previous`.
def follow : Nat → List Nat → List Nat
  | _, [] => []
  | previous, d :: ds =>
    let w := previous ^^^ d
    w :: follow w ds

def transform (f : Nat → List Nat → List Nat) (t : Datatype) (dims : Dims) (src : Bytes) :
    Result Bytes := do
  let ws ← Element.decodeSized t dims src
  return Element.join t (f 0 ws)

def precondition : Datatype → Dims → Bytes → Result Bytes :=
  transform changes

def restore : Datatype → Dims → Bytes → Result Bytes :=
  transform follow

theorem follow_changes (previous : Nat) (ws : List Nat) :
    follow previous (changes previous ws) = ws := by
  induction ws generalizing previous with
  | nil => rfl
  | cons w ws ih =>
    have h : previous ^^^ (w ^^^ previous) = w := by
      rw [Nat.xor_comm w, ← Nat.xor_assoc, Nat.xor_self, Nat.zero_xor]
    simp [changes, follow, h, ih]

theorem changes_follow (previous : Nat) (ds : List Nat) :
    changes previous (follow previous ds) = ds := by
  induction ds generalizing previous with
  | nil => rfl
  | cons d ds ih =>
    have h : (previous ^^^ d) ^^^ previous = d := by
      rw [Nat.xor_comm previous, Nat.xor_assoc, Nat.xor_self, Nat.xor_zero]
    simp [changes, follow, h, ih]

end GridPress.Stage.XorDelta

import GridPress.Error

namespace GridPress.Element

-- The number that a word of type `t` stands for.
def toDouble (t : Datatype) (w : Nat) : Double :=
  match t.kind? with
  | some k => k.toDouble w
  | none => .ofInt (t.toInt w)

-- The words in `bs`. Bytes that do not fill a word are left out.
def split (t : Datatype) (bs : Bytes) : List Nat :=
  (Bytes.chunks t.size (bs.length / t.size) bs).map Bytes.toNat

def join (t : Datatype) (ws : List Nat) : Bytes :=
  ws.flatMap (Bytes.ofNat t.size)

def decode (t : Datatype) (bs : Bytes) : Result (List Nat) :=
  if bs.length % t.size = 0 then
    .ok (split t bs)
  else
    .error (.buffer (.ragged bs.length t))

-- The words in `bs`, which must be as many as `dims` describes.
def decodeAs (t : Datatype) (dims : Dims) (bs : Bytes) : Result (List Nat) := do
  let ws ← decode t bs
  if ws.length = dims.count then
    .ok ws
  else
    .error (.buffer (.elements ws.length dims))

-- The words in `bs`, which must have the size that `dims` describes.
def decodeSized (t : Datatype) (dims : Dims) (bs : Bytes) : Result (List Nat) :=
  if bs.length = dims.byteSize t then
    .ok (split t bs)
  else
    .error (.buffer (.words bs.length dims t))

theorem length_join (t : Datatype) (ws : List Nat) : (join t ws).length = t.size * ws.length := by
  induction ws with
  | nil => rfl
  | cons w ws ih =>
    simp only [join, List.flatMap_cons, List.length_append, Bytes.length_ofNat] at *
    rw [ih, List.length_cons, Nat.mul_succ, Nat.add_comm]

theorem length_split (t : Datatype) (bs : Bytes) : (split t bs).length = bs.length / t.size := by
  simp [split]

end GridPress.Element

import GridPress.Error

namespace GridPress

-- Every stage reads the region that the stage before wrote and writes to the other one, and then
-- the two change roles. The first stage reads the source.
structure Scratch where
  source : Bytes
  front  : Bytes := []
  back   : Bytes := []
  loaded : Bool  := false
deriving DecidableEq

namespace Scratch

-- Both regions start out as nothing, with room for `capacity` bytes, which does not show. More room
-- than an array can have is a crash, and there is no scratch space then.
def new (source : Bytes) (capacity : Nat) : Result Scratch :=
  if capacity ≤ Size.maxArray then .ok { source } else .error (.crash "capacity overflow")

-- A stage as it is run: given its input and what the region holds that it writes to, what the
-- region holds then and the outcome. It may have written something even if it fails.
abbrev Writer (α : Type) := Bytes → Bytes → Bytes × Result α

-- A stage that only adds to the region. What it adds does not depend on what is there.
abbrev Stage (α : Type) := Bytes → Bytes × Result α

def Stage.writer {α : Type} (stage : Stage α) : Writer α := fun input region =>
  let (written, outcome) := stage input
  (region ++ written, outcome)

variable (s : Scratch) {α : Type}

-- What the last stage wrote, or the source if no stage has run.
def current : Bytes :=
  if s.loaded then s.front else s.source

-- What an earlier stage left in the region that is not read is thrown away.
def clear : Scratch :=
  { s with back := [] }

-- Runs a stage. The regions change roles only if it succeeds.
def write (stage : Writer α) : Result α × Scratch :=
  let s := s.clear
  let (written, outcome) := stage s.current s.back
  match outcome with
  | .ok a => (.ok a, { s with front := written, back := s.front, loaded := true })
  | .error e => (.error e, { s with back := written })

def run (stage : Stage α) : Result α × Scratch :=
  s.write stage.writer

-- Adds to the current region, for which the source is copied if no stage has run.
def append (bs : Bytes) : Scratch :=
  { s with front := s.current ++ bs, loaded := true }

def output : Bytes :=
  if s.loaded then s.front else s.source

@[simp]
theorem current_append (bs : Bytes) : (s.append bs).current = s.current ++ bs := rfl

theorem outcome_write (stage : Writer α) : (s.write stage).1 = (stage s.current []).2 := by
  have hclear : stage s.clear.current s.clear.back = stage s.current [] := rfl
  simp only [write, hclear]
  split <;> simp [*]

theorem current_write_of_ok {stage : Writer α} {written : Bytes} {a : α}
    (h : stage s.current [] = (written, .ok a)) : (s.write stage).2.current = written := by
  have hclear : stage s.clear.current s.clear.back = (written, .ok a) := h
  simp only [write, hclear]
  rfl

theorem current_write_of_error {stage : Writer α} {written : Bytes} {e : Error}
    (h : stage s.current [] = (written, .error e)) : (s.write stage).2.current = s.current := by
  have hclear : stage s.clear.current s.clear.back = (written, .error e) := h
  simp only [write, hclear]
  rfl

theorem new_eq_ok_iff {source : Bytes} {capacity : Nat} {s : Scratch} :
    new source capacity = .ok s ↔ capacity ≤ Size.maxArray ∧ s = { source } := by
  unfold new
  split <;> simp [*, eq_comm]

end Scratch
end GridPress

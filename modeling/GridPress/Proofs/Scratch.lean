import GridPress.Scratch

namespace GridPress

namespace Scratch

-- What is done with a scratch space. Each stage has its own type of results.
inductive Operation where
  | append (bs : Bytes)
  | write {α : Type} (stage : Writer α)

-- What an operation answers. Only stages can fail.
inductive Reply where
  | appended
  | written {α : Type} (outcome : Result α)

def act (s : Scratch) : Operation → Reply × Scratch
  | .append bs => (.appended, s.append bs)
  | .write stage =>
    let (outcome, s) := s.write stage
    (.written outcome, s)

end Scratch

open Scratch (Operation Reply)

-- The same operations on a single buffer. A stage is given what it holds and an empty region, and
-- what the stage writes takes its place if the stage succeeds.
def Buffer.act (bs : Bytes) : Operation → Reply × Bytes
  | .append more => (.appended, bs ++ more)
  | .write stage =>
    let (written, outcome) := stage bs []
    (.written outcome, match outcome with
      | .ok _ => written
      | .error _ => bs)

section Perform

variable {σ : Type} (act : σ → Operation → Reply × σ)

-- Performs operations one after the other.
def perform : σ → List Operation → List Reply × σ
  | s, [] => ([], s)
  | s, op :: ops =>
    let (reply, s) := act s op
    let (replies, s) := perform s ops
    (reply :: replies, s)

theorem perform_cons (s : σ) (op : Operation) (ops : List Operation) :
    perform act s (op :: ops) =
      ((act s op).1 :: (perform act (act s op).2 ops).1, (perform act (act s op).2 ops).2) :=
  rfl

end Perform

namespace Scratch

variable {s : Scratch} {source bs : Bytes} {op : Operation}

-- The scratch space for `source` shows the bytes `bs`, whatever else is in its regions.
structure Shows (s : Scratch) (source bs : Bytes) : Prop where
  source  : s.source = source
  current : s.current = bs

theorem source_write {α : Type} (s : Scratch) (stage : Writer α) :
    (s.write stage).2.source = s.source := by
  unfold write
  dsimp only
  split <;> rfl

theorem shows_append (h : s.Shows source bs) (more : Bytes) :
    (s.append more).Shows source (bs ++ more) where
  source := h.source
  current := by rw [current_append, h.current]

-- What the stage has written shows only if it succeeds.
theorem shows_write {α : Type} (h : s.Shows source bs) (stage : Writer α) :
    (s.write stage).2.Shows source (Buffer.act bs (.write stage)).2 := by
  refine ⟨(source_write s stage).trans h.source, ?_⟩
  cases hstage : stage bs []
  case mk written outcome =>
    rw [Buffer.act, hstage]
    rw [← h.current] at hstage
    cases outcome
    case ok a => exact current_write_of_ok s hstage
    case error e => exact (current_write_of_error s hstage).trans h.current

theorem act_refines (h : s.Shows source bs) (op : Operation) :
    (s.act op).1 = (Buffer.act bs op).1 ∧ (s.act op).2.Shows source (Buffer.act bs op).2 := by
  cases op
  case append more => exact ⟨rfl, shows_append h more⟩
  case write α stage =>
    have houtcome : (s.write stage).1 = (stage bs []).2 := by rw [outcome_write, h.current]
    exact ⟨congrArg Reply.written houtcome, shows_write h stage⟩

theorem perform_shows (h : s.Shows source bs) (ops : List Operation) :
    (perform act s ops).1 = (perform Buffer.act bs ops).1 ∧
      (perform act s ops).2.Shows source (perform Buffer.act bs ops).2 := by
  induction ops generalizing s bs
  case nil => exact ⟨rfl, h⟩
  case cons op ops ih =>
    have ⟨hreply, hshows⟩ := act_refines h op
    have ⟨hreplies, hlast⟩ := ih hshows
    rw [perform_cons, perform_cons, hreply, hreplies]
    exact ⟨rfl, hlast⟩

theorem perform_refines (source : Bytes) (capacity : Nat) (ops : List Operation) :
    ((∃ s, new source capacity = .ok s) ↔ capacity ≤ Size.maxArray) ∧
    ∀ s, new source capacity = .ok s →
      let done := perform act s ops
      let single := perform Buffer.act source ops
      done.1 = single.1 ∧ done.2.current = single.2 ∧ done.2.output = single.2 ∧
        done.2.source = source := by
  simp only [new_eq_ok_iff]
  refine ⟨⟨fun ⟨_, h, _⟩ => h, fun h => ⟨_, h, rfl⟩⟩, ?_⟩
  rintro s ⟨-, rfl⟩
  have hstart : ({ source } : Scratch).Shows source source := ⟨rfl, rfl⟩
  have ⟨hreplies, hshows⟩ := perform_shows hstart ops
  exact ⟨hreplies, hshows.current, hshows.current, hshows.source⟩

-- What the stage in the middle has written before it failed is not there for the last one.
example :
    let reverse : Scratch.Writer Unit := fun input region => (region ++ input.reverse, .ok ())
    let fail : Scratch.Writer Unit := fun input region =>
      (region ++ input, .error (.buffer .noMagic))
    (perform act { source := [1] }
      [.append [2], .write fail, .write reverse, .write fail, .write reverse]).2.current = [1, 2] :=
  rfl

end Scratch
end GridPress

import GridPress.Proofs.Results
import GridPress.Stream.Compress

namespace GridPress.Stream

section Steps

variable {α β : Type} {c : Context} {dest : Bytes}

-- A step that looks at the context and the destination first.
theorem run_bind_state (f : Context × Bytes → DestinationM α) :
    (get >>= f).run.run (c, dest) = (f (c, dest)).run.run (c, dest) := rfl

-- What a step on the context has changed before it fails stays changed.
theorem run_bind_onContext (x : ContextM α) (f : α → DestinationM β) :
    (onContext x >>= f).run.run (c, dest) = match x.run.run c with
      | (.ok a, c') => (f a).run.run (c', dest)
      | (.error e, c') => (.error e, c', dest) := by
  have hx : (onContext x).run.run (c, dest) = ((x.run.run c).1, (x.run.run c).2, dest) := rfl
  rw [ExceptT.run_bind, StateT.run_bind, hx]
  cases x.run.run c
  case mk result c' => cases result <;> rfl

end Steps

variable [Codecs] {env : Environment} {dims : Dims} {src dest dest' : Bytes} {c c' : Context}
  {result : Result Nat}

theorem run_fill (c : Context) (dest : Bytes) :
    (fill env dims src).run.run (c, dest) =
      if dest.length < requiredSize c.datatype dims then
        (.error (.memory (requiredSize c.datatype dims) dest.length), c, dest)
      else match (compress env dims src).run.run c with
        | (.ok stream, c') =>
          if dest.length < stream.length then
            (.error (.memory stream.length dest.length), c', dest)
          else
            (.ok stream.length, c', stream ++ dest.drop stream.length)
        | (.error e, c') => (.error e, c', dest) := by
  simp only [fill, run_bind_state]
  split
  case isTrue => rfl
  case isFalse =>
    rw [run_bind_onContext]
    cases (compress env dims src).run.run c
    case mk result c' =>
      cases result
      case error => rfl
      case ok stream =>
        by_cases hstream : dest.length < stream.length
        case pos =>
          simp only [if_pos hstream]
          rfl
        case neg =>
          simp only [if_neg hstream]
          rfl

-- A destination is filled by way of what compression does with the context. Only the last of four
-- cases writes to it.
inductive Fills (env : Environment) (dims : Dims) (src : Bytes) (c : Context) (dest : Bytes) :
    Result Nat → Context → Bytes → Prop
  | short (hdest : dest.length < requiredSize c.datatype dims) :
      Fills env dims src c dest (.error (.memory (requiredSize c.datatype dims) dest.length)) c dest
  | failed {e : Error} {c' : Context} (hdest : requiredSize c.datatype dims ≤ dest.length)
      (hcompress : (compress env dims src).run.run c = (.error e, c')) :
      Fills env dims src c dest (.error e) c' dest
  | long {stream : Bytes} {c' : Context} (hdest : requiredSize c.datatype dims ≤ dest.length)
      (hcompress : (compress env dims src).run.run c = (.ok stream, c'))
      (hstream : dest.length < stream.length) :
      Fills env dims src c dest (.error (.memory stream.length dest.length)) c' dest
  | written {stream dest' : Bytes} {c' : Context}
      (hdest : requiredSize c.datatype dims ≤ dest.length)
      (hcompress : (compress env dims src).run.run c = (.ok stream, c'))
      (hlength : dest'.length = dest.length)
      (hstream : dest'.take stream.length = stream)
      (hrest : dest'.drop stream.length = dest.drop stream.length) :
      Fills env dims src c dest (.ok stream.length) c' dest'

omit [Codecs] in
-- The front that is written and the rest that is left make up a destination.
theorem eq_append_drop_iff {stream : Bytes} :
    stream.length ≤ dest.length ∧ dest' = stream ++ dest.drop stream.length ↔
      dest'.length = dest.length ∧ dest'.take stream.length = stream ∧
        dest'.drop stream.length = dest.drop stream.length := by
  constructor
  case mp =>
    rintro ⟨hle, rfl⟩
    refine ⟨?_, by simp, by simp⟩
    rw [List.length_append, List.length_drop, Nat.add_sub_cancel' hle]
  case mpr =>
    rintro ⟨hlength, hstream, hrest⟩
    refine ⟨?_, ?_⟩
    · rw [← hlength, ← hstream, List.length_take]
      exact Nat.min_le_right _ _
    · calc dest'
        _ = dest'.take stream.length ++ dest'.drop stream.length :=
          (List.take_append_drop _ _).symm
        _ = stream ++ dest.drop stream.length := by rw [hstream, hrest]

theorem fill_eq_iff :
    (fill env dims src).run.run (c, dest) = (result, c', dest') ↔
      Fills env dims src c dest result c' dest' := by
  constructor
  case mp =>
    intro h
    rw [run_fill] at h
    split at h
    case isTrue hdest =>
      cases h
      exact .short hdest
    case isFalse hdest =>
      have hdest := Nat.not_lt.mp hdest
      split at h
      case h_2 hcompress =>
        cases h
        exact .failed hdest hcompress
      case h_1 stream d hcompress =>
        split at h
        case isTrue hstream =>
          cases h
          exact .long hdest hcompress hstream
        case isFalse hstream =>
          cases h
          have ⟨hlength, htake, hrest⟩ := eq_append_drop_iff.mp ⟨Nat.not_lt.mp hstream, rfl⟩
          exact .written hdest hcompress hlength htake hrest
  case mpr =>
    intro h
    rw [run_fill]
    cases h
    case short hdest => rw [if_pos hdest]
    case failed hdest hcompress => rw [if_neg (Nat.not_lt.mpr hdest), hcompress]
    case long hdest hstream hcompress =>
      simp only [if_neg (Nat.not_lt.mpr hdest), hcompress, if_pos hstream]
    case written hdest hcompress hlength htake hrest =>
      have ⟨hstream, h⟩ := eq_append_drop_iff.mpr ⟨hlength, htake, hrest⟩
      simp only [if_neg (Nat.not_lt.mpr hdest), hcompress, if_neg (Nat.not_lt.mpr hstream), h]

end GridPress.Stream

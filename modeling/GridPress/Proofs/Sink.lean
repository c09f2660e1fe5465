import GridPress.Proofs.Results
import GridPress.Sink

namespace GridPress.SinkM

variable {α β : Type} {x : SinkM α} {f : α → SinkM β} {dest dest' : Bytes} {e : Error}

theorem run_pure (a : α) : (pure a : SinkM α).run.run dest = (.ok a, dest) := rfl

theorem run_throw (e : Error) : (throw e : SinkM α).run.run dest = (.error e, dest) := rfl

theorem run_write (bs : Bytes) : (write bs).run.run dest = (.ok (), dest ++ bs) := rfl

theorem run_bind_of_ok {a : α} (hx : x.run.run dest = (.ok a, dest')) (f : α → SinkM β) :
    (x >>= f).run.run dest = (f a).run.run dest' := by
  rw [ExceptT.run_bind, StateT.run_bind, hx]
  rfl

-- A step that fails leaves what it has written, and the steps behind it are not taken.
theorem run_bind_of_error (hx : x.run.run dest = (.error e, dest')) (f : α → SinkM β) :
    (x >>= f).run.run dest = (.error e, dest') := by
  rw [ExceptT.run_bind, StateT.run_bind, hx]
  rfl

-- The outcome if `bs` is written before.
def behind (bs : Bytes) (r : Result (Bytes × α)) : Result (Bytes × α) :=
  (fun (out, a) => (bs ++ out, a)) <$> r

@[simp]
theorem behind_ok (bs out : Bytes) (a : α) : behind bs (.ok (out, a)) = .ok (bs ++ out, a) := rfl

@[simp]
theorem behind_error (bs : Bytes) (e : Error) :
    behind bs (.error e : Result (Bytes × α)) = .error e := rfl

@[simp]
theorem behind_bind (bs : Bytes) (y : Result α) (s : α → Result (Bytes × β)) :
    behind bs (y >>= s) = y >>= fun a => behind bs (s a) := by
  cases y <;> rfl

-- Wherever the step is run, it succeeds and fails as `r` does, and it adds the bytes of `r`. If it
-- fails, it may have added anything, but everywhere the same.
inductive Writes (x : SinkM α) : Result (Bytes × α) → Prop
  | ok (out : Bytes) (a : α) (h : ∀ dest, x.run.run dest = (.ok a, dest ++ out)) :
    Writes x (.ok (out, a))
  | error (out : Bytes) (e : Error) (h : ∀ dest, x.run.run dest = (.error e, dest ++ out)) :
    Writes x (.error e)

namespace Writes

variable {r : Result (Bytes × α)}

theorem pure (a : α) : Writes (pure a) (.ok ([], a)) :=
  ok _ _ fun _ => by rw [run_pure, List.append_nil]

theorem throw (e : Error) : Writes (throw e : SinkM α) (.error e) :=
  error [] _ fun _ => by rw [run_throw, List.append_nil]

theorem write (bs : Bytes) : Writes (write bs) (.ok (bs, ())) :=
  ok _ _ fun _ => run_write bs

theorem bind {s : α → Result (Bytes × β)} (hx : Writes x r) (hf : ∀ a, Writes (f a) (s a)) :
    Writes (x >>= f) (r >>= fun (out, a) => behind out (s a)) := by
  cases hx
  case error out e hx => exact error out e fun dest => run_bind_of_error (hx dest) f
  case ok out a hx =>
    have hfa := hf a
    change Writes (x >>= f) (behind out (s a))
    generalize s a = r at hfa
    cases hfa
    case ok out' b hf =>
      exact ok _ _ fun dest => by rw [run_bind_of_ok (hx dest), hf, List.append_assoc]
    case error out' e hf =>
      refine error (out ++ out') _ fun dest => ?_
      rw [run_bind_of_ok (hx dest), hf, List.append_assoc]

theorem write_bind (bs : Bytes) (hx : Writes x r) :
    Writes (SinkM.write bs >>= fun _ => x) (behind bs r) :=
  (write bs).bind fun _ => hx

-- A step that neither reads the destination nor writes to it.
theorem lift_bind {y : Result α} {s : α → Result (Bytes × β)} (hf : ∀ a, Writes (f a) (s a)) :
    Writes (liftExcept y >>= f) (y >>= s) := by
  cases y
  case ok a => exact hf a
  case error e => exact throw e

-- Nothing is written behind a check that fails.
theorem guard {p : Prop} [Decidable p] {f : Unit → SinkM α} {y : Unit → Result β}
    {s : β → Result (Bytes × α)} (hf : Writes (f ()) (y () >>= s)) :
    Writes (if p then (MonadExcept.throw e : SinkM Unit) >>= f else f ())
      ((if p then (MonadExcept.throw e : Result Unit) >>= y else y ()) >>= s) := by
  split
  case isTrue => exact throw e
  case isFalse => exact hf

theorem writeWord_bind (t : Datatype) (w : Nat) (hx : Writes x r) :
    Writes (writeWord t w >>= fun _ => x) (behind (Bytes.ofNat t.size w) r) :=
  write_bind _ hx

-- The words that there are before a failure are written and do not count.
theorem writeEach (t : Datatype) (y : α → Result Nat) (as : List α) :
    Writes (writeEach t y as) (do return (Element.join t (← as.mapM y), ())) := by
  induction as
  case nil => exact pure ()
  case cons a as ih =>
    rw [List.mapM_cons, bind_assoc]
    refine lift_bind fun w => ?_
    simpa [Element.join] using ih.writeWord_bind t w

theorem writeWords (t : Datatype) (ws : List Nat) :
    Writes (writeWords t ws) (.ok (Element.join t ws, ())) := by
  have hwords : ws.mapM (.ok : Nat → Result Nat) = .ok ws :=
    (Result.mapM_eq_ok fun _ _ => rfl).trans (congrArg Except.ok (List.map_id ws))
  have h := writeEach t .ok ws
  rwa [hwords] at h

end Writes

-- The step adds to `dest` what it adds to an empty destination, and its outcome is the same.
def Appends (x : SinkM α) (dest : Bytes) : Prop :=
  x.run.run dest = ((x.run.run []).1, dest ++ (x.run.run []).2)

-- On an empty destination the step succeeds and fails as `r` does, and if it succeeds, the bytes of
-- `r` are there.
structure Makes (x : SinkM α) (r : Result (Bytes × α)) : Prop where
  ok_iff    : ∀ out a, x.run.run [] = (.ok a, out) ↔ r = .ok (out, a)
  error_iff : ∀ e, (x.run.run []).1 = .error e ↔ r = .error e

namespace Writes

variable {r : Result (Bytes × α)}

theorem appends (h : Writes x r) (dest : Bytes) : x.Appends dest := by
  unfold Appends
  cases h <;> simp only [*, List.nil_append]

theorem makes (h : Writes x r) : x.Makes r := by
  cases h
  case ok out a h =>
    refine ⟨fun out' a' => ?_, fun e => ?_⟩ <;> rw [h]
    · exact Prod.ext_iff.trans (by simp [and_comm])
    · simp
  case error out e h =>
    refine ⟨fun out' a' => ?_, fun e' => ?_⟩ <;> rw [h]
    · exact Prod.ext_iff.trans (by simp)
    · simp

theorem frames (h : Writes x r) (dest : Bytes) : x.Appends dest ∧ x.Makes r :=
  ⟨h.appends dest, h.makes⟩

end Writes
end GridPress.SinkM

import GridPress.Context
import Mathlib.Data.List.Forall2

namespace GridPress

namespace Result

variable {α β : Type} {e : Error}

@[simp]
theorem pure_eq (a : α) : (pure a : Result α) = .ok a := rfl

@[simp]
theorem throw_eq (e : Error) : (throw e : Result α) = .error e := rfl

@[simp]
theorem ok_bind (a : α) (f : α → Result β) : (Except.ok a : Result α) >>= f = f a := rfl

@[simp]
theorem error_bind (f : α → Result β) : (Except.error e : Result α) >>= f = .error e := rfl

@[simp]
theorem bind_eq_ok_iff {x : Result α} {f : α → Result β} {b : β} :
    x >>= f = .ok b ↔ ∃ a, x = .ok a ∧ f a = .ok b := by
  cases x <;> simp

theorem bind_eq_error_iff {x : Result α} {f : α → Result β} :
    x >>= f = .error e ↔ x = .error e ∨ ∃ a, x = .ok a ∧ f a = .error e := by
  cases x <;> simp

@[simp high]
theorem bind_unit_eq_ok_iff {x : Result Unit} {f : Unit → Result β} {b : β} :
    x >>= f = .ok b ↔ x = .ok () ∧ f () = .ok b := by
  cases x <;> simp

-- No step is taken behind a check that fails.
theorem guard_eq_ok_iff {p : Prop} [Decidable p] {f : Unit → Result β} {b : β} :
    (if p then (throw e : Result Unit) >>= f else f ()) = .ok b ↔ ¬p ∧ f () = .ok b := by
  split
  case isTrue h => exact ⟨nofun, fun hb => absurd h hb.left⟩
  case isFalse h => exact (and_iff_right h).symm

@[simp]
theorem map_eq_ok_iff {x : Result α} {f : α → β} {b : β} :
    f <$> x = .ok b ↔ ∃ a, x = .ok a ∧ f a = b := by
  cases x <;> simp [Functor.map, Except.map]

theorem mapM_eq_ok {f : α → Result β} {g : α → β} {as : List α} (h : ∀ a ∈ as, f a = .ok (g a)) :
    as.mapM f = .ok (as.map g) := by
  induction as
  case nil => rfl
  case cons a as ih =>
    have has := ih fun a' ha' => h a' (List.mem_cons_of_mem _ ha')
    rw [List.mapM_cons, h a List.mem_cons_self, has]
    rfl

theorem mapM_eq_ok_iff {f : α → Result β} {as : List α} {bs : List β} :
    as.mapM f = .ok bs ↔ List.Forall₂ (fun a b => f a = .ok b) as bs := by
  induction as generalizing bs
  case nil => simp [eq_comm]
  case cons a as ih =>
    simp only [List.mapM_cons, bind_eq_ok_iff, pure_eq, Except.ok.injEq, List.forall₂_cons_left_iff,
      ih]
    constructor
    case mp => exact fun ⟨b, hb, bs, hbs, h⟩ => ⟨b, bs, hb, hbs, h.symm⟩
    case mpr => exact fun ⟨b, bs, hb, hbs, h⟩ => ⟨b, hb, bs, hbs, h.symm⟩

theorem exists_of_mapM_eq_error {f : α → Result β} {as : List α} (h : as.mapM f = .error e) :
    ∃ a ∈ as, f a = .error e := by
  induction as
  case nil => contradiction
  case cons a as ih =>
    rw [List.mapM_cons, bind_eq_error_iff] at h
    cases h
    case inl h => exact ⟨a, List.mem_cons_self, h⟩
    case inr h =>
      have ⟨_, _, h⟩ := h
      cases bind_eq_error_iff.mp h
      case inl h =>
        have ⟨b, hb, hfb⟩ := ih h
        exact ⟨b, List.mem_cons_of_mem _ hb, hfb⟩
      case inr h =>
        have ⟨_, _, h⟩ := h
        contradiction

theorem exists_of_mem_mapM {f : α → Result β} {as : List α} {bs : List β} {b : β}
    (h : as.mapM f = .ok bs) (hb : b ∈ bs) : ∃ a ∈ as, f a = .ok b := by
  induction as generalizing bs
  case nil =>
    obtain rfl : [] = bs := by simpa using h
    contradiction
  case cons a as ih =>
    simp only [List.mapM_cons, bind_eq_ok_iff, pure_eq, Except.ok.injEq] at h
    obtain ⟨c, hc, cs, hcs, rfl⟩ := h
    cases List.mem_cons.mp hb
    case inl hb => exact ⟨a, by simp, hb ▸ hc⟩
    case inr hb =>
      have ⟨a', ha', h'⟩ := ih hcs hb
      exact ⟨a', by simp [ha'], h'⟩

end Result

namespace ContextM

variable {α β : Type} {c c₁ c₂ : Context}

@[simp]
theorem run_liftExcept (x : Result α) : (liftExcept x : ContextM α).run.run c = (x, c) := by
  cases x <;> rfl

-- A step that fails leaves what it has changed, and the steps behind it are not taken.
theorem run_bind (x : ContextM α) (f : α → ContextM β) :
    (x >>= f).run.run c = match x.run.run c with
      | (.ok a, c₁) => (f a).run.run c₁
      | (.error e, c₁) => (.error e, c₁) := by
  rw [ExceptT.run_bind, StateT.run_bind]
  cases x.run.run c
  case mk r c₁ => cases r <;> rfl

theorem run_bind_liftExcept (x : Result α) (f : α → ContextM β) :
    (liftExcept x >>= f).run.run c = match x with
      | .ok a => (f a).run.run c
      | .error e => (.error e, c) := by
  cases x <;> rfl

@[simp]
theorem run_bind_eq_ok_iff {x : ContextM α} {f : α → ContextM β} {b : β} :
    (x >>= f).run.run c = (.ok b, c₂) ↔
      ∃ a c₁, x.run.run c = (.ok a, c₁) ∧ (f a).run.run c₁ = (.ok b, c₂) := by
  rw [run_bind]
  cases x.run.run c
  case mk r c₁ =>
    cases r
    case ok a => exact ⟨fun h => ⟨a, c₁, rfl, h⟩, fun ⟨_, _, he, h⟩ => by cases he; exact h⟩
    case error e => exact ⟨nofun, fun ⟨_, _, he, _⟩ => nomatch he⟩

@[simp high]
theorem run_bind_liftExcept_eq_ok_iff {x : Result α} {f : α → ContextM β} {b : β} :
    (liftExcept x >>= f).run.run c = (.ok b, c₂) ↔
      ∃ a, x = .ok a ∧ (f a).run.run c = (.ok b, c₂) := by
  rw [run_bind_eq_ok_iff, run_liftExcept]
  constructor
  case mp =>
    intro ⟨a, _, hx, h⟩
    obtain ⟨rfl, rfl⟩ := Prod.mk.inj hx
    exact ⟨a, rfl, h⟩
  case mpr =>
    intro ⟨a, hx, h⟩
    exact ⟨a, c, by rw [hx], h⟩

@[simp high]
theorem run_bind_liftExcept_unit_eq_ok_iff {x : Result Unit} {f : Unit → ContextM β} {b : β} :
    (liftExcept x >>= f).run.run c = (.ok b, c₂) ↔
      x = .ok () ∧ (f ()).run.run c = (.ok b, c₂) := by
  rw [run_bind_liftExcept_eq_ok_iff]
  exact ⟨fun ⟨⟨⟩, hx, h⟩ => ⟨hx, h⟩, fun ⟨hx, h⟩ => ⟨(), hx, h⟩⟩

-- A step fails if its check fails, which leaves everything, or if a later step does.
theorem run_bind_liftExcept_eq_error_iff {x : Result α} {f : α → ContextM β} {e : Error} :
    (liftExcept x >>= f).run.run c = (.error e, c₂) ↔
      x = .error e ∧ c₂ = c ∨ ∃ a, x = .ok a ∧ (f a).run.run c = (.error e, c₂) := by
  rw [run_bind_liftExcept]
  cases x
  case ok a => simp
  case error e' => exact Prod.ext_iff.trans (by simp [eq_comm])

@[simp]
theorem run_liftExcept_eq_ok_iff {x : Result α} {a : α} :
    (liftExcept x : ContextM α).run.run c = (.ok a, c₂) ↔ x = .ok a ∧ c₂ = c := by
  rw [run_liftExcept]
  exact Prod.ext_iff.trans (by simp [eq_comm])

@[simp]
theorem run_bind_get (f : Context → ContextM α) :
    (get >>= f).run.run c = (f c).run.run c := rfl

@[simp]
theorem run_bind_set (f : PUnit → ContextM α) :
    (set c₁ >>= f).run.run c = (f ⟨⟩).run.run c₁ := rfl

@[simp]
theorem run_set_eq_ok_iff :
    (set c₁ : ContextM PUnit).run.run c = (.ok ⟨⟩, c₂) ↔ c₂ = c₁ :=
  Prod.ext_iff.trans ⟨fun h => h.right.symm, fun h => ⟨rfl, h.symm⟩⟩

@[simp]
theorem run_pure_eq_ok_iff {a b : α} :
    (pure a : ContextM α).run.run c = (.ok b, c₂) ↔ a = b ∧ c₂ = c :=
  ⟨fun h => by cases h; exact ⟨rfl, rfl⟩, fun h => by rw [h.left, h.right]; rfl⟩

@[simp]
theorem run_throw_ne_ok {e : Error} {a : α} :
    ¬(throw e : ContextM α).run.run c = (.ok a, c₂) :=
  fun h => nomatch congrArg Prod.fst h

end ContextM
end GridPress

import GridPress.Proofs.Registry

namespace GridPress.Chain

variable {a : Algorithm} {as : List Algorithm} {c d : Chain} {t : Datatype}

-- The stages before the datatype stage, which leave entries in the trailer.
def leading (c : Chain) : List Algorithm :=
  c.preconditionFirst ++ c.converter?.toList ++ c.preconditionSecond

-- The stages before the byte stage.
def below (c : Chain) : List Algorithm :=
  c.leading ++ c.typed?.toList

-- Every position holds stages of this position only.
structure Placed (c : Chain) : Prop where
  first     : ∀ a ∈ c.preconditionFirst, a.position = .preconditionFirst
  converter : ∀ a ∈ c.converter?, a.position = .converter
  second    : ∀ a ∈ c.preconditionSecond, a.position = .preconditionSecond
  typed     : ∀ a ∈ c.typed?, a.position = .datatype
  byte      : ∀ a ∈ c.byte?, a.position = .byte

theorem stages_eq (c : Chain) : c.stages = c.below ++ c.byte?.toList :=
  rfl

theorem length_stages (c : Chain) : c.stages.length = c.size := by
  simp only [stages, size, List.length_append]
  omega

theorem Placed.leading_lt (h : c.Placed) : ∀ a ∈ c.leading, a.position < .datatype := by
  intro a ha
  simp only [leading, List.mem_append, Option.mem_toList] at ha
  rcases ha with (ha | ha) | ha
  · rw [h.first a ha]; decide
  · rw [h.converter a ha]; decide
  · rw [h.second a ha]; decide

theorem Placed.below_ne_byte (h : c.Placed) : ∀ a ∈ c.below, a.position ≠ .byte := by
  intro a ha hbyte
  simp only [below, List.mem_append, Option.mem_toList] at ha
  cases ha
  case inl ha =>
    have hlt := h.leading_lt a ha
    rw [hbyte] at hlt
    contradiction
  case inr ha =>
    rw [h.typed a ha] at hbyte
    contradiction

theorem Placed.mem_below (h : c.Placed) (ha : a ∈ c.stages) (hb : a.position ≠ .byte) :
    a ∈ c.below := by
  rw [stages_eq, List.mem_append, Option.mem_toList] at ha
  exact ha.resolve_right fun hbyte => hb (h.byte a hbyte)

-- A stage is found where its position says.
theorem Placed.mem_of_mem (h : c.Placed) (ha : a ∈ c.stages) :
    match a.position with
    | .preconditionFirst => a ∈ c.preconditionFirst
    | .converter => c.converter? = some a
    | .preconditionSecond => a ∈ c.preconditionSecond
    | .datatype => c.typed? = some a
    | .byte => c.byte? = some a := by
  simp only [stages, List.mem_append, Option.mem_toList] at ha
  rcases ha with (((ha | ha) | ha) | ha) | ha
  · rwa [h.first a ha]
  · rwa [h.converter a ha]
  · rwa [h.second a ha]
  · rwa [h.typed a ha]
  · rwa [h.byte a ha]

theorem eq_nil_of_position {p q : Position} (hp : ∀ a ∈ as, a.position = p)
    (hq : ∀ a ∈ as, a.position ≤ q) (h : q < p) : as = [] := by
  apply List.eq_nil_iff_forall_not_mem.mpr
  intro a ha
  have hle := hq a ha
  rw [hp a ha] at hle
  exact Nat.not_lt.mpr hle h

theorem claim_eq_ok_iff {slot slot' : Option Algorithm} :
    claim a slot = .ok slot' ↔ slot = none ∧ slot' = some a := by
  cases slot <;> simp [claim, eq_comm]

-- A stage goes behind all others, provided that none of them belongs behind it.
theorem Placed.place (h : c.Placed) (hc : ∀ b ∈ c.stages, b.position ≤ a.position)
    (ha : c.place a = .ok d) : d.Placed ∧ d.stages = c.stages ++ [a] := by
  obtain ⟨first, converter?, second, typed?, byte?⟩ := c
  obtain ⟨h₁, h₂, h₃, h₄, h₅⟩ := h
  simp only [stages, List.mem_append, Option.mem_toList, or_imp, forall_and] at hc h₁ h₂ h₃ h₄ h₅
  obtain ⟨⟨⟨⟨-, hc₂⟩, hc₃⟩, hc₄⟩, hc₅⟩ := hc
  have e₂ : a.position < .converter → converter?.toList = [] :=
    eq_nil_of_position (by simpa using h₂) (by simpa using hc₂)
  have e₃ : a.position < .preconditionSecond → second = [] :=
    eq_nil_of_position h₃ hc₃
  have e₄ : a.position < .datatype → typed?.toList = [] :=
    eq_nil_of_position (by simpa using h₄) (by simpa using hc₄)
  have e₅ : a.position < .byte → byte?.toList = [] :=
    eq_nil_of_position (by simpa using h₅) (by simpa using hc₅)
  simp only [Option.toList_eq_nil_iff] at e₂ e₄ e₅
  cases hp : a.position <;> simp only [Chain.place, hp, Result.bind_eq_ok_iff, Result.pure_eq,
    Except.ok.injEq, claim_eq_ok_iff] at ha e₂ e₃ e₄ e₅
  case preconditionFirst =>
    have hfirst : ∀ b ∈ first ++ [a], b.position = .preconditionFirst := by
      simpa [or_imp, forall_and, hp] using h₁
    obtain rfl := ha
    refine ⟨⟨hfirst, h₂, h₃, h₄, h₅⟩, ?_⟩
    simp [stages, e₂ (by decide), e₃ (by decide), e₄ (by decide), e₅ (by decide)]
  case converter =>
    obtain ⟨_, ⟨rfl, rfl⟩, rfl⟩ := ha
    refine ⟨⟨h₁, by simpa using hp, h₃, h₄, h₅⟩, ?_⟩
    simp [stages, e₃ (by decide), e₄ (by decide), e₅ (by decide)]
  case preconditionSecond =>
    have hsecond : ∀ b ∈ second ++ [a], b.position = .preconditionSecond := by
      simpa [or_imp, forall_and, hp] using h₃
    obtain rfl := ha
    refine ⟨⟨h₁, h₂, hsecond, h₄, h₅⟩, ?_⟩
    simp [stages, e₄ (by decide), e₅ (by decide)]
  case datatype =>
    obtain ⟨_, ⟨rfl, rfl⟩, rfl⟩ := ha
    refine ⟨⟨h₁, h₂, h₃, by simpa using hp, h₅⟩, ?_⟩
    simp [stages, e₅ (by decide)]
  case byte =>
    obtain ⟨_, ⟨rfl, rfl⟩, rfl⟩ := ha
    refine ⟨⟨h₁, h₂, h₃, h₄, by simpa using hp⟩, ?_⟩
    simp [stages]

theorem add_eq_ok_iff :
    c.add a = .ok d ↔
      ∃ e, c.place a = .ok e ∧ { e with isLossy := e.isLossy || a.isLossy } = d := by
  simp [add, Result.bind_eq_ok_iff]

theorem add_eq_error_iff {e : Error} : c.add a = .error e ↔ c.place a = .error e := by
  simp [add, Result.bind_eq_error_iff]

-- The mark is no position.
theorem Placed.mark (h : c.Placed) (b : Bool) : Placed { c with isLossy := b } :=
  ⟨h.first, h.converter, h.second, h.typed, h.byte⟩

theorem Placed.add (h : c.Placed) (hc : ∀ b ∈ c.stages, b.position ≤ a.position)
    (ha : c.add a = .ok d) : d.Placed ∧ d.stages = c.stages ++ [a] := by
  obtain ⟨e, he, rfl⟩ := add_eq_ok_iff.mp ha
  obtain ⟨hplaced, hstages⟩ := h.place hc he
  exact ⟨hplaced.mark _, hstages⟩

-- Only `add` marks a chain.
theorem isLossy_place (h : c.place a = .ok d) : d.isLossy = c.isLossy := by
  cases hp : a.position <;> simp only [place, hp, Result.bind_eq_ok_iff, Result.pure_eq,
    Except.ok.injEq] at h
  case preconditionFirst => rw [← h]
  case preconditionSecond => rw [← h]
  all_goals
    obtain ⟨_, -, rfl⟩ := h
    rfl

theorem isLossy_add (h : c.add a = .ok d) : d.isLossy = (c.isLossy || a.isLossy) := by
  obtain ⟨e, he, rfl⟩ := add_eq_ok_iff.mp h
  exact congrArg (· || a.isLossy) (isLossy_place he)

theorem Placed.addAll {last : Position} (h : c.Placed) (hc : ∀ b ∈ c.stages, b.position ≤ last)
    (ha : c.addAll last as = .ok d) : d.Placed ∧ d.stages = c.stages ++ as := by
  induction as generalizing c last
  case nil =>
    obtain rfl : c = d := by simpa [Chain.addAll] using ha
    exact ⟨h, by simp⟩
  case cons a as ih =>
    rw [Chain.addAll] at ha
    split at ha
    case isTrue => contradiction
    case isFalse hlt =>
      have hle : last ≤ a.position := Nat.not_lt.mp hlt
      have ⟨e, he, hd⟩ := Result.bind_eq_ok_iff.mp ha
      have ⟨hp, hs⟩ := h.add (fun b hb => Nat.le_trans (hc b hb) hle) he
      have hlast : ∀ b ∈ e.stages, b.position ≤ a.position := by
        intro b hb
        rw [hs, List.mem_append, List.mem_singleton] at hb
        cases hb
        case inl hb => exact Nat.le_trans (hc b hb) hle
        case inr hb => exact hb ▸ Nat.le_refl _
      have ⟨hp', hs'⟩ := ih hp hlast hd
      exact ⟨hp', by simp [hs', hs]⟩

-- Whatever chain the stages are added to, it is lossy behind them if it was before or if any of
-- them is.
theorem isLossy_addAll {last : Position} (h : c.addAll last as = .ok d) :
    d.isLossy = (c.isLossy || as.any Algorithm.isLossy) := by
  induction as generalizing c last
  case nil =>
    obtain rfl : c = d := by simpa [Chain.addAll] using h
    exact (Bool.or_false _).symm
  case cons a as ih =>
    rw [Chain.addAll] at h
    split at h
    case isTrue => contradiction
    case isFalse =>
      have ⟨e, he, hd⟩ := Result.bind_eq_ok_iff.mp h
      rw [ih hd, isLossy_add he, List.any_cons, Bool.or_assoc]

theorem ofAlgorithms_eq_ok_iff :
    ofAlgorithms as = .ok c ↔ Chain.addAll {} .preconditionFirst as = .ok c ∧ c.size ≠ 0 := by
  simp only [ofAlgorithms, Result.bind_eq_ok_iff]
  constructor
  case mp =>
    rintro ⟨d, hd, h⟩
    split at h
    case isTrue => contradiction
    case isFalse hn =>
      obtain rfl : d = c := by simpa using h
      exact ⟨hd, hn⟩
  case mpr =>
    rintro ⟨hc, hn⟩
    exact ⟨c, hc, by simp [hn]⟩

theorem placed_of_ofAlgorithms (h : ofAlgorithms as = .ok c) : c.Placed ∧ c.stages = as := by
  have ⟨hc, _⟩ := ofAlgorithms_eq_ok_iff.mp h
  have hempty : ({} : Chain).Placed := ⟨by simp, by simp, by simp, by simp, by simp⟩
  simpa [stages] using hempty.addAll (by simp [stages]) hc

theorem isLossy_of_ofAlgorithms (h : ofAlgorithms as = .ok c) :
    c.isLossy = as.any Algorithm.isLossy :=
  isLossy_addAll (ofAlgorithms_eq_ok_iff.mp h).left

-- A chain that can be built from registered algorithms.
structure Registered [Codecs] (c : Chain) : Prop where
  mem     : ∀ a ∈ c.stages, a ∈ Registry.algorithms
  ordered : ofAlgorithms c.stages = .ok c

namespace Registered

variable [Codecs]

theorem of_ofAlgorithms (ha : ∀ a ∈ as, a ∈ Registry.algorithms) (h : ofAlgorithms as = .ok c) :
    c.Registered := by
  obtain ⟨-, rfl⟩ := placed_of_ofAlgorithms h
  exact ⟨ha, h⟩

theorem placed (h : c.Registered) : c.Placed :=
  (placed_of_ofAlgorithms h.ordered).left

theorem isLossy_eq (h : c.Registered) : c.isLossy = c.stages.any Algorithm.isLossy :=
  isLossy_of_ofAlgorithms h.ordered

theorem size_pos (h : c.Registered) : 0 < c.size :=
  Nat.pos_of_ne_zero (ofAlgorithms_eq_ok_iff.mp h.ordered).right

end Registered

-- A preconditioner and a byte stage.
def xorDeltaZstd [Codecs] : Chain where
  preconditionFirst := [⟨"xor_delta", 6, false, .preconditionFirst Registry.xorDelta⟩]
  byte? := some ⟨"zstd", 5, false, .byte (Registry.codec "zstd" Codecs.zstd)⟩

theorem xorDeltaZstd_registered [Codecs] : xorDeltaZstd.Registered :=
  ⟨by simp [stages, xorDeltaZstd, Registry.algorithms], rfl⟩

theorem checkSupport_eq_ok_iff :
    checkSupport t as = .ok () ↔ ∀ a ∈ as, a.supports t = true := by
  unfold checkSupport
  cases h : as.find? fun a => !a.supports t
  case none => simpa using h
  case some a =>
    have ha := List.find?_some h
    have hmem := List.mem_of_find?_eq_some h
    simp only [reduceCtorEq, false_iff]
    intro hall
    simp [hall a hmem] at ha

theorem checkApplicable_eq_ok_iff :
    c.checkApplicable t = .ok () ↔
      (∀ a ∈ c.preconditionFirst, a.supports t = true) ∧
      (∀ a ∈ c.converter?, a.supports t = true) ∧
      (∀ a ∈ c.preconditionSecond, a.supports (c.convertedType t) = true) ∧
      (∀ a ∈ c.typed?, a.supports (c.convertedType t) = true) := by
  simp [checkApplicable, checkSupport_eq_ok_iff]

end GridPress.Chain

import GridPress.Proofs.Chain

namespace GridPress

-- The positions that take one stage only.
def Position.IsSingle (p : Position) : Prop :=
  p = .converter ∨ p = .datatype ∨ p = .byte

namespace Chain

variable {a b : Algorithm} {as bs : List Algorithm} {c d : Chain} {last : Position} {e : Error}

-- Whether `b` may stand somewhere behind `a`.
structure Precedes (a b : Algorithm) : Prop where
  le : a.position ≤ b.position
  ne : b.position.IsSingle → a.position ≠ b.position

-- Algorithms in the order of their positions, with at most one converter, one datatype stage and
-- one byte stage.
structure Ordered (as : List Algorithm) : Prop where
  ne_nil : as ≠ []
  sorted : as.Pairwise fun a b => a.position ≤ b.position
  single : ∀ p : Position, p.IsSingle → as.countP (fun a => a.position = p) ≤ 1

theorem countP_le_one_iff {p : Algorithm → Bool} :
    as.countP p ≤ 1 ↔ as.Pairwise fun a b => p b = true → p a = false := by
  induction as
  case nil => simp
  case cons a as ih =>
    rw [List.pairwise_cons, ← ih]
    by_cases ha : p a = true
    case pos =>
      have hzero : as.countP p + 1 ≤ 1 ↔ ∀ b ∈ as, ¬p b = true := by
        rw [← List.countP_eq_zero]
        omega
      simp only [List.countP_cons_of_pos ha, hzero, ha]
      constructor
      case mp =>
        intro h
        exact ⟨fun b hb hpb => absurd hpb (h b hb), by rw [List.countP_eq_zero.mpr h]; omega⟩
      case mpr => exact fun h b hb hpb => nomatch h.left b hb hpb
    case neg => simp [List.countP_cons_of_neg ha, ha]

theorem ordered_iff : Ordered as ↔ as ≠ [] ∧ as.Pairwise Precedes := by
  have hsingle : (∀ p : Position, p.IsSingle → as.countP (fun a => a.position = p) ≤ 1) ↔
      as.Pairwise fun a b => b.position.IsSingle → a.position ≠ b.position := by
    simp only [countP_le_one_iff, decide_eq_true_eq, decide_eq_false_iff_not,
      List.pairwise_iff_forall_sublist]
    constructor
    case mp => exact fun h a b hab hb => h b.position hb hab rfl
    case mpr =>
      rintro h p hp a b hab rfl
      exact h hab hp
  constructor
  case mp =>
    rintro ⟨hne, hsorted, hcount⟩
    exact ⟨hne, hsorted.imp₂ (fun _ _ hle hn => ⟨hle, hn⟩) (hsingle.mp hcount)⟩
  case mpr =>
    rintro ⟨hne, h⟩
    exact ⟨hne, h.imp Precedes.le, hsingle.mpr (h.imp Precedes.ne)⟩

-- A position that takes one stage only can be claimed if no stage has it.
theorem exists_claim_eq_ok_iff {slot : Option Algorithm} {p : Position}
    (fill : Option Algorithm → Chain) (hslot : ∀ b ∈ slot, b ∈ c.stages ∧ b.position = p)
    (hstages : ∀ b ∈ c.stages, b.position = p → slot = some b) :
    (∃ d, (do return fill (← claim a slot) : Result Chain) = .ok d) ↔
      ∀ b ∈ c.stages, b.position ≠ p := by
  have hfree : (∃ d, (do return fill (← claim a slot) : Result Chain) = .ok d) ↔ slot = none := by
    cases slot <;> simp [claim]
  rw [hfree, Option.eq_none_iff_forall_not_mem]
  constructor
  case mp =>
    intro h b hb hp
    exact h b (hstages b hb hp)
  case mpr => exact fun h b hb => h b (hslot b hb).left (hslot b hb).right

-- What the positions hold that take one stage only.
theorem Placed.mem_single (h : c.Placed) :
    (∀ b ∈ c.converter?, b ∈ c.stages ∧ b.position = .converter) ∧
    (∀ b ∈ c.typed?, b ∈ c.stages ∧ b.position = .datatype) ∧
    ∀ b ∈ c.byte?, b ∈ c.stages ∧ b.position = .byte := by
  refine ⟨fun b hb => ⟨?_, h.converter b hb⟩, fun b hb => ⟨?_, h.typed b hb⟩,
    fun b hb => ⟨?_, h.byte b hb⟩⟩
  all_goals simp_all [stages]

theorem exists_add_eq_ok_iff_exists_place :
    (∃ d, c.add a = .ok d) ↔ ∃ d, c.place a = .ok d := by
  simp only [add_eq_ok_iff]
  exact ⟨fun ⟨_, e, he, _⟩ => ⟨e, he⟩, fun ⟨e, he⟩ => ⟨_, e, he, rfl⟩⟩

-- A stage can be added unless it claims a position that is taken.
theorem Placed.exists_add_eq_ok_iff (h : c.Placed) :
    (∃ d, c.add a = .ok d) ↔ (a.position.IsSingle → ∀ b ∈ c.stages, b.position ≠ a.position) := by
  have hmem := fun b (hb : b ∈ c.stages) => h.mem_of_mem hb
  have ⟨hconverter, htyped, hbyte⟩ := h.mem_single
  rw [exists_add_eq_ok_iff_exists_place]
  cases hp : a.position <;> simp only [Chain.place, hp, Position.IsSingle, reduceCtorEq, or_false,
    or_true, false_implies, true_implies, Except.ok.injEq, exists_eq']
  case converter =>
    exact exists_claim_eq_ok_iff _ hconverter fun b hb hp => by simpa [hp] using hmem b hb
  case datatype =>
    exact exists_claim_eq_ok_iff _ htyped fun b hb hp => by simpa [hp] using hmem b hb
  case byte =>
    exact exists_claim_eq_ok_iff _ hbyte fun b hb hp => by simpa [hp] using hmem b hb

-- Stages added one after the other have to be in order behind those that are there.
theorem Placed.exists_addAll_eq_ok_iff (h : c.Placed) (hc : ∀ b ∈ c.stages, b.position ≤ last)
    (hp : c.stages.Pairwise Precedes) :
    (∃ d, c.addAll last as = .ok d) ↔
      (∀ a ∈ as, last ≤ a.position) ∧ (c.stages ++ as).Pairwise Precedes := by
  induction as generalizing c last
  case nil => simpa [Chain.addAll] using hp
  case cons a as ih =>
    -- The chain with `a` at its end is as well ordered as the one before.
    have hadd : ∀ d, last ≤ a.position → c.add a = .ok d →
        ((∃ d', d.addAll a.position as = .ok d') ↔
          (∀ a' ∈ as, a.position ≤ a'.position) ∧ (c.stages ++ a :: as).Pairwise Precedes) := by
      intro d hle hd
      have hbefore : ∀ b ∈ c.stages, b.position ≤ a.position :=
        fun b hb => Nat.le_trans (hc b hb) hle
      have hfree := h.exists_add_eq_ok_iff.mp ⟨d, hd⟩
      obtain ⟨hplaced, hstages⟩ := h.add hbefore hd
      have hlast : ∀ b ∈ d.stages, b.position ≤ a.position := by
        rw [hstages, List.forall_mem_append]
        exact ⟨hbefore, List.forall_mem_singleton.mpr (Nat.le_refl _)⟩
      have hpairwise : d.stages.Pairwise Precedes := by
        rw [hstages, List.pairwise_append]
        refine ⟨hp, List.pairwise_singleton _ _, fun b hb a' ha' => ?_⟩
        obtain rfl := List.mem_singleton.mp ha'
        exact ⟨hbefore b hb, fun hs => hfree hs b hb⟩
      rw [ih hplaced hlast hpairwise, hstages, List.append_assoc, List.singleton_append]
    rw [Chain.addAll]
    constructor
    case mp =>
      rintro ⟨d', hd'⟩
      split at hd'
      case isTrue => contradiction
      case isFalse hlt =>
        have hle : last ≤ a.position := Nat.not_lt.mp hlt
        obtain ⟨d, hd, hd'⟩ := Result.bind_eq_ok_iff.mp hd'
        obtain ⟨hsorted, hpairwise⟩ := (hadd d hle hd).mp ⟨d', hd'⟩
        refine ⟨List.forall_mem_cons.mpr ⟨hle, fun a' ha' => ?_⟩, hpairwise⟩
        exact Nat.le_trans hle (hsorted a' ha')
    case mpr =>
      rintro ⟨hsorted, hpairwise⟩
      obtain ⟨hle, _⟩ := List.forall_mem_cons.mp hsorted
      obtain ⟨_, hbehind, hprecedes⟩ := List.pairwise_append.mp hpairwise
      obtain ⟨d, hd⟩ := h.exists_add_eq_ok_iff.mpr fun hs b hb =>
        (hprecedes b hb a List.mem_cons_self).ne hs
      obtain ⟨d', hd'⟩ := (hadd d hle hd).mpr
        ⟨fun a' ha' => ((List.pairwise_cons.mp hbehind).left a' ha').le, hpairwise⟩
      have hlt : ¬a.position < last := Nat.not_lt.mpr hle
      exact ⟨d', by rwa [if_neg hlt, hd, Result.ok_bind]⟩

theorem placed_empty : ({} : Chain).Placed :=
  ⟨by simp, by simp, by simp, by simp, by simp⟩

theorem exists_ofAlgorithms_eq_ok_iff : (∃ c, ofAlgorithms as = .ok c) ↔ Ordered as := by
  have hadd : (∃ c, Chain.addAll {} .preconditionFirst as = .ok c) ↔ as.Pairwise Precedes := by
    rw [placed_empty.exists_addAll_eq_ok_iff (by simp [stages]) (by simp [stages])]
    exact and_iff_right fun a _ => Nat.zero_le _
  rw [ordered_iff, ← hadd]
  constructor
  case mp =>
    rintro ⟨c, hc⟩
    obtain ⟨hall, hsize⟩ := ofAlgorithms_eq_ok_iff.mp hc
    obtain ⟨_, hstages⟩ := placed_of_ofAlgorithms hc
    rw [← length_stages, hstages, ne_eq, List.length_eq_zero_iff] at hsize
    exact ⟨hsize, c, hall⟩
  case mpr =>
    rintro ⟨hne, c, hc⟩
    obtain ⟨_, hstages⟩ := placed_empty.addAll (by simp [stages]) hc
    have hsize : c.size ≠ 0 := by
      rw [← length_stages, hstages]
      simpa [stages] using hne
    exact ⟨c, ofAlgorithms_eq_ok_iff.mpr ⟨hc, hsize⟩⟩

-- A fault of algorithms: there are none, or two of them do not go together in this order.
inductive Clash (as : List Algorithm) : ChainFault → Prop
  | empty : as = [] → Clash as .empty
  | order {a b : Algorithm} : [b, a].Sublist as → a.position < b.position →
      Clash as (.order a.name a.position b.position)
  | slot {a b : Algorithm} : [b, a].Sublist as → a.position = b.position → a.position.IsSingle →
      Clash as (.slot b.name a.name a.position)

theorem claim_eq_error {slot : Option Algorithm} (fill : Option Algorithm → Chain)
    (hs : a.position.IsSingle) (hslot : ∀ b ∈ slot, b ∈ c.stages ∧ b.position = a.position)
    (h : (do return fill (← claim a slot) : Result Chain) = .error e) :
    ∃ b ∈ c.stages, a.position = b.position ∧ a.position.IsSingle ∧
      e = .invalidChain (.slot b.name a.name a.position) := by
  cases slot
  case none => contradiction
  case some b =>
    have ⟨hb, hp⟩ := hslot b rfl
    exact ⟨b, hb, hp.symm, hs, (Except.error.inj h).symm⟩

-- A stage that cannot be added claims the position of another one.
theorem Placed.add_eq_error (h : c.Placed) (ha : c.add a = .error e) :
    ∃ b ∈ c.stages, a.position = b.position ∧ a.position.IsSingle ∧
      e = .invalidChain (.slot b.name a.name a.position) := by
  have ⟨hconverter, htyped, hbyte⟩ := h.mem_single
  rw [add_eq_error_iff] at ha
  cases hp : a.position <;> simp only [Chain.place, hp] at ha <;> rw [← hp]
  case converter => exact claim_eq_error _ (.inl hp) (hp ▸ hconverter) ha
  case datatype => exact claim_eq_error _ (.inr (.inl hp)) (hp ▸ htyped) ha
  case byte => exact claim_eq_error _ (.inr (.inr hp)) (hp ▸ hbyte) ha
  all_goals contradiction

theorem pair_sublist (hb : b ∈ bs) (a : Algorithm) (as : List Algorithm) :
    [b, a].Sublist (bs ++ a :: as) :=
  (List.singleton_sublist.mpr hb).append (List.singleton_sublist.mpr List.mem_cons_self)

-- The position `last` is that of a stage, unless it is the first one.
theorem Placed.addAll_eq_error (h : c.Placed) (hc : ∀ b ∈ c.stages, b.position ≤ last)
    (hlast : last = .preconditionFirst ∨ ∃ b ∈ c.stages, b.position = last)
    (ha : c.addAll last as = .error e) :
    ∃ fault, e = .invalidChain fault ∧ Clash (c.stages ++ as) fault := by
  induction as generalizing c last
  case nil => contradiction
  case cons a as ih =>
    rw [Chain.addAll] at ha
    split at ha
    case isTrue hlt =>
      cases hlast
      case inl hfirst => exact absurd (hfirst ▸ hlt) (Nat.not_lt_zero _)
      case inr hb =>
        obtain ⟨b, hb, rfl⟩ := hb
        exact ⟨_, (Except.error.inj ha).symm, .order (pair_sublist hb a as) hlt⟩
    case isFalse hlt =>
      have hle : last ≤ a.position := Nat.not_lt.mp hlt
      cases Result.bind_eq_error_iff.mp ha
      case inl ha =>
        obtain ⟨b, hb, hp, hs, he⟩ := h.add_eq_error ha
        exact ⟨_, he, .slot (pair_sublist hb a as) hp hs⟩
      case inr ha =>
        obtain ⟨d, hd, ha⟩ := ha
        have hbefore : ∀ b ∈ c.stages, b.position ≤ a.position :=
          fun b hb => Nat.le_trans (hc b hb) hle
        obtain ⟨hplaced, hstages⟩ := h.add hbefore hd
        have hd : c.stages ++ a :: as = d.stages ++ as := by simp [hstages]
        rw [hd]
        apply ih hplaced ?_ ?_ ha
        · rw [hstages, List.forall_mem_append]
          exact ⟨hbefore, List.forall_mem_singleton.mpr (Nat.le_refl _)⟩
        · exact .inr ⟨a, by simp [hstages], rfl⟩

theorem clash_of_ofAlgorithms (h : ofAlgorithms as = .error e) :
    ∃ fault, e = .invalidChain fault ∧ Clash as fault := by
  cases Result.bind_eq_error_iff.mp h
  case inl h => exact placed_empty.addAll_eq_error (by simp [stages]) (.inl rfl) h
  case inr h =>
    obtain ⟨c, hc, h⟩ := h
    split at h
    case isFalse => contradiction
    case isTrue hsize =>
      obtain ⟨_, hstages⟩ := placed_empty.addAll (by simp [stages]) hc
      rw [← length_stages, hstages, List.length_eq_zero_iff] at hsize
      exact ⟨_, (Except.error.inj h).symm, .empty hsize⟩

-- Algorithms in order make a chain of just these stages, and all others are refused as a chain.
theorem ofAlgorithms_ordered (as : List Algorithm) :
    ((∃ c, ofAlgorithms as = .ok c) ↔ Ordered as) ∧
    (∀ c, ofAlgorithms as = .ok c →
      c.stages = as ∧ c.size = as.length ∧ (c.isLossy = true ↔ ∃ a ∈ as, a.isLossy = true)) ∧
    ∀ e, ofAlgorithms as = .error e → ∃ fault, e = .invalidChain fault := by
  refine ⟨exists_ofAlgorithms_eq_ok_iff, fun c hc => ?_, fun e he => ?_⟩
  · obtain ⟨-, rfl⟩ := placed_of_ofAlgorithms hc
    refine ⟨rfl, c.length_stages.symm, ?_⟩
    rw [isLossy_of_ofAlgorithms hc, List.any_eq_true]
  · have ⟨fault, hfault, _⟩ := clash_of_ofAlgorithms he
    exact ⟨fault, hfault⟩

-- A converter, a preconditioner behind it and a byte stage.
def quantizeDeltaMemcopy : List Algorithm :=
  [⟨"quantize", 7, true, .converter Registry.quantize⟩,
    ⟨"delta", 8, false, .preconditionSecond Registry.delta⟩,
    ⟨"memcopy", 0, false, .byte Registry.memcopy⟩]

theorem ofAlgorithms_ordered_three :
    Ordered quantizeDeltaMemcopy ∧
    (∃ c, ofAlgorithms quantizeDeltaMemcopy = .ok c ∧ c.stages = quantizeDeltaMemcopy ∧
      c.size = 3 ∧ (c.isLossy = true ↔ ∃ a ∈ quantizeDeltaMemcopy, a.isLossy = true)) ∧
    ∃ fault, ofAlgorithms quantizeDeltaMemcopy.reverse = .error (.invalidChain fault) := by
  have ⟨hordered, hchain, _⟩ := ofAlgorithms_ordered quantizeDeltaMemcopy
  have ⟨_, _, hrefused⟩ := ofAlgorithms_ordered quantizeDeltaMemcopy.reverse
  have ⟨c, hc⟩ : ∃ c, ofAlgorithms quantizeDeltaMemcopy = .ok c := ⟨_, rfl⟩
  have ⟨e, he⟩ : ∃ e, ofAlgorithms quantizeDeltaMemcopy.reverse = .error e := ⟨_, rfl⟩
  have ⟨fault, hfault⟩ := hrefused e he
  exact ⟨hordered.mp ⟨c, hc⟩, ⟨c, hc, hchain c hc⟩, fault, hfault ▸ he⟩

end Chain
end GridPress

import GridPress.Registry
import Mathlib.Order.Bounds.Basic

namespace GridPress.Registry

variable {as bs before : List Algorithm} {a : Algorithm} {e : Error} {i : Nat}

-- Ids are places, and names are unique.
structure Valid (as : List Algorithm) : Prop where
  id_eq : ∀ i (a : Algorithm), as[i]? = some a → a.id.toNat = i
  names : (as.map Algorithm.name).Nodup

-- What is wrong with the entry `a` at the place `i` if it does not fit in behind those before it.
-- An id that is not the place counts for more than a name that is taken.
def faultAt (i : Nat) (a : Algorithm) : RegistryFault :=
  if a.id.toNat = i then .duplicate a.name else .misplaced a.name a.id.toNat i

theorem valid_nil : Valid [] :=
  ⟨nofun, List.nodup_nil⟩

theorem valid_of_start (h : Valid as) (hstart : bs <+: as) : Valid bs := by
  obtain ⟨after, rfl⟩ := hstart
  refine ⟨fun i a hi => h.id_eq i a ?_, ?_⟩
  · rw [List.getElem?_append_left (List.getElem?_eq_some_iff.mp hi).1, hi]
  · have hnames := h.names
    rw [List.map_append] at hnames
    exact (List.nodup_append.mp hnames).1

theorem valid_concat_iff :
    Valid (before ++ [a]) ↔
      Valid before ∧ a.id.toNat = before.length ∧ ∀ b ∈ before, b.name ≠ a.name := by
  constructor
  case mp =>
    intro h
    refine ⟨valid_of_start h (List.prefix_append _ _), h.id_eq _ _ (by simp), ?_⟩
    have hnames := h.names
    rw [List.map_append, List.map_singleton, List.nodup_append] at hnames
    exact fun b hb => hnames.2.2 _ (List.mem_map_of_mem hb) _ (List.mem_singleton_self _)
  case mpr =>
    rintro ⟨hbefore, hid, hname⟩
    refine ⟨fun i b hi => ?_, ?_⟩
    · by_cases hlt : i < before.length
      case pos =>
        rw [List.getElem?_append_left hlt] at hi
        exact hbefore.id_eq i b hi
      case neg =>
        have hle := (List.getElem?_eq_some_iff.mp hi).1
        rw [List.length_append, List.length_singleton] at hle
        obtain rfl : i = before.length := by omega
        obtain rfl : a = b := by simpa using hi
        exact hid
    · rw [List.map_append, List.map_singleton, List.nodup_append]
      refine ⟨hbefore.names, List.pairwise_singleton _ _, ?_⟩
      simpa using hname

-- An id is one byte.
theorem length_le_of_valid (h : Valid as) : as.length ≤ 256 := by
  by_contra hlong
  have hlt : 256 < as.length := Nat.lt_of_not_le hlong
  have hid := h.id_eq 256 as[256] (List.getElem?_eq_getElem hlt)
  exact absurd as[256].id.toNat_lt (by omega)

theorem validateFrom_of_valid (h : Valid (before ++ [a])) :
    validateFrom before (a :: as) = validateFrom (before ++ [a]) as := by
  have ⟨_, hid, hname⟩ := valid_concat_iff.mp h
  have hunused : (before.any fun b => b.name == a.name) = false := by simpa using hname
  rw [validateFrom, if_neg (not_not.mpr hid), hunused, if_neg Bool.false_ne_true]

theorem validateFrom_of_not_valid (hbefore : Valid before) (h : ¬Valid (before ++ [a])) :
    validateFrom before (a :: as) = .error (.registry (faultAt before.length a)) := by
  unfold validateFrom faultAt
  by_cases hid : a.id.toNat = before.length
  case neg => rw [if_pos hid, if_neg hid]
  case pos =>
    have hused : (before.any fun b => b.name == a.name) = true := by
      by_contra hunused
      exact h (valid_concat_iff.mpr ⟨hbefore, hid, by simpa using hunused⟩)
    rw [if_neg (not_not.mpr hid), if_pos hused, if_pos hid]

theorem validateFrom_eq_ok_iff (hbefore : Valid before) :
    validateFrom before as = .ok () ↔ Valid (before ++ as) := by
  induction as generalizing before
  case nil =>
    rw [List.append_nil]
    exact iff_of_true rfl hbefore
  case cons a as ih =>
    by_cases h : Valid (before ++ [a])
    case pos => rw [validateFrom_of_valid h, ih h, List.append_assoc, List.singleton_append]
    case neg =>
      rw [validateFrom_of_not_valid hbefore h]
      refine iff_of_false nofun fun hall => h (valid_of_start hall ?_)
      exact ⟨as, by rw [List.append_assoc, List.singleton_append]⟩

-- The induction follows the check, which has seen `before`.
theorem validateFrom_eq_error_iff (hbefore : Valid before) :
    validateFrom before as = .error e ↔
      ∃ i a, (Valid (before ++ as.take i) ∧ ¬Valid (before ++ as.take (i + 1))) ∧
        as[i]? = some a ∧ e = .registry (faultAt (before.length + i) a) := by
  induction as generalizing before
  case nil => simp [validateFrom]
  case cons b bs ih =>
    have htake (n : Nat) : before ++ (b :: bs).take (n + 1) = before ++ [b] ++ bs.take n := by
      rw [List.take_succ_cons, List.append_assoc, List.singleton_append]
    by_cases h : Valid (before ++ [b])
    case pos =>
      rw [validateFrom_of_valid h, ih h]
      constructor
      case mp =>
        rintro ⟨i, a, ⟨hvalid, hnot⟩, ha, rfl⟩
        refine ⟨i + 1, a, ⟨by rwa [htake], by rwa [htake]⟩, ha, ?_⟩
        rw [List.length_append, List.length_singleton, Nat.add_assoc, Nat.add_comm 1]
      case mpr =>
        rintro ⟨i, a, ⟨hvalid, hnot⟩, ha, rfl⟩
        cases i
        case zero => exact absurd h (by simpa using hnot)
        case succ i =>
          rw [htake] at hvalid hnot
          refine ⟨i, a, ⟨hvalid, hnot⟩, ha, ?_⟩
          rw [List.length_append, List.length_singleton, Nat.add_assoc, Nat.add_comm 1]
    case neg =>
      rw [validateFrom_of_not_valid hbefore h]
      constructor
      case mp =>
        intro he
        refine ⟨0, b, ⟨by simpa using hbefore, by simpa using h⟩, rfl, ?_⟩
        exact (Except.error.inj he).symm
      case mpr =>
        rintro ⟨i, a, ⟨hvalid, -⟩, ha, rfl⟩
        cases i
        case zero =>
          obtain rfl : b = a := Option.some.inj ha
          rfl
        case succ i =>
          rw [htake] at hvalid
          exact absurd (valid_of_start hvalid (List.prefix_append _ _)) h

theorem isLeast_iff :
    IsLeast {i | ¬Valid (as.take (i + 1))} i ↔ Valid (as.take i) ∧ ¬Valid (as.take (i + 1)) := by
  constructor
  case mp =>
    rintro ⟨hnot, hleast⟩
    refine ⟨?_, hnot⟩
    cases i
    case zero => exact valid_nil
    case succ i =>
      by_contra hvalid
      exact absurd (hleast hvalid) (Nat.not_succ_le_self i)
  case mpr =>
    rintro ⟨hvalid, hnot⟩
    refine ⟨hnot, fun j hj => ?_⟩
    by_contra hlt
    exact hj (valid_of_start hvalid (List.take_prefix_take_left (by omega)))

-- Of several faults the one is reported that the first such entry has, and of this one's the
-- misplaced id.
theorem validate_exact (as : List Algorithm) :
    (validate as = .ok () ↔ Valid as) ∧ (validate as = .ok () → as.length ≤ 256) ∧
    ∀ e, validate as = .error e ↔
      ∃ i a, IsLeast {i | ¬Valid (as.take (i + 1))} i ∧ as[i]? = some a ∧
        e = .registry (faultAt i a) := by
  have hok : validate as = .ok () ↔ Valid as := validateFrom_eq_ok_iff valid_nil
  refine ⟨hok, fun h => length_le_of_valid (hok.mp h), fun e => ?_⟩
  refine (validateFrom_eq_error_iff valid_nil).trans (exists₂_congr fun i a => ?_)
  rw [isLeast_iff, List.nil_append, List.nil_append, List.length_nil, Nat.zero_add]

-- The third entry has both a wrong id and a name that is taken, and the fourth one has a fault too.
theorem validate_exact_twoFaults :
    let table := [⟨"a", 0, false, .byte memcopy⟩, ⟨"b", 1, false, .byte memcopy⟩,
      ⟨"a", 7, false, .byte memcopy⟩, ⟨"b", 3, false, .byte memcopy⟩]
    validate table = .error (.registry (.misplaced "a" 7 2)) ∧ ¬Valid table ∧
      IsLeast {i | ¬Valid (table.take (i + 1))} 2 := by
  intro table
  have hfaulty : validate table = .error (.registry (.misplaced "a" 7 2)) := rfl
  have ⟨hok, _, herror⟩ := validate_exact table
  obtain ⟨i, a, hleast, -, hfault⟩ := (herror _).mp hfaulty
  have hi : i = 2 := by
    unfold faultAt at hfault
    split at hfault
    case isTrue => cases hfault
    case isFalse => exact (RegistryFault.misplaced.inj (Error.registry.inj hfault)).2.2.symm
  refine ⟨hfaulty, fun hvalid => ?_, hi ▸ hleast⟩
  exact absurd (hok.mpr hvalid) (by rw [hfaulty]; exact nofun)

end GridPress.Registry

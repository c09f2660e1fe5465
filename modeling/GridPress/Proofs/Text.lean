import GridPress.Text.Blank
import GridPress.Text.Numeral
import Mathlib.Data.List.DropRight

namespace GridPress.Text

variable {cs : List Char} {c sep : Char} {limit d n : Nat}

theorem separate_eq_splitOn (sep : Char) (cs : List Char) : separate sep cs = cs.splitOn sep := by
  induction cs
  case nil => rfl
  case cons c cs ih =>
    have hcons : (c :: cs).splitOn sep =
        if c = sep then [] :: cs.splitOn sep else (cs.splitOn sep).modifyHead (c :: ·) := by
      simp only [List.splitOn, List.splitOnP_cons_eq_if_modifyHead, beq_iff_eq]
    rw [separate, hcons, ← ih]
    split
    case isTrue => rfl
    case isFalse =>
      have hne := separate_ne_nil sep cs
      cases hpieces : separate sep cs
      case nil => contradiction
      case cons => rfl

-- Pieces without separators are found again between the separators that join them.
theorem separate_intercalate {pieces : List (List Char)} (h : ∀ piece ∈ pieces, sep ∉ piece)
    (hne : pieces ≠ []) : separate sep ([sep].intercalate pieces) = pieces := by
  rw [separate_eq_splitOn, List.splitOn_intercalate sep h hne]

theorem strip_eq_rdropWhile (cs : List Char) :
    strip cs = (cs.dropWhile isBlank).rdropWhile isBlank :=
  rfl

theorem strip_eq_nil_iff : strip cs = [] ↔ ∀ c ∈ cs, isBlank c = true := by
  rw [strip_eq_rdropWhile, List.rdropWhile_eq_nil_iff]
  constructor
  case mp =>
    intro h
    apply List.dropWhile_eq_nil_iff.mp
    have hhead := List.head?_dropWhile_not isBlank cs
    cases hd : cs.dropWhile isBlank
    case nil => rfl
    case cons c rest =>
      simp only [hd, List.head?_cons] at hhead
      rw [h c (by simp [hd])] at hhead
      contradiction
  case mpr =>
    intro h
    simp [List.dropWhile_eq_nil_iff.mpr h]

theorem dropWhile_rdropWhile {p : Char → Bool} (h : cs.dropWhile p = cs) :
    (cs.rdropWhile p).dropWhile p = cs.rdropWhile p := by
  have hprefix := List.rdropWhile_prefix p cs
  cases hr : cs.rdropWhile p
  case nil => rfl
  case cons c rest =>
    obtain ⟨behind, rfl⟩ := hr ▸ hprefix
    have hc := List.dropWhile_eq_self_iff.mp h (by simp)
    exact List.dropWhile_cons_of_neg hc

theorem strip_strip (cs : List Char) : strip (strip cs) = strip cs := by
  simp only [strip_eq_rdropWhile]
  rw [dropWhile_rdropWhile (List.dropWhile_idempotent _ cs), List.rdropWhile_idempotent]

theorem strip_of_not_blank (h : ∀ c ∈ cs, isBlank c = false) : strip cs = cs := by
  have hdrop : cs.dropWhile isBlank = cs := by
    apply List.dropWhile_eq_self_iff.mpr
    intro hl
    simp [h cs[0] (List.getElem_mem hl)]
  rw [strip_eq_rdropWhile, hdrop]
  apply List.rdropWhile_eq_self_iff.mpr
  intro hne
  simp [h _ (List.getLast_mem hne)]

-- A numeral of `n`: decimal digits, one at least, which a plus may stand before.
def IsNumeral (cs : List Char) (n : Nat) : Prop :=
  ∃ ds : List Nat, ds ≠ [] ∧ (∀ d ∈ ds, d < 10) ∧ Digits.value 10 ds = n ∧
    (cs = ds.map Nat.digitChar ∨ cs = '+' :: ds.map Nat.digitChar)

theorem digit?_eq_some_iff : digit? c = some d ↔ d < 10 ∧ Nat.digitChar d = c := by
  unfold digit?
  constructor
  case mp =>
    intro h
    split at h
    case isFalse => contradiction
    case isTrue hc =>
      have hlow : 48 ≤ c.toNat := hc.left
      have hhigh : c.toNat ≤ 57 := hc.right
      obtain rfl : c.toNat - 48 = d := Option.some.inj h
      have hlt : c.toNat - 48 < 10 := by omega
      refine ⟨hlt, Char.toNat_inj.mp ?_⟩
      rw [Nat.toNat_digitChar_of_lt_ten hlt]
      omega
  case mpr =>
    rintro ⟨hd, rfl⟩
    have hn := Nat.toNat_digitChar_of_lt_ten hd
    have hc : '0' ≤ Nat.digitChar d ∧ Nat.digitChar d ≤ '9' := by
      constructor
      · show 48 ≤ (Nat.digitChar d).toNat
        omega
      · show (Nat.digitChar d).toNat ≤ 57
        omega
    rw [if_pos hc, hn]
    exact congrArg some (Nat.add_sub_cancel_left 48 d)

theorem mapM_digit?_eq_some_iff {ds : List Nat} :
    cs.mapM digit? = some ds ↔ (∀ d ∈ ds, d < 10) ∧ ds.map Nat.digitChar = cs := by
  induction cs generalizing ds
  case nil => cases ds <;> simp
  case cons c cs ih =>
    cases ds
    case nil => simp [List.mapM_cons, Option.bind_eq_some_iff]
    case cons d ds =>
      have hcons : (c :: cs).mapM digit? = some (d :: ds) ↔
          digit? c = some d ∧ cs.mapM digit? = some ds := by
        simp [List.mapM_cons, Option.bind_eq_some_iff]
      rw [hcons, digit?_eq_some_iff, ih, List.forall_mem_cons, List.map_cons, List.cons.injEq]
      exact and_and_and_comm

theorem digits?_eq_some_iff :
    digits? cs = some n ↔
      ∃ ds : List Nat, ds ≠ [] ∧ (∀ d ∈ ds, d < 10) ∧ Digits.value 10 ds = n ∧
        cs = ds.map Nat.digitChar := by
  cases cs
  case nil =>
    simp only [digits?, List.isEmpty_nil, if_true, reduceCtorEq, false_iff]
    rintro ⟨ds, hne, -, -, hnil⟩
    exact hne (List.map_eq_nil_iff.mp hnil.symm)
  case cons c cs =>
    simp only [digits?, List.isEmpty_cons, Bool.false_eq_true, if_false, Option.map_eq_some_iff,
      mapM_digit?_eq_some_iff]
    constructor
    case mp =>
      rintro ⟨ds, ⟨hlt, hds⟩, hn⟩
      refine ⟨ds, ?_, hlt, hn, hds.symm⟩
      rintro rfl
      contradiction
    case mpr => exact fun ⟨ds, _, hlt, hn, hds⟩ => ⟨ds, ⟨hlt, hds.symm⟩, hn⟩

theorem isNumeral_iff :
    IsNumeral cs n ↔ digits? cs = some n ∨ ∃ rest, cs = '+' :: rest ∧ digits? rest = some n := by
  simp only [digits?_eq_some_iff]
  constructor
  case mp =>
    rintro ⟨ds, hne, hlt, hn, hcs | hcs⟩
    · exact .inl ⟨ds, hne, hlt, hn, hcs⟩
    · exact .inr ⟨_, hcs, ds, hne, hlt, hn, rfl⟩
  case mpr =>
    rintro (⟨ds, hne, hlt, hn, hcs⟩ | ⟨_, hcs, ds, hne, hlt, hn, rfl⟩)
    · exact ⟨ds, hne, hlt, hn, .inl hcs⟩
    · exact ⟨ds, hne, hlt, hn, .inr hcs⟩

-- A plus is no digit, so it is left out if and only if it comes first.
theorem natural?_eq_some_iff : natural? limit cs = some n ↔ IsNumeral cs n ∧ n ≤ limit := by
  unfold natural?
  simp only [isNumeral_iff, Option.filter_eq_some_iff, decide_eq_true_eq]
  apply and_congr_left
  intro _
  split
  case h_1 rest =>
    have hplus : digits? ('+' :: rest) = none := rfl
    simp [hplus]
  case h_2 hne =>
    constructor
    case mp => exact .inl
    case mpr =>
      rintro (h | ⟨rest, rfl, _⟩)
      · exact h
      · exact absurd rfl (hne rest)

end GridPress.Text

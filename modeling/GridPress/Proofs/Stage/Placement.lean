import GridPress.Proofs.Binary.Kind
import GridPress.Proofs.Elements
import GridPress.Proofs.Grid
import GridPress.Stage.Placement

namespace GridPress

namespace Element

variable {t : Datatype} {dims : Dims} {bs : Bytes} {ws : List Nat}

theorem decode_eq_ok_iff : decode t bs = .ok ws ↔ bs.length % t.size = 0 ∧ ws = split t bs := by
  unfold decode
  split <;> simp_all [eq_comm]

theorem decodeAs_eq_ok_iff :
    decodeAs t dims bs = .ok ws ↔
      bs.length % t.size = 0 ∧ ws = split t bs ∧ ws.length = dims.count := by
  simp only [decodeAs, Result.bind_eq_ok_iff, decode_eq_ok_iff]
  constructor
  case mp =>
    rintro ⟨vs, ⟨hd, hvs⟩, h⟩
    split at h
    case isTrue hl =>
      obtain rfl := Except.ok.inj h
      exact ⟨hd, hvs, hl⟩
    case isFalse => contradiction
  case mpr =>
    rintro ⟨hd, hws, hl⟩
    exact ⟨ws, ⟨hd, hws⟩, if_pos hl⟩

theorem decodeAs_join (hws : ∀ w ∈ ws, w < 2 ^ t.width) (hl : ws.length = dims.count) :
    decodeAs t dims (join t ws) = .ok ws :=
  decodeAs_eq_ok_iff.mpr ⟨by simp [length_join], (split_join hws).symm, hl⟩

end Element

-- Whether `w` may take the place of the element `v`: it is the same, both are fills, or the numbers
-- are no farther apart than is tolerated.
def Hints.Admits (h : Hints) (k : FloatKind) (v w : Nat) : Prop :=
  v = w ∨ (h.isFill (k.toDouble v) = true ∧ (k.toDouble w).equal h.fillValue = true) ∨
    (k.toDouble w - k.toDouble v).abs ≤ h.absoluteTolerance

instance (h : Hints) (k : FloatKind) (v w : Nat) : Decidable (h.Admits k v w) :=
  inferInstanceAs (Decidable (_ ∨ _ ∧ _ ∨ _))

namespace Stage.Placement

variable {stage : String} {k : FloatKind} {h : Hints} {dims : Dims} {src : Bytes} {p : Placement}

-- A placement needs a tolerance to place elements by.
theorem make_eq_ok_iff :
    make stage k h dims src = .ok p ↔
      (Double.zero < h.absoluteTolerance ∧ h.absoluteTolerance < .largest) ∧
      ∃ ws, Element.decodeAs k.datatype dims src = .ok ws ∧ p = onGrid k h ws := by
  have hguard : (!(Double.zero < h.absoluteTolerance && h.absoluteTolerance < .largest)) = true ↔
      ¬(Double.zero < h.absoluteTolerance ∧ h.absoluteTolerance < .largest) := by
    rw [Bool.not_eq_true', ← Bool.not_eq_true, Bool.and_eq_true, decide_eq_true_iff,
      decide_eq_true_iff]
  unfold make
  by_cases ht : Double.zero < h.absoluteTolerance ∧ h.absoluteTolerance < .largest
  case pos =>
    rw [if_neg (mt hguard.mp (not_not_intro ht))]
    simp [ht, eq_comm (a := p)]
  case neg =>
    rw [if_pos (hguard.mpr ht)]
    simp [ht]

theorem length_mod_of_make (hp : make stage k h dims src = .ok p) :
    src.length % k.datatype.size = 0 := by
  have ⟨_, _, hws, _⟩ := make_eq_ok_iff.mp hp
  exact (Element.decodeAs_eq_ok_iff.mp hws).left

variable {w : Nat}

-- The word of an element's grid point.
def pointWord (p : Placement) (w : Nat) : Nat :=
  p.kind.ofDouble (p.grid.point (p.code w))

def IsFill (p : Placement) (w : Nat) : Prop :=
  p.hints.isFill (p.kind.toDouble w) = true

-- An element that may move to its grid point: it is a finite number outside of the lossless ranges,
-- and the point is within the tolerance even after a passage through the element type.
structure Moves (p : Placement) (w : Nat) : Prop where
  finite : (p.kind.toDouble w).isFinite = true
  above  : ¬p.kind.toDouble w ≤ p.hints.losslessUpTo
  below  : ¬p.hints.losslessFrom ≤ p.kind.toDouble w
  within : (p.kind.toDouble (p.pointWord w) - p.kind.toDouble w).abs ≤ p.hints.absoluteTolerance

-- The last value is the one of the three before it that is meant for an element of this sort.
inductive Selects {α : Type} (p : Placement) (w : Nat) (fill exact regular : α) : α → Prop
  | fill (hfill : p.IsFill w) : Selects p w fill exact regular fill
  | exact (hfill : ¬p.IsFill w) (hstays : ¬p.Moves w) : Selects p w fill exact regular exact
  | regular (hfill : ¬p.IsFill w) (hmoves : p.Moves w) : Selects p w fill exact regular regular

theorem moves_iff (hfill : ¬p.IsFill w) :
    p.Moves w ↔ isFixed p.hints (p.kind.toDouble w) = false ∧
      p.grid.reconstructsWithin p.kind p.hints.absoluteTolerance (p.kind.toDouble w) = true := by
  have hno : p.hints.isFill (p.kind.toDouble w) = false := Bool.not_eq_true _ ▸ hfill
  have hfixed : isFixed p.hints (p.kind.toDouble w) = false ↔
      (p.kind.toDouble w).isFinite = true ∧ ¬p.kind.toDouble w ≤ p.hints.losslessUpTo ∧
        ¬p.hints.losslessFrom ≤ p.kind.toDouble w := by
    simp [isFixed, Hints.isExactPoint, hno]
  rw [hfixed]
  constructor
  case mp => exact fun h => ⟨⟨h.finite, h.above, h.below⟩, decide_eq_true h.within⟩
  case mpr => exact fun ⟨⟨h₁, h₂, h₃⟩, h⟩ => ⟨h₁, h₂, h₃, of_decide_eq_true h⟩

theorem selects_role (p : Placement) (w : Nat) :
    p.Selects w Role.fill .exact .regular (p.role w) := by
  unfold role
  dsimp only
  split
  case isTrue hfill => exact .fill hfill
  case isFalse hfill =>
    have hmoves := moves_iff hfill
    split
    case isTrue hfixed => exact .exact hfill (by simp [hmoves, hfixed])
    case isFalse hfixed =>
      split
      case isTrue hwithin => exact .regular hfill (hmoves.mpr ⟨by simpa using hfixed, hwithin⟩)
      case isFalse hwithin => exact .exact hfill (by simp [hmoves, hwithin])

theorem isFill_of_role (hw : p.role w = .fill) : p.hints.isFill (p.kind.toDouble w) = true := by
  have hrole := p.selects_role w
  rw [hw] at hrole
  cases hrole
  case fill hfill => exact hfill

theorem regular_of_role (hw : p.role w = .regular) :
    isFixed p.hints (p.kind.toDouble w) = false ∧
      p.grid.reconstructsWithin p.kind p.hints.absoluteTolerance (p.kind.toDouble w) = true := by
  have hrole := p.selects_role w
  rw [hw] at hrole
  cases hrole
  case regular hfill hmoves => exact (moves_iff hfill).mp hmoves

-- What goes by the role goes by the sort of the element.
theorem selects_of_role {α : Type} (p : Placement) (w : Nat) (fill exact regular : α) :
    p.Selects w fill exact regular (match p.role w with
      | .fill => fill
      | .exact => exact
      | .regular => regular) := by
  have hrole := p.selects_role w
  generalize p.role w = r at hrole ⊢
  cases hrole
  case fill hfill => exact .fill hfill
  case exact hfill hstays => exact .exact hfill hstays
  case regular hfill hmoves => exact .regular hfill hmoves

def restored (p : Placement) (w : Nat) : Nat :=
  match p.role w with
  | .fill => p.kind.ofDouble p.hints.fillValue
  | .exact => w
  | .regular => p.kind.ofDouble (p.grid.point (p.code w))

-- What an element may come back as: a fill as the fill value, an element that stays as it is, and
-- any other as its grid point.
def Restores (p : Placement) (w v : Nat) : Prop :=
  p.Selects w (p.kind.ofDouble p.hints.fillValue) w (p.pointWord w) v

theorem restores_restored (p : Placement) (w : Nat) : p.Restores w (p.restored w) :=
  p.selects_of_role w _ _ _

theorem restored_lt (hw : w < 2 ^ p.kind.datatype.width) :
    p.restored w < 2 ^ p.kind.datatype.width := by
  unfold restored
  split
  case h_1 => exact p.kind.ofDouble_lt _
  case h_2 => exact hw
  case h_3 => exact p.kind.ofDouble_lt _

theorem Restores.admits {v : Nat} (h : p.Restores w v) (hw : w < 2 ^ p.kind.datatype.width) :
    p.hints.Admits p.kind w v := by
  cases h
  case fill hfill =>
    have hequal := (Bool.and_eq_true_iff.mp hfill).right
    exact .inr (.inl ⟨hfill, FloatKind.equal_of_equal hw hequal⟩)
  case exact => exact .inl rfl
  case regular hmoves => exact .inr (.inr hmoves.within)

theorem admits_restored (hw : w < 2 ^ p.kind.datatype.width) :
    p.hints.Admits p.kind w (p.restored w) :=
  (p.restores_restored w).admits hw

theorem between_of_regular {ws : List Nat} (hw : w ∈ ws)
    (hrole : (onGrid k h ws).role w = .regular) :
    (onGrid k h ws).low ≤ k.toDouble w ∧ k.toDouble w ≤ (onGrid k h ws).high := by
  have hfixed : isFixed h (k.toDouble w) = false := (regular_of_role hrole).left
  have hfinite : (k.toDouble w).isFinite = true := by
    simpa using (Bool.or_eq_false_iff.mp hfixed).left
  have ⟨low, high, hrange, hlow, hhigh⟩ :=
    Grid.exists_range?_eq (List.mem_map_of_mem hw) hfinite hfixed
  simp only [onGrid, hrange, Option.getD_some]
  exact ⟨hlow, hhigh⟩

theorem code_le {ws : List Nat} {reserved bits : Nat}
    (hcovers : (onGrid k h ws).grid.Covers (onGrid k h ws).high reserved bits) (hw : w ∈ ws)
    (hrole : (onGrid k h ws).role w = .regular) :
    (onGrid k h ws).code w ≤ (onGrid k h ws).grid.code (onGrid k h ws).high := by
  have ⟨hlow, hhigh⟩ := between_of_regular hw hrole
  exact hcovers.code_le hlow hhigh

@[simp]
theorem kind_onGrid (k : FloatKind) (h : Hints) (ws : List Nat) : (onGrid k h ws).kind = k := rfl

@[simp]
theorem hints_onGrid (k : FloatKind) (h : Hints) (ws : List Nat) : (onGrid k h ws).hints = h := rfl

@[simp]
theorem words_onGrid (k : FloatKind) (h : Hints) (ws : List Nat) : (onGrid k h ws).words = ws := rfl

theorem exactWords_lt {ws : List Nat} (hws : ∀ w ∈ ws, w < 2 ^ k.datatype.width) :
    ∀ w ∈ (onGrid k h ws).exactWords, w < 2 ^ k.datatype.width :=
  fun w hw => hws w (List.mem_filter.mp hw).left

-- An array that comes back as its words are restored.
theorem forall₂_restores (h : Hints) (hd : src.length % k.datatype.size = 0) :
    let p := onGrid k h (Element.split k.datatype src)
    let back := Element.join k.datatype ((Element.split k.datatype src).map p.restored)
    back.length = src.length ∧
      List.Forall₂ p.Restores (Element.split k.datatype src) (Element.split k.datatype back) :=
  Element.forall₂_split_join hd
    (fun _ hw => restored_lt (p := onGrid k h _) (Element.lt_of_mem_split hw))
    fun w _ => restores_restored (onGrid k h _) w

end Stage.Placement
end GridPress

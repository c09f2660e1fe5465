import GridPress.Proofs.Accuracy

namespace GridPress.Accuracy

open Binary (Fields)

variable {k : FloatKind} {floor : Double} {m n d bits : Nat} {x : Fields} {worst : Worst}
  {cs : List Comparison}

-- How far numbers with these fields are apart, in the last place of the larger. There is no telling
-- if their signs differ or their exponents are more than one apart.
def distance? (m : Nat) (x y : Fields) : Option Nat :=
  if x.sign ≠ y.sign then
    none
  else if x.exponent = y.exponent then
    some (x.mantissa - y.mantissa + (y.mantissa - x.mantissa))
  else if x.exponent = y.exponent + 1 then
    some (((2 ^ m + x.mantissa) * 2 - (2 ^ m + y.mantissa)) / 2)
  else if y.exponent = x.exponent + 1 then
    some (((2 ^ m + y.mantissa) * 2 - (2 ^ m + x.mantissa)) / 2)
  else
    none

-- The bits of a mantissa that are above those of a distance.
def sharedBits (m : Nat) : Option Nat → Nat
  | none => 0
  | some 0 => m
  | some d => m - d.log2

theorem matchingBits_eq (k : FloatKind) (v w : Nat) :
    matchingBits k v w = sharedBits k.format.mantissaBits
      (distance? k.format.mantissaBits (k.format.split v) (k.format.split w)) := rfl

-- A distance below one unit in the place of a bit leaves that bit and those above it.
theorem lt_sharedBits (hbits : bits < m) (hd : d < 2 ^ (m - bits)) :
    bits < sharedBits m (some d) := by
  cases d
  case zero => exact hbits
  case succ d =>
    have hlog : (d + 1).log2 < m - bits := (Nat.log2_lt (Nat.succ_ne_zero d)).mpr hd
    change bits < m - (d + 1).log2
    omega

theorem distance?_mantissa (m : Nat) (x : Fields) (n : Nat) :
    distance? m x { x with mantissa := n } = some (x.mantissa - n + (n - x.mantissa)) := by
  simp [distance?]

-- The distance from the least number of the next exponent.
theorem distance?_carry (m : Nat) (x : Fields) :
    distance? m x { x with exponent := x.exponent + 1, mantissa := 0 } =
      some ((2 ^ m - x.mantissa) / 2) := by
  have hdifference : 2 ^ m * 2 - (2 ^ m + x.mantissa) = 2 ^ m - x.mantissa := by omega
  have hexponent : x.exponent ≠ x.exponent + 1 + 1 := by omega
  simp [distance?, hexponent, hdifference]

theorem bits_record (floor : Double) (worst : Worst) (c : Comparison) :
    (worst.record floor c).bits = min worst.bits c.bits := by
  unfold Worst.record
  split
  case isTrue => rfl
  case isFalse => split <;> rfl

theorem bits_lt_iff :
    (cs.foldl (Worst.record floor) worst).bits < n ↔ worst.bits < n ∨ ∃ c ∈ cs, c.bits < n := by
  refine foldl_record_iff (·.bits < n) (·.bits < n) fun worst c => ?_
  rw [bits_record, min_lt_iff]

-- Arrays agree on as many bits as each pair of their elements does.
theorem le_bits_determine {t : Datatype} {original restored : Bytes} (ht : t.kind? = some k)
    (hd : original.length % t.size = 0) (hl : restored.length = original.length)
    (hn : n ≤ k.format.mantissaBits)
    (hpairs : List.Forall₂ (n ≤ matchingBits k · ·) (Element.split t original)
      (Element.split t restored)) (floor : Double) :
    ∃ a, determine t floor original restored = .ok a ∧ n ≤ a.bits := by
  have hwords : (Element.split t original).length = (Element.split t restored).length := by
    rw [Element.length_split, Element.length_split, hl]
  have hbest : bestBits t = k.format.mantissaBits := by
    simp only [bestBits, Datatype.mantissaBits?, ht, Option.map_some, Option.getD_some]
  have hworst : ¬((comparisons t (Element.split t original) (Element.split t restored)).foldl
      (Worst.record floor) { bits := bestBits t }).bits < n := by
    simp only [comparisons, ht, hbest]
    rw [bits_lt_iff, or_iff_right (Nat.not_lt.mpr hn)]
    exact (not_exists_comparison_iff hwords fun _ _ => Nat.not_le.symm).mpr hpairs
  exact ⟨_, determine_of_length hd hl floor, Int.ofNat_le.mpr (Nat.not_lt.mp hworst)⟩

end GridPress.Accuracy

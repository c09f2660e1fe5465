namespace GridPress

inductive Position where
  | preconditionFirst
  | converter
  | preconditionSecond
  | datatype
  | byte
deriving DecidableEq

namespace Position

def rank : Position → Nat
  | preconditionFirst => 0
  | converter => 1
  | preconditionSecond => 2
  | datatype => 3
  | byte => 4

def name : Position → String
  | preconditionFirst => "preconditioner-first"
  | converter => "converter"
  | preconditionSecond => "preconditioner-second"
  | datatype => "datatype"
  | byte => "byte"

-- The name in the detailed text of an algorithm.
def detailName : Position → String
  | preconditionFirst => "PreconditionerFirst"
  | converter => "Converter"
  | preconditionSecond => "PreconditionerSecond"
  | datatype => "Datatype"
  | byte => "Byte"

instance : LE Position := ⟨fun p q => p.rank ≤ q.rank⟩

instance : LT Position := ⟨fun p q => p.rank < q.rank⟩

instance (p q : Position) : Decidable (p ≤ q) :=
  inferInstanceAs (Decidable (p.rank ≤ q.rank))

instance (p q : Position) : Decidable (p < q) :=
  inferInstanceAs (Decidable (p.rank < q.rank))

end Position
end GridPress

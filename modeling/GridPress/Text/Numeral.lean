import GridPress.Digits

namespace GridPress.Text

def digit? (c : Char) : Option Nat :=
  if '0' ≤ c ∧ c ≤ '9' then some (c.toNat - '0'.toNat) else none

-- The number written by one or more digits.
def digits? (cs : List Char) : Option Nat :=
  if cs.isEmpty then none else (cs.mapM digit?).map (Digits.value 10)

-- A natural number up to `limit`; the only sign it takes is a plus.
def natural? (limit : Nat) (cs : List Char) : Option Nat :=
  let number :=
    match cs with
    | '+' :: ds => digits? ds
    | ds => digits? ds
  number.filter (· ≤ limit)

-- A whole number of at least `low` and at most `high`.
def integer? (low high : Int) (cs : List Char) : Option Int :=
  let number :=
    match cs with
    | '-' :: ds => (digits? ds).map fun n => -(n : Int)
    | '+' :: ds => (digits? ds).map Int.ofNat
    | ds => (digits? ds).map Int.ofNat
  number.filter fun i => low ≤ i && i ≤ high

end GridPress.Text

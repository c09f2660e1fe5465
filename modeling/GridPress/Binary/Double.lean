import GridPress.Binary.Format

namespace GridPress

open Binary (Format)

structure Double where
  word : UInt64
deriving DecidableEq

namespace Double

-- What a word stands for: a finite number is a sign and a count of units.
inductive Value where
  | nan
  | infinite (negative : Bool)
  | finite (negative : Bool) (units : Nat)

def ofWord (w : Nat) : Double :=
  ⟨UInt64.ofNat w⟩

def toWord (x : Double) : Nat :=
  x.word.toNat

def ofParts (negative : Bool) (magnitude : Nat) : Double :=
  ofWord (Format.double.signed negative magnitude)

def negative (x : Double) : Bool :=
  Format.double.negative x.toWord

def magnitude (x : Double) : Nat :=
  Format.double.magnitude x.toWord

def isNaN (x : Double) : Bool :=
  Format.double.infinity < x.magnitude

def isFinite (x : Double) : Bool :=
  x.magnitude < Format.double.infinity

def value (x : Double) : Value :=
  if x.magnitude < Format.double.infinity then
    .finite x.negative (Format.double.units x.magnitude)
  else if x.magnitude = Format.double.infinity then
    .infinite x.negative
  else
    .nan

-- The finite number that is `n / d` units away from zero.
def ofUnits (negative : Bool) (n d : Nat) : Double :=
  ofParts negative (Format.double.nearest n d)

-- The number nearest to the whole number `n`.
def ofNat (n : Nat) : Double :=
  ofUnits false (n * Format.double.one) 1

def ofInt (i : Int) : Double :=
  ofUnits (i < 0) (i.natAbs * Format.double.one) 1

def zero : Double := ⟨0⟩

def largest : Double :=
  ofParts false (Format.double.infinity - 1)

def infinity : Double :=
  ofParts false Format.double.infinity

-- The outcome of an operation that has no number for its operands.
def indefinite : Double :=
  ofParts true (Format.double.infinity + 2 ^ 51)

def quiet (x : Double) : Double :=
  ⟨x.word ||| 0x8000000000000⟩

def neg (x : Double) : Double :=
  ⟨x.word ^^^ 0x8000000000000000⟩

def abs (x : Double) : Double :=
  ofParts false x.magnitude

instance : Neg Double := ⟨neg⟩

def place (x : Double) : Int :=
  if x.negative then -x.magnitude else x.magnitude

protected def le (x y : Double) : Bool :=
  !x.isNaN && !y.isNaN && x.place ≤ y.place

protected def lt (x y : Double) : Bool :=
  !x.isNaN && !y.isNaN && x.place < y.place

-- Equality as numbers: zeros agree whatever their sign, and what is no number equals nothing.
def equal (x y : Double) : Bool :=
  !x.isNaN && !y.isNaN && x.place == y.place

instance : LE Double := ⟨fun x y => x.le y⟩

instance : LT Double := ⟨fun x y => x.lt y⟩

instance (x y : Double) : Decidable (x ≤ y) :=
  inferInstanceAs (Decidable (x.le y = true))

instance (x y : Double) : Decidable (x < y) :=
  inferInstanceAs (Decidable (x.lt y = true))

-- The larger operand; one that is no number gives way to the other. Of two equal ones, such as
-- zeros that differ in sign, the second is taken.
def max (x y : Double) : Double :=
  if x.isNaN ∨ x ≤ y then y else x

def min (x y : Double) : Double :=
  if x.isNaN ∨ y ≤ x then y else x

-- The outcome of an operation whose operands may be no numbers.
def propagate (x y result : Double) : Double :=
  if x.isNaN then x.quiet else if y.isNaN then y.quiet else result

def signedUnits (negative : Bool) (units : Nat) : Int :=
  if negative then -units else units

-- A sum of zero is negative only if both terms are.
def ofSum (s t : Bool) (m n : Nat) : Double :=
  let sum := signedUnits s m + signedUnits t n
  if sum = 0 then ofParts (s && t) 0 else ofUnits (sum < 0) sum.natAbs 1

def sum : Value → Value → Double
  | .finite s m, .finite t n => ofSum s t m n
  | .infinite s, .infinite t => if s = t then ofParts s Format.double.infinity else indefinite
  | .infinite s, _ => ofParts s Format.double.infinity
  | _, .infinite t => ofParts t Format.double.infinity
  | _, _ => indefinite

def product : Value → Value → Double
  | .finite s m, .finite t n => ofUnits (s != t) (m * n) Format.double.one
  | .infinite _, .finite _ 0 => indefinite
  | .finite _ 0, .infinite _ => indefinite
  | .infinite s, .infinite t => ofParts (s != t) Format.double.infinity
  | .infinite s, .finite t _ => ofParts (s != t) Format.double.infinity
  | .finite s _, .infinite t => ofParts (s != t) Format.double.infinity
  | _, _ => indefinite

def quotient : Value → Value → Double
  | .finite _ 0, .finite _ 0 => indefinite
  | .finite s _, .finite t 0 => ofParts (s != t) Format.double.infinity
  | .finite s m, .finite t n => ofUnits (s != t) (m * Format.double.one) n
  | .infinite s, .finite t _ => ofParts (s != t) Format.double.infinity
  | .finite s _, .infinite t => ofParts (s != t) 0
  | _, _ => indefinite

def negateValue : Value → Value
  | .nan => .nan
  | .infinite s => .infinite !s
  | .finite s m => .finite (!s) m

def add (x y : Double) : Double :=
  propagate x y (sum x.value y.value)

def sub (x y : Double) : Double :=
  propagate x y (sum x.value (negateValue y.value))

def mul (x y : Double) : Double :=
  propagate x y (product x.value y.value)

def div (x y : Double) : Double :=
  propagate x y (quotient x.value y.value)

instance : Add Double := ⟨add⟩

instance : Sub Double := ⟨sub⟩

instance : Mul Double := ⟨mul⟩

instance : Div Double := ⟨div⟩

-- The nearest natural number, halves away from zero, cut off at `limit`. What is below zero or no
-- number gives 0.
def roundToNat (limit : Nat) (x : Double) : Nat :=
  match x.value with
  | .finite false m => Nat.min limit ((2 * m + Format.double.one) / (2 * Format.double.one))
  | .infinite false => limit
  | _ => 0

-- The largest natural number not above `x`, likewise.
def floorToNat (limit : Nat) (x : Double) : Nat :=
  match x.value with
  | .finite false m => Nat.min limit (m / Format.double.one)
  | .infinite false => limit
  | _ => 0

-- The least natural number not below `x`, likewise.
def ceilToNat (limit : Nat) (x : Double) : Nat :=
  match x.value with
  | .finite false m => Nat.min limit ((m + (Format.double.one - 1)) / Format.double.one)
  | .infinite false => limit
  | _ => 0

end Double
end GridPress

import GridPress.Digits

namespace GridPress.Binary

-- A word of a format is a sign, a biased exponent and a stored mantissa, from the top. The word
-- without its sign is its magnitude.
structure Format where
  mantissaBits : Nat
  exponentBits : Nat
deriving DecidableEq

structure Fields where
  sign     : Nat
  exponent : Nat
  mantissa : Nat
deriving DecidableEq

namespace Format

def single : Format := ⟨23, 8⟩

def double : Format := ⟨52, 11⟩

variable (f : Format)

def width : Nat :=
  1 + f.exponentBits + f.mantissaBits

def exponentMax : Nat :=
  2 ^ f.exponentBits - 1

-- The weight of the sign bit, one more than the largest magnitude.
def signWeight : Nat :=
  2 ^ (f.mantissaBits + f.exponentBits)

-- The magnitude of infinity. Larger magnitudes are not numbers.
def infinity : Nat :=
  f.exponentMax * 2 ^ f.mantissaBits

-- Every finite number is a whole number of units. The unit is the least positive number.
-- This is the number of units in 1.
def one : Nat :=
  2 ^ (2 ^ (f.exponentBits - 1) - 2 + f.mantissaBits)

def negative (w : Nat) : Bool :=
  w / f.signWeight % 2 == 1

def magnitude (w : Nat) : Nat :=
  w % f.signWeight

def signed (negative : Bool) (m : Nat) : Nat :=
  if negative then f.signWeight + m else m

def split (w : Nat) : Fields where
  sign     := w / f.signWeight % 2
  exponent := w / 2 ^ f.mantissaBits % 2 ^ f.exponentBits
  mantissa := w % 2 ^ f.mantissaBits

-- Parts that are too wide lose their upper bits.
def join (x : Fields) : Nat :=
  x.sign % 2 * f.signWeight +
    (x.exponent % 2 ^ f.exponentBits * 2 ^ f.mantissaBits + x.mantissa % 2 ^ f.mantissaBits)

-- Magnitudes below the second exponent are evenly spaced from 0 on; each exponent above doubles
-- the spacing.
def units (m : Nat) : Nat :=
  if m / 2 ^ f.mantissaBits = 0 then
    m
  else
    (2 ^ f.mantissaBits + m % 2 ^ f.mantissaBits) * 2 ^ (m / 2 ^ f.mantissaBits - 1)

end Format

-- The whole number nearest to `n / d`, the even one of two.
def roundHalfEven (n d : Nat) : Nat :=
  let q := n / d
  let r := n % d
  if d < 2 * r ∨ (2 * r = d ∧ q % 2 = 1) then q + 1 else q

-- The magnitude nearest to `n / d` units, the even one of two. Dropping `k` bits moves the result
-- up by `k` exponents, and rounding up to the next power of two carries into the exponent.
def Format.nearest (f : Format) (n d : Nat) : Nat :=
  let k := (n / d).log2 - f.mantissaBits
  min (roundHalfEven n (d * 2 ^ k) + k * 2 ^ f.mantissaBits) f.infinity

end GridPress.Binary

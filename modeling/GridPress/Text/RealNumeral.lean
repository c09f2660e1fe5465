import GridPress.Binary.Double
import GridPress.Text.Numeral

namespace GridPress.Text

open Binary (Format)

def signAndRest : List Char → Bool × List Char
  | '-' :: cs => (true, cs)
  | '+' :: cs => (false, cs)
  | cs => (false, cs)

-- The exponent behind the letter `e`, or 0 if nothing stands there.
def exponent? : List Char → Option Int
  | [] => some 0
  | c :: cs =>
    if c = 'e' ∨ c = 'E' then
      let (negative, ds) := signAndRest cs
      (digits? ds).map fun n => if negative then -(n : Int) else n
    else
      none

-- The magnitude nearest to `n * 10 ^ e`. Powers far outside the format are not worked out.
def nearestDecimal (n : Nat) (e : Int) : Nat :=
  let top : Int := (toString n).length + e
  if n = 0 ∨ top < -400 then
    0
  else if 400 < top then
    Format.double.infinity
  else
    Format.double.nearest (n * 10 ^ e.toNat * Format.double.one) (10 ^ (-e).toNat)

-- Digits with an optional point among or around them, then an optional exponent.
def decimalMagnitude? (cs : List Char) : Option Nat := do
  let isDigit := fun c => (digit? c).isSome
  let whole := cs.takeWhile isDigit
  let (fraction, rest) :=
    match cs.dropWhile isDigit with
    | '.' :: rest => (rest.takeWhile isDigit, rest.dropWhile isDigit)
    | rest => ([], rest)
  let n ← digits? (whole ++ fraction)
  let e ← exponent? rest
  return nearestDecimal n (e - fraction.length)

-- The number that `cs` writes: a decimal, or one of the words for infinity and for no number, in
-- any case of their letters; a sign may come first.
def real? (cs : List Char) : Option Double :=
  let (negative, body) := signAndRest cs
  let word := String.ofList (body.map Char.toLower)
  if word = "inf" ∨ word = "infinity" then
    some (.ofParts negative Format.double.infinity)
  else if word = "nan" then
    some (.ofParts negative (Format.double.infinity + 2 ^ 51))
  else
    (decimalMagnitude? body).map (.ofParts negative)

end GridPress.Text

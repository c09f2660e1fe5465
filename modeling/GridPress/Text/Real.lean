import GridPress.Binary.Kind
import GridPress.Text.Shortest

namespace GridPress.Text

open Binary (Format)

def digitsOf (n : Nat) : List Char :=
  (toString n).toList

-- A minus if the word has the sign bit, then `inf` or what `finite` writes for the magnitude. A
-- word that is no number shows no sign.
def written (f : Format) (w : Nat) (finite : Nat → List Char) : String :=
  let m := f.magnitude w
  if f.infinity < m then
    "NaN"
  else
    let body := if m = f.infinity then "inf".toList else finite m
    String.ofList (if f.negative w then '-' :: body else body)

-- The digits `ds` of a number whose last digit counts `10 ^ e`.
def positional (ds : List Char) (e : Int) : List Char :=
  if 0 ≤ e then
    ds ++ List.replicate e.toNat '0'
  else
    let places := (-e).toNat
    let padded := List.replicate (places + 1 - ds.length) '0' ++ ds
    let whole := padded.length - places
    padded.take whole ++ '.' :: padded.drop whole

-- Never an exponent, and no point in a whole number.
def plain (f : Format) (w : Nat) : String :=
  written f w fun m =>
    if m = 0 then
      ['0']
    else
      let x := Decimal.shortest f m
      positional (digitsOf x.digits) x.exponent

-- One digit before the point, which is left out if no digit follows, and always an exponent.
def scientific (f : Format) (w : Nat) : String :=
  written f w fun m =>
    if m = 0 then
      ['0', 'e', '0']
    else
      let x := Decimal.shortest f m
      let ds := digitsOf x.digits
      let exponent := (toString (x.exponent + (ds.length - 1 : Nat))).toList
      match ds with
      | d :: d' :: ds => d :: '.' :: d' :: ds ++ 'e' :: exponent
      | ds => ds ++ 'e' :: exponent

-- Exactly `places` decimal places of the exact value, rounded half to even.
def fixed (places : Nat) (f : Format) (w : Nat) : String :=
  written f w fun m =>
    positional (digitsOf (Binary.roundHalfEven (f.units m * 10 ^ places) f.one)) (-places)

end GridPress.Text

namespace GridPress.Double

open Binary (Format)

def plain (x : Double) : String :=
  Text.plain Format.double x.toWord

def scientific (x : Double) : String :=
  Text.scientific Format.double x.toWord

def fixed (places : Nat) (x : Double) : String :=
  Text.fixed places Format.double x.toWord

end GridPress.Double

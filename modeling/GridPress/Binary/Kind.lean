import GridPress.Binary.Double

namespace GridPress

open Binary (Format Fields)

inductive FloatKind where
  | single
  | double
deriving DecidableEq

namespace FloatKind

def format : FloatKind → Format
  | single => Format.single
  | double => Format.double

-- Moving a mantissa between the formats drops or adds this many bits.
def mantissaGap : Nat :=
  Format.double.mantissaBits - Format.single.mantissaBits

-- The double units in one unit of a single.
def unitRatio : Nat :=
  Format.double.one / Format.single.one

def widen (w : Nat) : Double :=
  let negative := Format.single.negative w
  let m := Format.single.magnitude w
  if m < Format.single.infinity then
    .ofUnits negative (Format.single.units m * unitRatio) 1
  else if m = Format.single.infinity then
    .ofParts negative Format.double.infinity
  else
    (Double.ofParts negative
      (Format.double.infinity + (m - Format.single.infinity) * 2 ^ mantissaGap)).quiet

def narrow (x : Double) : Nat :=
  match x.value with
  | .finite s m => Format.single.signed s (Format.single.nearest m unitRatio)
  | .infinite s => Format.single.signed s Format.single.infinity
  | .nan =>
    let payload := (x.magnitude - Format.double.infinity) / 2 ^ mantissaGap
    Format.single.signed x.negative (Format.single.infinity + (payload ||| 2 ^ 22))

def toDouble : FloatKind → Nat → Double
  | single, w => widen w
  | double, w => .ofWord w

def ofDouble : FloatKind → Double → Nat
  | single, x => narrow x
  | double, x => x.toWord

end FloatKind
end GridPress

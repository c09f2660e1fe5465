import GridPress.Binary.Kind

namespace GridPress

inductive Datatype where
  | float
  | double
  | int8
  | int16
  | int32
  | int64
deriving DecidableEq

namespace Datatype

def all : List Datatype :=
  [float, double, int8, int16, int32, int64]

-- Bytes per element.
def size : Datatype → Nat
  | int8 => 1
  | int16 => 2
  | float | int32 => 4
  | double | int64 => 8

-- Bits per element.
def width (d : Datatype) : Nat :=
  8 * d.size

def kind? : Datatype → Option FloatKind
  | float => some .single
  | double => some .double
  | _ => none

def isFloat (d : Datatype) : Bool :=
  d.kind?.isSome

def mantissaBits? (d : Datatype) : Option Nat :=
  d.kind?.map fun k => k.format.mantissaBits

-- The significant decimal digits that every number of a floating-point type carries.
def significantDigits? : Datatype → Option Nat
  | float => some 6
  | double => some 15
  | _ => none

def name : Datatype → String
  | float => "float"
  | double => "double"
  | int8 => "int8"
  | int16 => "int16"
  | int32 => "int32"
  | int64 => "int64"

-- The number that stands for the type in a file.
def tag : Datatype → UInt8
  | float => 0
  | double => 1
  | int8 => 2
  | int16 => 3
  | int32 => 4
  | int64 => 5

def ofName? (s : String) : Option Datatype :=
  all.find? fun d => d.name == s

def ofTag? (t : UInt8) : Option Datatype :=
  all.find? fun d => d.tag == t

-- The integer that the word `w` of an integer type stands for, in two's complement.
def toInt (d : Datatype) (w : Nat) : Int :=
  Int.bmod w (2 ^ d.width)

theorem size_pos (d : Datatype) : 0 < d.size := by
  cases d <;> decide

theorem ofName?_name (d : Datatype) : ofName? d.name = some d := by
  cases d <;> decide

theorem ofTag?_tag (d : Datatype) : ofTag? d.tag = some d := by
  cases d <;> decide

theorem tag_of_ofTag? {t : UInt8} {d : Datatype} (h : ofTag? t = some d) : d.tag = t := by
  simpa using List.find?_some h

end Datatype

namespace FloatKind

def datatype : FloatKind → Datatype
  | single => .float
  | double => .double

theorem datatype_of_kind? {k : FloatKind} {d : Datatype} (h : d.kind? = some k) :
    k.datatype = d := by
  cases d <;> cases k <;> simp_all [Datatype.kind?, datatype]

end FloatKind
end GridPress

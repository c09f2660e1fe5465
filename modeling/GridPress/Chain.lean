import GridPress.Registry

namespace GridPress

structure Chain where
  preconditionFirst  : List Algorithm   := []
  converter?         : Option Algorithm := none
  preconditionSecond : List Algorithm   := []
  typed?             : Option Algorithm := none
  byte?              : Option Algorithm := none
  isLossy            : Bool             := false

namespace Chain

variable (c : Chain)

-- All stages in the order in which they run.
def stages : List Algorithm :=
  c.preconditionFirst ++ c.converter?.toList ++ c.preconditionSecond ++ c.typed?.toList ++
    c.byte?.toList

def size : Nat :=
  c.preconditionFirst.length + c.preconditionSecond.length + c.converter?.toList.length +
    c.typed?.toList.length + c.byte?.toList.length

-- Fills a position that takes one stage only.
def claim (a : Algorithm) : Option Algorithm → Result (Option Algorithm)
  | none => .ok (some a)
  | some b => .error (.invalidChain (.slot b.name a.name a.position))

-- Puts a stage into its position.
def place (a : Algorithm) : Result Chain :=
  match a.position with
  | .preconditionFirst => .ok { c with preconditionFirst := c.preconditionFirst ++ [a] }
  | .preconditionSecond => .ok { c with preconditionSecond := c.preconditionSecond ++ [a] }
  | .converter => do return { c with converter? := ← claim a c.converter? }
  | .datatype => do return { c with typed? := ← claim a c.typed? }
  | .byte => do return { c with byte? := ← claim a c.byte? }

-- Adds a stage. From a lossy one on the chain is lossy.
def add (a : Algorithm) : Result Chain := do
  let c ← c.place a
  return { c with isLossy := c.isLossy || a.isLossy }

-- Adds stages one after the other, none of which may belong before the position `last`.
def addAll (c : Chain) (last : Position) : List Algorithm → Result Chain
  | [] => .ok c
  | a :: as =>
    if a.position < last then
      .error (.invalidChain (.order a.name a.position last))
    else do
      (← c.add a).addAll a.position as

def ofAlgorithms (as : List Algorithm) : Result Chain := do
  let c ← addAll {} .preconditionFirst as
  if c.size = 0 then
    .error (.invalidChain .empty)
  else
    .ok c

-- The names in a list of names and numeric ids, separated by commas. Blank ones are left out.
def tokens (spec : String) : List String :=
  (Text.separate ',' spec.toList).map (fun cs => String.ofList (Text.strip cs))
    |>.filter fun s => !s.isEmpty

def parse [Codecs] (spec : String) : Result Chain := do
  ofAlgorithms (← (tokens spec).mapM Registry.byName)

def text : String :=
  String.intercalate "," (c.stages.map Algorithm.name)

-- Two chains are the same if their positions hold the same algorithms.
def isSame (d : Chain) : Bool :=
  let same := fun (as bs : List Algorithm) => as.isEqv bs Algorithm.isSame
  same c.preconditionFirst d.preconditionFirst && same c.converter?.toList d.converter?.toList &&
    same c.preconditionSecond d.preconditionSecond && same c.typed?.toList d.typed?.toList &&
    same c.byte?.toList d.byte?.toList && c.isLossy == d.isLossy

-- The type of the elements behind the converter.
def convertedType (t : Datatype) : Datatype :=
  match c.converter? with
  | some a => a.outputType t
  | none => t

def checkSupport (t : Datatype) (as : List Algorithm) : Result Unit :=
  match as.find? fun a => !a.supports t with
  | some a => .error (.invalidChain (.unsupported a.name t))
  | none => .ok ()

-- Checks that every stage supports the elements that reach it.
def checkApplicable (t : Datatype) : Result Unit := do
  checkSupport t c.preconditionFirst
  checkSupport t c.converter?.toList
  checkSupport (c.convertedType t) c.preconditionSecond
  checkSupport (c.convertedType t) c.typed?.toList

end Chain
end GridPress

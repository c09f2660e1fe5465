import GridPress.Datatype
import GridPress.Hints
import GridPress.Text.RealNumeral

namespace GridPress.CommandLine

-- What an array has to be compressed to, or checked against.
structure Requirements where
  datatype : Datatype := .double
  hints    : Hints    := {}
deriving DecidableEq

inductive Command where
  | compress (input output : String) (requirements : Requirements) (check : Bool)
  | decompress (input output : String)
  | validate (original compressed : String) (requirements : Requirements)
  | inspect (file : String)
  | list
deriving DecidableEq

inductive Request where
  | run (command : Command)
  | version
  | help
deriving DecidableEq

inductive Flag where
  | verbose
  | check
  | help
  | version
deriving DecidableEq

namespace Flag

def all : List Flag :=
  [verbose, check, help, version]

def word : Flag → String
  | verbose => "verbose"
  | check => "check"
  | help => "help"
  | version => "version"

def letter? : Flag → Option Char
  | verbose => some 'v'
  | check => none
  | help => some 'h'
  | version => some 'V'

end Flag

inductive Setting where
  | datatype
  | absoluteTolerance
  | relativeTolerance
  | absoluteFloor
  | significantDigits
  | significantBits
  | losslessUpTo
  | losslessFrom
  | fillValue
  | chain
deriving DecidableEq

namespace Setting

def all : List Setting :=
  [datatype, absoluteTolerance, relativeTolerance, absoluteFloor, significantDigits,
    significantBits, losslessUpTo, losslessFrom, fillValue, chain]

def word : Setting → String
  | datatype => "datatype"
  | absoluteTolerance => "absolute-tolerance"
  | relativeTolerance => "relative-tolerance"
  | absoluteFloor => "relative-finest-abs"
  | significantDigits => "significant-digits"
  | significantBits => "significant-bits"
  | losslessUpTo => "lossless-up-to"
  | losslessFrom => "lossless-from"
  | fillValue => "fill-value"
  | chain => "chain"

def letter? : Setting → Option Char
  | datatype => some 't'
  | absoluteTolerance => some 'a'
  | relativeTolerance => some 'r'
  | chain => some 'c'
  | _ => none

-- Whether the next argument is the value even if it starts with a hyphen.
def takesHyphen : Setting → Bool
  | significantDigits | significantBits | losslessUpTo | losslessFrom | fillValue => true
  | _ => false

def precision? (value : String) : Option Int :=
  Text.integer? (-2 ^ 31) (2 ^ 31 - 1) value.toList

-- The requirements with the value in its place, provided the value can be read.
def update? (s : Setting) (value : String) (r : Requirements) : Option Requirements :=
  let h := r.hints
  let real? := Text.real? value.toList
  let withHints := fun h => { r with hints := h }
  match s with
  | datatype => (Datatype.ofName? (value.map Char.toLower)).map fun t => { r with datatype := t }
  | absoluteTolerance => real?.map fun x => withHints { h with absoluteTolerance := x }
  | relativeTolerance => real?.map fun x => withHints { h with relativeTolerance := x }
  | absoluteFloor => real?.map fun x => withHints { h with absoluteFloor := x }
  | significantDigits =>
    (precision? value).map fun n => withHints { h with significantDigits := n }
  | significantBits => (precision? value).map fun n => withHints { h with significantBits := n }
  | losslessUpTo => real?.map fun x => withHints { h with losslessUpTo := x }
  | losslessFrom => real?.map fun x => withHints { h with losslessFrom := x }
  | fillValue => real?.map fun x => withHints { h with fillValue := x }
  | chain => some (withHints { h with forcedChain := some value })

end Setting

-- What can stand behind a command's name.
structure Grammar where
  flags    : List Flag
  settings : List Setting := []
  operands : Nat          := 0

inductive Word where
  | flag (f : Flag)
  | setting (s : Setting)

namespace Grammar

variable (g : Grammar)

def word? (s : String) : Option Word :=
  ((g.flags.find? fun f => f.word == s).map .flag).or
    ((g.settings.find? fun t => t.word == s).map .setting)

def letter? (c : Char) : Option Word :=
  ((g.flags.find? fun f => f.letter? == some c).map .flag).or
    ((g.settings.find? fun t => t.letter? == some c).map .setting)

end Grammar

-- Why the reading of arguments ends early.
inductive Stop where
  | malformed
  | request (r : Request)
deriving DecidableEq

-- What the arguments so far say.
structure Reading where
  flags        : List Flag    := []
  settings     : List Setting := []
  requirements : Requirements := {}
  operands     : List String  := []

namespace Reading

variable (r : Reading)

def addFlag (f : Flag) : Except Stop Reading :=
  match f with
  | .help => .error (.request .help)
  | .version => .error (.request .version)
  | f => if f ∈ r.flags then .error .malformed else .ok { r with flags := f :: r.flags }

def addSetting (s : Setting) (value : String) : Except Stop Reading :=
  if s ∈ r.settings then
    .error .malformed
  else
    match s.update? value r.requirements with
    | some requirements => .ok { r with settings := s :: r.settings, requirements }
    | none => .error .malformed

-- An operand is the path of a file, which cannot be empty.
def addOperand (g : Grammar) (s : String) : Except Stop Reading :=
  if s.isEmpty || g.operands ≤ r.operands.length then
    .error .malformed
  else
    .ok { r with operands := r.operands ++ [s] }

def addOperands (g : Grammar) (r : Reading) (ss : List String) : Except Stop Reading :=
  ss.foldlM (fun r s => r.addOperand g s) r

-- Reads the letters behind a hyphen. A setting that none of them is the value of comes back too.
def addLetters (g : Grammar) (r : Reading) : List Char → Except Stop (Reading × Option Setting)
  | [] => .ok (r, none)
  | c :: cs =>
    match g.letter? c with
    | some (.flag f) => do (← r.addFlag f).addLetters g cs
    | some (.setting s) =>
      match cs with
      | [] => .ok (r, some s)
      | '=' :: value => do return (← r.addSetting s (String.ofList value), none)
      | value => do return (← r.addSetting s (String.ofList value), none)
    | none => .error .malformed

-- Reads what is behind two hyphens, in the same way.
def addWord (g : Grammar) (cs : List Char) : Except Stop (Reading × Option Setting) :=
  let word := String.ofList (cs.takeWhile (· ≠ '='))
  match g.word? word, cs.dropWhile (· ≠ '=') with
  | some (.flag f), [] => do return (← r.addFlag f, none)
  | some (.setting s), [] => .ok (r, some s)
  | some (.setting s), _ :: value => do return (← r.addSetting s (String.ofList value), none)
  | _, _ => .error .malformed

-- Reads what is behind the first hyphen of an argument.
def addOption (g : Grammar) (r : Reading) : List Char → Except Stop (Reading × Option Setting)
  | '-' :: cs => r.addWord g cs
  | cs => r.addLetters g cs

end Reading

-- Whether an argument is not taken for an operand or a value.
def startsOption (arg : String) : Bool :=
  match arg.toList with
  | '-' :: _ :: _ => true
  | _ => false

-- Reads the arguments behind a command's name.
def readArguments (g : Grammar) : List String → Reading → Except Stop Reading
  | [], r => .ok r
  | arg :: args, r =>
    match arg.toList with
    | ['-', '-'] => r.addOperands g args
    | '-' :: c :: cs => do
      let (r, setting?) ← r.addOption g (c :: cs)
      match setting?, args with
      | none, args => readArguments g args r
      | some _, [] => .error .malformed
      | some s, value :: args =>
        if startsOption value && !s.takesHyphen then
          .error .malformed
        else
          readArguments g args (← r.addSetting s value)
    | _ => do readArguments g args (← r.addOperand g arg)

def read (g : Grammar) (args : List String) : Except Stop Reading := do
  let r ← readArguments g args {}
  if r.operands.length = g.operands then .ok r else .error .malformed

def compressGrammar : Grammar :=
  ⟨[.verbose, .check, .help], Setting.all, 2⟩

def decompressGrammar : Grammar :=
  ⟨[.verbose, .help], [], 2⟩

def validateGrammar : Grammar :=
  ⟨[.verbose, .help], Setting.all, 2⟩

def inspectGrammar : Grammar :=
  ⟨[.verbose, .help], [], 1⟩

def listGrammar : Grammar :=
  ⟨[.verbose, .help], [], 0⟩

def commandNames : List String :=
  ["compress", "decompress", "validate", "inspect", "list", "help"]

-- Reads a command's name and what is behind it. Help can be asked for on one command.
def readCommand (name : String) (args : List String) : Except Stop Request := do
  match name with
  | "compress" =>
    let r ← read compressGrammar args
    match r.operands with
    | [input, output] => return .run (.compress input output r.requirements (.check ∈ r.flags))
    | _ => throw .malformed
  | "decompress" =>
    match (← read decompressGrammar args).operands with
    | [input, output] => return .run (.decompress input output)
    | _ => throw .malformed
  | "validate" =>
    let r ← read validateGrammar args
    match r.operands with
    | [original, compressed] => return .run (.validate original compressed r.requirements)
    | _ => throw .malformed
  | "inspect" =>
    match (← read inspectGrammar args).operands with
    | [file] => return .run (.inspect file)
    | _ => throw .malformed
  | "list" =>
    let _ ← read listGrammar args
    return .run .list
  | "help" =>
    if args.length ≤ 1 && args.all (· ∈ commandNames) then
      return .help
    else
      throw .malformed
  | _ => throw .malformed

def globalGrammar : Grammar :=
  ⟨[.verbose, .help, .version], [], 0⟩

-- Flags can also stand before the command's name.
def readRequest : List String → Reading → Except Stop Request
  | [], _ => .error .malformed
  | arg :: args, r =>
    match arg.toList with
    | ['-', '-'] => .error .malformed
    | '-' :: c :: cs => do
      let (r, _) ← r.addOption globalGrammar (c :: cs)
      readRequest args r
    | _ => readCommand arg args

-- The request that the arguments make, if they make any.
def Request.ofArguments? (args : List String) : Option Request :=
  match readRequest args {} with
  | .ok r => some r
  | .error (.request r) => some r
  | .error .malformed => none

end GridPress.CommandLine

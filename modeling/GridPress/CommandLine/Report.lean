import GridPress.Stream.Describe
import GridPress.Validation

namespace GridPress.CommandLine

def blanks (n : Nat) : String :=
  String.ofList (List.replicate n ' ')

def padRight (n : Nat) (s : String) : String :=
  s ++ blanks (n - s.length)

def padLeft (n : Nat) (s : String) : String :=
  blanks (n - s.length) ++ s

-- A size above 1024 units of a kind, in the first kind that leaves less than that.
def scaledText (x : Double) (unit : String) : List String → String
  | [] => s!"{x.fixed 2} {unit}"
  | larger :: units =>
    if .ofNat 1024 ≤ x then
      scaledText (x / .ofNat 1024) larger units
    else
      s!"{x.fixed 2} {unit}"

def sizeText (n : Nat) : String :=
  if n < 1024 then s!"{n} B" else scaledText (.ofNat n / .ofNat 1024) "KB" ["MB", "GB", "TB"]

def ratioText (raw compressed : Nat) : String :=
  s!"{(Double.ofNat raw / Double.ofNat compressed).fixed 2}x"

def answerText (b : Bool) : String :=
  if b then "yes" else "no"

-- A named value on standard output.
def line (name value : String) : String :=
  s!"  {padRight 15 name}: {value}"

-- A named value in a summary.
def summaryLine (name value : String) : String :=
  s!"  {padRight 12 name}: {value}"

def resultText (r : Validation.Report) : String :=
  if r.passed then
    "ok"
  else
    let names := String.intercalate ", " (r.failures.map Validation.Requirement.name)
    s!"FAILED ({names})"

def validationLines (r : Validation.Report) : List String :=
  let a := r.accuracy
  [line "absolute error" a.absolute.scientific,
    line "relative error" s!"{a.relative.fixed 6}%",
    line "finest abs err" a.floor.scientific,
    line "sig. bits" (toString a.bits),
    line "sig. digits" (toString a.digits)] ++
  (if r.lossless then [line "mode" "lossless (byte identity)"] else []) ++
  [line "result" (resultText r)]

def arraySummary (t : Datatype) (dims : Dims) (raw : Nat) : List String :=
  [summaryLine "datatype" t.name,
    summaryLine "dims" dims.text,
    summaryLine "raw size" (sizeText raw)]

def compressionSummary (chain? : Option Chain) (t : Datatype) (dims : Dims) (raw size : Nat) :
    List String :=
  summaryLine "chain" ((chain?.map Chain.text).getD "-") :: arraySummary t dims raw ++
  [summaryLine "compressed" (sizeText size),
    summaryLine "ratio" (ratioText raw size)]

def chainLines : Option Chain → List String
  | some chain => [line "chain" chain.text, line "lossy" (toString chain.isLossy)]
  | none => [line "chain" "(empty input)"]

def inspectionLines (t : Datatype) (dims : Dims) (d : Stream.Description) : List String :=
  let raw := dims.byteSize t
  [line "datatype" t.name,
    line "dims" dims.text,
    line "stages" (toString d.stageCount)] ++
  chainLines d.chain? ++
  [line "raw size" (sizeText raw),
    line "compressed" (sizeText d.size),
    line "ratio" (ratioText raw d.size)]

-- A row of the table of algorithms.
def tableRow (id name stage lossy : String) : String :=
  s!"  {padLeft 3 id}  {padRight 10 name}  {padRight 22 stage}  {lossy}"

def algorithmRow (a : Algorithm) : String :=
  tableRow (toString a.id.toNat) a.name a.position.name (answerText a.isLossy)

def algorithmLines (as : List Algorithm) : List String :=
  [tableRow "id" "name" "stage" "lossy", "  " ++ String.ofList (List.replicate 46 '-')] ++
  as.map algorithmRow ++
  ["", s!"  {as.length} algorithms available"]

end GridPress.CommandLine

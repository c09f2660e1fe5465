import GridPress.Context
import GridPress.Environment

namespace GridPress.Chooser

def overflow : Error :=
  .crash "attempt to multiply with overflow"

-- Arrays of fewer elements are copied.
def smallCount : Nat := 10

-- A sample that keeps more than this percentage of its size counts as random.
def randomThreshold : Double :=
  .ofNat 95

-- The size of the sample.
def sampleSize (t : Datatype) (env : Environment) (dims : Dims) : Nat :=
  min dims.count env.sampleLimit * t.size

variable [Codecs]

-- The percentage of its size that a sample keeps when it is compressed.
def randomness (sample : Bytes) : Double :=
  if sample.isEmpty then
    .ofNat 100
  else
    .ofNat 100 * .ofNat (Codecs.lz4.encode sample).length / .ofNat sample.length

def isRandom (sample : Bytes) : Bool :=
  randomThreshold < randomness sample

-- The id of the algorithm for the data. A sample whose size is no machine word is a crash.
def pick (t : Datatype) (env : Environment) (dims : Dims) (src : Bytes) : Result UInt8 :=
  if dims.count < smallCount then
    .ok Registry.memcopyId
  else
    let n := sampleSize t env dims
    if Size.max < n then
      .error overflow
    else if src.length < n then
      .error (.buffer (.sample src.length dims t))
    else if isRandom (src.take n) then
      .ok Registry.memcopyId
    else
      .ok Registry.lz4Id

-- Measures the data and sets the chain.
def measure (env : Environment) (dims : Dims) (src : Bytes) : ContextM Unit := do
  let c ← get
  let id ← liftExcept (pick c.datatype env dims src)
  let chain ← liftExcept (do Chain.ofAlgorithms [← Registry.byId id])
  set (c.setChain chain)

def choose (env : Environment) (dims : Dims) (src : Bytes) : ContextM Unit := do
  let c ← get
  if c.chain?.isSome then
    return
  match env.forced? with
  | some (.chain spec) => do
    let chain ← liftExcept (Chain.parse spec)
    set (c.setChain chain)
  | some .lossless => do
    set c.requireLossless
    measure env dims src
  | none => measure env dims src

end GridPress.Chooser

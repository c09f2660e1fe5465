import GridPress.Stream.Layout

namespace GridPress.Stream

structure Description where
  stageCount : Nat
  -- None for the stream of an array without elements.
  chain?     : Option Chain
  size       : Nat

def describe [Codecs] (stream : Bytes) : Result Description := do
  let (n, body) ← splitCount stream
  if n = 0 then
    return ⟨0, none, stream.length⟩
  else
    let (byte?, below) ← undoByteStage body
    let remaining := n - byte?.toList.length
    let stages ← if remaining = 0 then pure [] else Layout.stages <$> Layout.read remaining below
    let chain ← Chain.ofAlgorithms (stages ++ byte?.toList)
    return ⟨n, some chain, stream.length⟩

end GridPress.Stream

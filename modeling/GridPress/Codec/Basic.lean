import GridPress.Bytes

namespace GridPress

-- An encoder, and a decoder that refuses malformed data. That the encoder cannot fail is an
-- assumption: it writes to memory and has no limits.
structure Codec where
  encode  : Bytes → Bytes
  decode? : Bytes → Option Bytes

-- The decoder inverts the encoder.
def Codec.Lawful (c : Codec) : Prop :=
  ∀ bs, c.decode? (c.encode bs) = some bs

-- The codecs that stages are made of.
class Codecs where
  gzip : Codec
  lz4  : Codec
  zstd : Codec

class Codecs.Lawful [Codecs] : Prop where
  gzip : Codecs.gzip.Lawful
  lz4  : Codecs.lz4.Lawful
  zstd : Codecs.zstd.Lawful

end GridPress

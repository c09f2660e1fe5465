import GridPress.Codec.Basic
import GridPress.Codec.Gzip
import GridPress.Codec.Lz4
import GridPress.Codec.Zstd

namespace GridPress.Codec

instance bundled : Codecs where
  gzip := ⟨Gzip.encode, Gzip.decode?⟩
  lz4  := ⟨Lz4.encode, Lz4.decode?⟩
  zstd := ⟨Zstd.encode, Zstd.decode?⟩

end GridPress.Codec

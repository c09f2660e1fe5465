import GridPress.Algorithm
import GridPress.Codec.Basic
import GridPress.Stage.Abstol
import GridPress.Stage.Delta
import GridPress.Stage.Quantize
import GridPress.Stage.Sigbits
import GridPress.Stage.XorDelta
import GridPress.Text.Blank
import GridPress.Text.Numeral

namespace GridPress.Registry

def memcopyId : UInt8 := 0

def lz4Id : UInt8 := 4

-- The compressor made of a codec.
def codec (name : String) (c : Codec) : ByteCodec where
  compress src := .ok (c.encode src)
  decompress src :=
    match c.decode? src with
    | some data => .ok data
    | none => .error (.codec name "malformed data")

def memcopy : ByteCodec where
  compress := .ok
  decompress := .ok

def abstol : TypedCodec where
  supports := Datatype.isFloat
  compress := Stage.Abstol.compress
  decompress := Stage.Abstol.decompress

def sigbits : TypedCodec where
  supports := Datatype.isFloat
  compress := Stage.Sigbits.compress
  decompress := Stage.Sigbits.decompress

-- A preconditioner that needs neither hints nor a header.
def plainPreconditioner (supports : Datatype → Bool)
    (precondition restore : Datatype → Dims → Bytes → Result Bytes) : Preconditioner where
  supports := supports
  precondition t _ dims src := do return (← precondition t dims src, [])
  restore t _ dims src := restore t dims src

def xorDelta : Preconditioner :=
  plainPreconditioner (fun _ => true) Stage.XorDelta.precondition Stage.XorDelta.restore

def delta : Preconditioner :=
  plainPreconditioner (fun t => !t.isFloat) Stage.Delta.precondition Stage.Delta.restore

def quantize : Converter where
  supports := Datatype.isFloat
  output _ := .int64
  convert := Stage.Quantize.convert
  revert := Stage.Quantize.revert

-- Checks `as`, which stands behind the entries `before`: ids are places, and names are unique.
def validateFrom (before : List Algorithm) : List Algorithm → Result Unit
  | [] => .ok ()
  | a :: as =>
    if a.id.toNat ≠ before.length then
      .error (.registry (.misplaced a.name a.id.toNat before.length))
    else if before.any fun b => b.name == a.name then
      .error (.registry (.duplicate a.name))
    else
      validateFrom (before ++ [a]) as

def validate (as : List Algorithm) : Result Unit :=
  validateFrom [] as

variable [Codecs]

def algorithms : List Algorithm :=
  [⟨"memcopy", 0, false, .byte memcopy⟩,
    ⟨"abstol", 1, true, .typed abstol⟩,
    ⟨"gzip", 2, false, .byte (codec "gzip" Codecs.gzip)⟩,
    ⟨"sigbits", 3, true, .typed sigbits⟩,
    ⟨"lz4", 4, false, .byte (codec "lz4" Codecs.lz4)⟩,
    ⟨"zstd", 5, false, .byte (codec "zstd" Codecs.zstd)⟩,
    ⟨"xor_delta", 6, false, .preconditionFirst xorDelta⟩,
    ⟨"quantize", 7, true, .converter quantize⟩,
    ⟨"delta", 8, false, .preconditionSecond delta⟩]

def find? (id : UInt8) : Option Algorithm :=
  algorithms[id.toNat]?

def nameOf? (id : UInt8) : Option String :=
  (find? id).map Algorithm.name

-- The algorithm with the name or the id that `s` writes.
def named? (s : String) : Option Algorithm :=
  let s := Text.trim s
  match Text.natural? 255 s.toList with
  | some n => algorithms[n]?
  | none => algorithms.find? fun a => a.name == s

def byId (id : UInt8) : Result Algorithm :=
  match find? id with
  | some a => .ok a
  | none => .error (.unknownAlgorithm s!"magic {id.toNat}")

def byName (s : String) : Result Algorithm :=
  match named? s with
  | some a => .ok a
  | none => .error (.unknownAlgorithm (Text.trim s))

theorem validate_algorithms : validate algorithms = .ok () := by
  rfl

theorem id_of_find? {id : UInt8} {a : Algorithm} (h : find? id = some a) : a.id = id := by
  unfold find? at h
  have hlt : id.toNat < 9 := (List.getElem?_eq_some_iff.1 h).1
  apply UInt8.toNat_inj.1
  generalize id.toNat = n at *
  have : n = 0 ∨ n = 1 ∨ n = 2 ∨ n = 3 ∨ n = 4 ∨ n = 5 ∨ n = 6 ∨ n = 7 ∨ n = 8 := by omega
  rcases this with rfl | rfl | rfl | rfl | rfl | rfl | rfl | rfl | rfl <;>
    simp [algorithms] at h <;> simp [← h]

end GridPress.Registry

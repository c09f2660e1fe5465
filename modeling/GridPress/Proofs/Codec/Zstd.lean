import Mathlib.Control.Basic
import Mathlib.Data.Option.Basic
import GridPress.Codec.Basic
import GridPress.Codec.Zstd
import GridPress.Proofs.Elements

namespace GridPress

namespace Codec.Zstd

variable {n : Nat} {c : Bytes}

theorem take?_append (rest : Bytes) (h : c.length = n) : take? n (c ++ rest) = some (c, rest) := by
  simp [take?, List.splitAt_eq, ← h]

theorem readNat?_append (rest : Bytes) (h : c.length = n) :
    readNat? n (c ++ rest) = some (c.toNat, rest) := by
  simp [readNat?, take?_append rest h]

-- The frame that `encode` writes has a window of one block and tells no size.
theorem readFrame?_cons (rest : Bytes) :
    readFrame? (0 :: 0x38 :: rest) = some (⟨maxBlock, none⟩, rest) := by
  have h₁ : ∀ b rest, readNat? 1 (b :: rest) = some (b.toNat, rest) := by
    intro b rest
    simp [readNat?, take?, Bytes.toNat]
  have h₂ : readNat? 0 rest = some (0, rest) := by
    simp [readNat?, take?, Bytes.toNat]
  have hwindow : windowOf 56 = maxBlock := rfl
  have hle : maxBlock ≤ maxWindow := by decide
  simp [readFrame?, h₁, h₂, contentField, hwindow, hle]

theorem readBlock?_rawBlock {f : Frame} (hf : maxBlock ≤ f.window) (last : Bool)
    (hc : c.length ≤ maxBlock) (rest : Bytes) :
    readBlock? f (rawBlock last c ++ rest) = some (c, last, rest) := by
  have hlast : last.toNat < 2 := by cases last <;> decide
  have hheader : (Bytes.ofNat 3 (last.toNat + c.length * 8)).toNat = last.toNat + c.length * 8 := by
    apply Bytes.toNat_ofNat_of_lt
    simp only [maxBlock] at hc
    omega
  have hread := readNat?_append (c ++ rest) (Bytes.length_ofNat 3 (last.toNat + c.length * 8))
  rw [hheader] at hread
  have hsize : (last.toNat + c.length * 8) / 8 = c.length := by omega
  have hkind : (last.toNat + c.length * 8) / 2 % 4 = 0 := by omega
  have hmark : ((last.toNat + c.length * 8) % 2 = 1) = (last = true) := by
    cases last <;> simp <;> omega
  have hmin : c.length ≤ min f.window maxBlock := by omega
  simp only [readBlock?, rawBlock, List.append_assoc, hread, Option.bind_eq_bind,
    Option.bind_some, hsize, hkind, hmin]
  simp [take?_append rest rfl, hmark]

theorem lt_length_blocksIn (n : Nat) (bs : Bytes) : n < (blocksIn n bs).length := by
  induction n generalizing bs
  case zero =>
    simp only [blocksIn, rawBlock, List.length_append, Bytes.length_ofNat]
    omega
  case succ n ih =>
    have := ih (bs.drop maxBlock)
    simp only [blocksIn, rawBlock, List.length_append, Bytes.length_ofNat]
    omega

theorem readBlocks?_blocksIn {f : Frame} (hf : maxBlock ≤ f.window) {n fuel : Nat} {bs : Bytes}
    (hbs : bs.length ≤ (n + 1) * maxBlock) (hfuel : n < fuel) :
    readBlocks? f fuel (blocksIn n bs) = some (bs, []) := by
  induction n generalizing fuel bs
  case zero =>
    obtain ⟨fuel, rfl⟩ := Nat.exists_eq_succ_of_ne_zero (Nat.ne_zero_of_lt hfuel)
    have hblock := readBlock?_rawBlock hf true (by simpa using hbs) []
    rw [List.append_nil] at hblock
    simp [readBlocks?, blocksIn, hblock]
  case succ n ih =>
    obtain ⟨fuel, rfl⟩ := Nat.exists_eq_succ_of_ne_zero (Nat.ne_zero_of_lt hfuel)
    have hdrop : (bs.drop maxBlock).length ≤ (n + 1) * maxBlock := by
      rw [List.length_drop]
      rw [Nat.succ_mul] at hbs
      omega
    have hblock := readBlock?_rawBlock hf false (List.length_take_le maxBlock bs)
      (blocksIn n (bs.drop maxBlock))
    have hrest := ih hdrop (Nat.lt_of_succ_lt_succ hfuel)
    simp [readBlocks?, blocksIn, hblock, hrest]

theorem decodeFrame?_encode (bs : Bytes) : decodeFrame? (encode bs) = some (bs, []) := by
  have hmagic : take? 4 (encode bs) =
      some (frameMagic, 0 :: 0x38 :: blocksIn (bs.length / maxBlock) bs) := by
    rw [encode, List.append_assoc]
    exact take?_append _ rfl
  have hpos : 0 < maxBlock := by decide
  have hblocks : bs.length ≤ (bs.length / maxBlock + 1) * maxBlock :=
    Nat.le_of_lt (Nat.lt_mul_of_div_lt (Nat.lt_succ_self _) hpos)
  have hread := readBlocks?_blocksIn (f := ⟨maxBlock, none⟩) (Nat.le_refl _) hblocks
    (lt_length_blocksIn _ bs)
  simp [decodeFrame?, hmagic, readFrame?_cons, hread]

theorem decode?_encode (bs : Bytes) : decode? (encode bs) = some bs := by
  have ⟨n, hn⟩ : ∃ n, (encode bs).length = n + 1 := ⟨_, rfl⟩
  simp [decode?, hn, decodeFrames?, decodeFrame?_encode]

theorem lawful : Codec.Lawful ⟨encode, decode?⟩ :=
  decode?_encode

end Codec.Zstd

-- Frames of raw blocks in place of all codecs.
@[reducible]
def Codecs.stored : Codecs :=
  ⟨⟨Codec.Zstd.encode, Codec.Zstd.decode?⟩, ⟨Codec.Zstd.encode, Codec.Zstd.decode?⟩,
    ⟨Codec.Zstd.encode, Codec.Zstd.decode?⟩⟩

theorem Codecs.stored_lawful : @Codecs.Lawful stored :=
  @Codecs.Lawful.mk stored Codec.Zstd.lawful Codec.Zstd.lawful Codec.Zstd.lawful

end GridPress

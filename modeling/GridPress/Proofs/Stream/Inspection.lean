import GridPress.Codec.Bundled
import GridPress.Proofs.Stream.Framing

namespace GridPress

-- Byte stages take elements of any type.
theorem Chain.checkApplicable_byte (a : Algorithm) (t : Datatype) :
    checkApplicable { byte? := some a } t = .ok () := rfl

namespace Stream

variable [Codecs] {t : Datatype} {dims : Dims} {n : Nat} {bs body stream out : Bytes}

theorem Layout.length_of_readEntries {later entries : List (Algorithm × Bytes)} {frame : Bytes}
    (h : readEntries n bs later = .ok (frame, entries)) : entries.length = n + later.length := by
  obtain ⟨read, rfl, rfl, _⟩ := readEntries_eq_ok_iff.mp h
  exact List.length_append

theorem Layout.length_stages_of_read {l : Layout} (hn : 0 < n) (h : read n bs = .ok l) :
    l.stages.length = n := by
  obtain ⟨⟨rest, magic⟩, _, h⟩ := Result.bind_eq_ok_iff.mp h
  obtain ⟨a, _, h⟩ := Result.bind_eq_ok_iff.mp h
  split at h
  case h_1 => contradiction
  case h_2 =>
    obtain ⟨⟨frame, entries⟩, hentries, h⟩ := Result.bind_eq_ok_iff.mp h
    obtain rfl := Except.ok.inj h
    have hlength := length_of_readEntries hentries
    simp only [stages, List.length_append, List.length_map, hlength, List.length_nil,
      Option.toList_some, List.length_singleton]
    omega
  case h_3 =>
    obtain ⟨⟨frame, entries⟩, hentries, h⟩ := Result.bind_eq_ok_iff.mp h
    obtain rfl := Except.ok.inj h
    have hlength := length_of_readEntries hentries
    simp only [stages, List.length_append, List.length_map, hlength, List.length_nil,
      Option.toList_none, Nat.add_zero]

theorem position_of_undoByteStage {byte? : Option Algorithm} {below : Bytes}
    (h : undoByteStage body = .ok (byte?, below)) : ∀ a ∈ byte?, a.position = .byte := by
  obtain ⟨⟨payload, magic⟩, _, h⟩ := Result.bind_eq_ok_iff.mp h
  obtain ⟨a, _, h⟩ := Result.bind_eq_ok_iff.mp h
  split at h
  case h_1 c hm =>
    obtain ⟨written, _, h⟩ := Result.bind_eq_ok_iff.mp h
    obtain ⟨rfl, -⟩ := Prod.mk.inj (Except.ok.inj h)
    intro b hb
    obtain rfl := Option.some.inj hb
    rw [Algorithm.position, hm]
    rfl
  case h_2 =>
    obtain ⟨rfl, -⟩ := Prod.mk.inj (Except.ok.inj h)
    exact fun a ha => absurd ha (Option.not_mem_none a)

-- Inspection finds the stages that were undone.
theorem exists_describe_of_restoreBody {n : UInt8} (hn : n.toNat ≠ 0)
    (h : restoreBody t dims n.toNat body = .ok out) :
    ∃ c, describe (n :: body) = .ok ⟨n.toNat, some c, (n :: body).length⟩ ∧
      c.stages.length = n.toNat ∧ c.checkApplicable t = .ok () := by
  obtain ⟨⟨byte?, below⟩, hbyte, h⟩ := Result.bind_eq_ok_iff.mp h
  have hposition := position_of_undoByteStage hbyte
  simp only [describe, splitCount, Result.ok_bind, if_neg hn, hbyte]
  by_cases hremaining : n.toNat - byte?.toList.length = 0
  case pos =>
    cases byte?
    case none => contradiction
    case some a =>
      have hone : n.toNat = 1 := by
        rw [Option.toList_some, List.length_singleton] at hremaining
        omega
      have hchain := Chain.ofAlgorithms_byte (hposition a rfl)
      rw [if_pos hremaining, Result.pure_eq, Result.ok_bind]
      exact ⟨_, Result.bind_eq_ok_iff.mpr ⟨_, hchain, rfl⟩, hone.symm,
        Chain.checkApplicable_byte a t⟩
  case neg =>
    simp only [if_neg hremaining, Result.bind_eq_ok_iff] at h
    obtain ⟨l, hl, c, hc, _, ht, _⟩ := h
    obtain ⟨_, hstages⟩ := Chain.placed_of_ofAlgorithms hc
    have hlength := Layout.length_stages_of_read (Nat.pos_of_ne_zero hremaining) hl
    refine ⟨c, ?_, ?_, ht⟩
    · rw [if_neg hremaining, hl]
      exact Result.bind_eq_ok_iff.mpr ⟨l.stages, rfl, Result.bind_eq_ok_iff.mpr ⟨c, hc, rfl⟩⟩
    · rw [hstages, List.length_append, hlength]
      omega

omit [Codecs] in
theorem length_of_checkSize {restored : Bytes} (h : checkSize t dims restored = .ok out) :
    out.length = dims.byteSize t := by
  unfold checkSize at h
  split at h
  case isTrue hl => exact Except.ok.inj h ▸ hl
  case isFalse => contradiction

theorem length_of_decompress (h : decompress t dims stream = .ok out) :
    out.length = dims.byteSize t := by
  cases stream
  case nil => contradiction
  case cons n body =>
    simp only [decompress, splitCount, Result.ok_bind] at h
    split at h
    case isTrue =>
      split at h
      case isTrue hempty =>
        obtain rfl := Except.ok.inj h
        exact hempty.left.symm
      case isFalse => contradiction
    case isFalse =>
      obtain ⟨restored, _, hsize⟩ := Result.bind_eq_ok_iff.mp h
      exact length_of_checkSize hsize

-- What decompresses has the size that is asked for, and inspection tells its chain.
theorem describe_of_decompress (h : decompress t dims stream = .ok out) :
    out.length = dims.byteSize t ∧
      ∃ n body d, stream = n :: body ∧ describe stream = .ok d ∧ d.stageCount = n.toNat ∧
        (d.chain? = none ↔ n = 0) ∧
        ∀ c ∈ d.chain?, c.stages.length = d.stageCount ∧ c.checkApplicable t = .ok () := by
  cases stream
  case nil => contradiction
  case cons n body =>
    have hzero : n.toNat = 0 ↔ n = 0 := UInt8.toNat_inj (b := 0)
    simp only [decompress, splitCount, Result.ok_bind] at h
    by_cases hn : n.toNat = 0
    case pos =>
      rw [if_pos hn] at h
      split at h
      case isTrue hempty =>
        obtain rfl := Except.ok.inj h
        have hdescribe : describe (n :: body) = .ok ⟨0, none, (n :: body).length⟩ := by
          simp only [describe, splitCount, Result.ok_bind, if_pos hn, Result.pure_eq]
        exact ⟨hempty.left.symm, n, body, _, rfl, hdescribe, hn.symm,
          iff_of_true rfl (hzero.mp hn), fun c hc => absurd hc (Option.not_mem_none c)⟩
      case isFalse => contradiction
    case neg =>
      rw [if_neg hn] at h
      obtain ⟨restored, hrestored, hsize⟩ := Result.bind_eq_ok_iff.mp h
      obtain ⟨c, hdescribe, hlength, ht⟩ := exists_describe_of_restoreBody hn hrestored
      refine ⟨length_of_checkSize hsize, n, body, _, rfl, hdescribe, rfl,
        iff_of_false (Option.some_ne_none c) (mt hzero.mpr hn), ?_⟩
      intro d hd
      obtain rfl := Option.some.inj hd
      exact ⟨hlength, ht⟩

-- Differences 1 and 3 with their entry, in a frame with one raw block.
def framedDifferences : Bytes :=
  [2, 40, 181, 47, 253, 0, 56, 57, 0, 0, 1, 3, 0, 0, 0, 0, 6, 5]

omit [Codecs] in
theorem describe_of_decompress_two :
    @decompress Codec.bundled .int8 .two framedDifferences = .ok [1, 2] ∧
      ([1, 2] : Bytes).length = Dims.two.byteSize .int8 ∧
      ∃ n body d, framedDifferences = n :: body ∧
        @describe Codec.bundled framedDifferences = .ok d ∧ d.stageCount = n.toNat ∧
        (d.chain? = none ↔ n = 0) ∧
        ∀ c ∈ d.chain?, c.stages.length = d.stageCount ∧ c.checkApplicable .int8 = .ok () := by
  have h : @decompress Codec.bundled .int8 .two framedDifferences = .ok [1, 2] := by
    decide +kernel
  exact ⟨h, @describe_of_decompress Codec.bundled .int8 .two framedDifferences [1, 2] h⟩

end Stream
end GridPress

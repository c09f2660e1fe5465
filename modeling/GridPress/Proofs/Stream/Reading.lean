import GridPress.Proofs.Stream.Layout
import GridPress.Proofs.Stream.Runs
import GridPress.Stream.Decompress

namespace GridPress.Stream

variable {h : Hints} {dims : Dims} {t : Datatype} {src : Bytes} {as : List Algorithm}
  {ps : List Pass} {p : Pass}

def Pass.entry (p : Pass) : Algorithm × Bytes :=
  (p.stage, p.header)

-- The last byte of what passes leave is the id of the last stage.
theorem splitMagic_marks (rest : Bytes) (ps : List Pass) (p : Pass) :
    ∃ below, Trailer.splitMagic (rest ++ (ps ++ [p]).flatMap Pass.mark) =
      .ok (below, p.stage.id) := by
  have ⟨front, hfront⟩ : ∃ front, p.mark = front ++ [p.stage.id] := by
    unfold Pass.mark
    split
    case isTrue => exact ⟨_, rfl⟩
    case isFalse => exact ⟨[], rfl⟩
  refine ⟨rest ++ ps.flatMap Pass.mark ++ front, ?_⟩
  rw [List.flatMap_append, List.flatMap_singleton, hfront, ← Trailer.splitMagic_concat]
  simp only [List.append_assoc]

theorem entryTypes_entries (hps : passes h dims t src as = .ok ps) :
    entryTypes t (ps.map Pass.entry) = (ps.map Pass.type, typeBehind t as) := by
  induction as generalizing t src ps
  case nil =>
    obtain rfl := passes_nil_eq_ok_iff.mp hps
    rfl
  case cons a as ih =>
    obtain ⟨p, qs, hp, hqs, rfl⟩ := passes_cons_eq_ok_iff.mp hps
    obtain ⟨hstage, htype, _⟩ := Pass.run_eq_ok_iff.mp hp
    simp only [List.map_cons, Pass.entry, entryTypes, hstage, ih hqs, htype, typeBehind]

theorem restoreEntries_entries (ps : List Pass) (frame : Bytes) :
    restoreEntries dims frame ((ps.map Pass.entry).zip (ps.map Pass.type)) =
      undoPasses dims ps frame := by
  induction ps
  case nil => rfl
  case cons p ps ih =>
    simp only [List.map_cons, List.zip_cons_cons, Pass.entry, restoreEntries, undoPasses, ih]
    rfl

theorem undoPasses_append (ps qs : List Pass) (out : Bytes) :
    undoPasses dims (ps ++ qs) out = undoPasses dims qs out >>= undoPasses dims ps := by
  induction ps
  case nil => cases hq : undoPasses dims qs out <;> simp [hq, undoPasses]
  case cons p ps ih =>
    simp only [List.cons_append, undoPasses, ih]
    cases undoPasses dims qs out <;> rfl

theorem restore_eq_undoPasses {typed? : Option Pass} (hps : passes h dims t src as = .ok ps)
    (htype : ∀ p ∈ typed?, p.type = typeBehind t as) (hheader : ∀ p ∈ typed?, p.header = [])
    (data : Bytes) :
    restore t dims ⟨ps.map Pass.entry, typed?.map Pass.stage, data⟩ =
      undoPasses dims (ps ++ typed?.toList) data := by
  rw [undoPasses_append]
  simp only [restore, entryTypes_entries hps, restoreEntries_entries]
  cases typed?
  case none => rfl
  case some p =>
    simp only [Option.map_some, Option.toList_some, undoPasses, Pass.undo, htype p rfl,
      hheader p rfl]
    rfl

variable [Codecs]

-- Passes whose stages are known and whose headers have a length that can be written down.
structure Readable (ps : List Pass) : Prop where
  mem  : ∀ p ∈ ps, p.stage ∈ Registry.algorithms
  fits : ∀ p ∈ ps, p.header.length ≤ Trailer.maxHeader

theorem Readable.left {qs : List Pass} (hr : Readable (ps ++ qs)) : Readable ps where
  mem p hp := hr.mem p (List.mem_append_left _ hp)
  fits p hp := hr.fits p (List.mem_append_left _ hp)

variable {typed? : Option Pass}

-- Passes leave behind the data what is written for the layout of their stages.
theorem Layout.toBytes_framed (hr : Readable (ps ++ typed?.toList))
    (hps : ∀ p ∈ ps, p.stage.position < .datatype)
    (htyped : ∀ p ∈ typed?, p.stage.position = .datatype) (data : Bytes) :
    toBytes ⟨ps.map Pass.entry, typed?.map Pass.stage, data⟩ =
      .ok (data ++ (ps ++ typed?.toList).flatMap Pass.mark) := by
  have hmarks : (ps.map Pass.entry).flatMap mark = ps.flatMap Pass.mark := by
    rw [List.flatMap_map]
    exact List.flatMap_congr fun p hp => (if_pos (hps p hp)).symm
  have hmagic : (typed?.map Pass.stage).toList.map Algorithm.id =
      typed?.toList.flatMap Pass.mark := by
    cases typed?
    case none => rfl
    case some p =>
      have hmark : p.mark = [p.stage.id] := by
        rw [Pass.mark, htyped p rfl, if_neg (by decide)]
      simp [hmark]
  rw [toBytes_eq_ok_iff, hmarks, hmagic, List.flatMap_append, List.append_assoc]
  refine ⟨fun e he => ?_, rfl⟩
  obtain ⟨p, hp, rfl⟩ := List.mem_map.mp he
  exact hr.left.fits p hp

theorem Layout.wellFormed_framed (hr : Readable (ps ++ typed?.toList))
    (hps : ∀ p ∈ ps, p.stage.position < .datatype)
    (htyped : ∀ p ∈ typed?, p.stage.position = .datatype) (data : Bytes) :
    WellFormed ⟨ps.map Pass.entry, typed?.map Pass.stage, data⟩ where
  entries e he := by
    obtain ⟨p, hp, rfl⟩ := List.mem_map.mp he
    exact ⟨hr.left.mem p hp, hps p hp, hr.left.fits p hp⟩
  typed a ha := by
    obtain ⟨p, hp, rfl⟩ := Option.map_eq_some_iff.mp ha
    exact ⟨hr.mem p (by simp [hp]), htyped p hp⟩

theorem Layout.read_framed (hr : Readable (ps ++ typed?.toList))
    (hps : ∀ p ∈ ps, p.stage.position < .datatype)
    (htyped : ∀ p ∈ typed?, p.stage.position = .datatype) (hne : ps ++ typed?.toList ≠ [])
    (data : Bytes) :
    read (ps ++ typed?.toList).length (data ++ (ps ++ typed?.toList).flatMap Pass.mark) =
      .ok ⟨ps.map Pass.entry, typed?.map Pass.stage, data⟩ := by
  have hstages : stages ⟨ps.map Pass.entry, typed?.map Pass.stage, data⟩ =
      (ps ++ typed?.toList).map Pass.stage := by
    cases typed? <;> simp [stages, Pass.entry, Function.comp_def]
  have hread := read_of_toBytes (wellFormed_framed hr hps htyped data)
    (by rwa [hstages, ne_eq, List.map_eq_nil_iff]) (toBytes_framed hr hps htyped data)
  rwa [hstages, List.length_map] at hread

-- A byte stage at the end of a body is undone on exactly the bytes it wrote.
theorem undoByteStage_concat {a : Algorithm} {c : ByteCodec} (ha : a ∈ Registry.algorithms)
    (hc : a.method = .byte c) (written : Bytes) :
    undoByteStage (written ++ [a.id]) = do return (some a, ← c.decompress written) := by
  simp [undoByteStage, Registry.byId_id ha, hc]

theorem undoByteStage_marks (hr : Readable ps) (hps : ∀ p ∈ ps, p.stage.position ≠ .byte)
    (hne : ps ≠ []) (data : Bytes) :
    undoByteStage (data ++ ps.flatMap Pass.mark) = .ok (none, data ++ ps.flatMap Pass.mark) := by
  obtain ⟨front, p, rfl⟩ := List.eq_nil_or_concat ps |>.resolve_left hne
  rw [List.concat_eq_append] at *
  have ⟨below, hbelow⟩ := splitMagic_marks data front p
  have hid : Registry.byId p.stage.id = .ok p.stage := Registry.byId_id (hr.mem p (by simp))
  have hbyte : p.stage.position ≠ .byte := hps p (by simp)
  unfold Algorithm.position at hbyte
  simp only [undoByteStage, hbelow, Result.ok_bind, hid]
  cases hm : p.stage.method
  case byte c => rw [hm] at hbyte; contradiction
  all_goals rfl

end GridPress.Stream

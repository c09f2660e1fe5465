import GridPress.File
import GridPress.Proofs.Dims

namespace GridPress.File

variable {bs rest : Bytes} {d : Dims} {t : Datatype}

theorem readDims_eq_ok_iff :
    readDims bs = .ok (d, rest) ↔ d.Accepted ∧ bs = d.toBytes ++ rest := by
  constructor
  case mp =>
    intro h
    rw [readDims] at h
    split at h
    case h_1 d' n hd =>
      obtain ⟨rfl, rfl⟩ := Prod.mk.inj (Except.ok.inj h)
      have ⟨haccepted, hbs⟩ := Dims.ofBytes_eq_ok hd
      exact ⟨haccepted, hbs.symm⟩
    case h_2 => contradiction
  case mpr =>
    rintro ⟨hd, rfl⟩
    rw [readDims, Dims.ofBytes_toBytes hd]
    dsimp only
    rw [← d.length_toBytes, List.drop_left]

theorem Array.ofBytes_eq_ok_iff {a : Array} :
    Array.ofBytes t bs = .ok a ↔
      a.dims.Accepted ∧ a.data.length = a.dims.byteSize t ∧ bs = a.toBytes := by
  obtain ⟨d, data⟩ := a
  have hread : readDims bs = .ok (d, data) ↔ d.Accepted ∧ bs = d.toBytes ++ data :=
    readDims_eq_ok_iff
  constructor
  case mp =>
    intro h
    unfold Array.ofBytes at h
    cases hdims : readDims bs
    case error e =>
      rw [hdims] at h
      contradiction
    case ok p =>
      rw [hdims] at h
      change (if p.2.length = p.1.byteSize t then _ else _) = _ at h
      split at h
      case isTrue hsize =>
        obtain ⟨rfl, rfl⟩ := Array.mk.inj (Except.ok.inj h)
        have ⟨haccepted, hbs⟩ := hread.mp hdims
        exact ⟨haccepted, hsize, hbs⟩
      case isFalse => contradiction
  case mpr =>
    rintro ⟨haccepted, hsize, hbs⟩
    unfold Array.ofBytes
    rw [hread.mpr ⟨haccepted, hbs⟩]
    exact if_pos hsize

theorem length_mark : mark.length = 4 := rfl

theorem Compressed.ofBytes_eq_ok_iff {c : Compressed} :
    Compressed.ofBytes bs = .ok c ↔ c.dims.Accepted ∧ bs = c.toBytes := by
  obtain ⟨t, d, stream⟩ := c
  constructor
  case mp =>
    intro h
    unfold Compressed.ofBytes at h
    rw [List.splitAt_eq] at h
    split at h
    case h_1 start tag body hsplit =>
      obtain ⟨rfl, hbody⟩ := Prod.mk.inj hsplit
      split at h
      case isTrue hmark =>
        split at h
        case h_1 => contradiction
        case h_2 t' ht =>
          cases hdims : readDims body
          case error e =>
            rw [hdims] at h
            contradiction
          case ok p =>
            rw [hdims] at h
            obtain ⟨rfl, rfl, rfl⟩ := Compressed.mk.inj (Except.ok.inj h)
            have ⟨haccepted, hrest⟩ := readDims_eq_ok_iff.mp hdims
            refine ⟨haccepted, ?_⟩
            rw [Compressed.toBytes, Datatype.tag_of_ofTag? ht, ← hrest, ← hbody, ← hmark,
              List.take_append_drop]
      case isFalse => contradiction
    case h_2 => contradiction
  case mpr =>
    rintro ⟨haccepted, rfl⟩
    unfold Compressed.ofBytes
    rw [List.splitAt_eq, Compressed.toBytes, List.take_left' length_mark,
      List.drop_left' length_mark]
    dsimp only
    rw [if_pos rfl, Datatype.ofTag?_tag]
    dsimp only
    rw [readDims_eq_ok_iff.mpr ⟨haccepted, rfl⟩]
    rfl

theorem ofBytes_eq_ok_iff_toBytes :
    (∀ (bs : Bytes) (c : Compressed),
      Compressed.ofBytes bs = .ok c ↔ c.dims.Accepted ∧ bs = c.toBytes) ∧
    ∀ (t : Datatype) (bs : Bytes) (a : Array),
      Array.ofBytes t bs = .ok a ↔
        a.dims.Accepted ∧ a.data.length = a.dims.byteSize t ∧ bs = a.toBytes :=
  ⟨fun _ _ => Compressed.ofBytes_eq_ok_iff, fun _ _ _ => Array.ofBytes_eq_ok_iff⟩

end GridPress.File

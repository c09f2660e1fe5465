import GridPress.Codec.Bundled
import GridPress.Proofs.Registry
import GridPress.Proofs.Trailer
import GridPress.Stream.Layout
import Mathlib.Data.List.Induction

namespace GridPress

namespace Stream.Layout

-- The bytes with an entry behind them.
def push (bs : Bytes) (entry : Algorithm × Bytes) : Result Bytes := do
  return bs ++ (← Trailer.Entry.toBytes ⟨entry.1.id, entry.2⟩)

-- The frame, the entries behind it in the order in which their stages ran, and the magic byte of
-- the datatype stage.
def toBytes (l : Layout) : Result Bytes := do
  return (← l.entries.foldlM push l.frame) ++ l.typed?.toList.map Algorithm.id

variable {n : Nat} {bs frame : Bytes} {l : Layout} {entries later : List (Algorithm × Bytes)}

-- What an entry is written as.
def mark (entry : Algorithm × Bytes) : Bytes :=
  entry.2 ++ Bytes.ofNat 4 entry.2.length ++ [entry.1.id]

theorem push_eq_ok_iff {e : Algorithm × Bytes} {out : Bytes} :
    push bs e = .ok out ↔ e.2.length ≤ Trailer.maxHeader ∧ out = bs ++ mark e := by
  simp only [push, Result.bind_eq_ok_iff, Result.pure_eq, Except.ok.injEq,
    Trailer.Entry.toBytes_eq_ok_iff]
  constructor
  case mp =>
    rintro ⟨_, ⟨hfits, rfl⟩, rfl⟩
    exact ⟨hfits, rfl⟩
  case mpr =>
    rintro ⟨hfits, rfl⟩
    exact ⟨_, ⟨hfits, rfl⟩, rfl⟩

theorem push_concat_eq_ok_iff {e : Algorithm × Bytes} :
    (entries ++ [e]).foldlM push frame = .ok bs ↔
      ∃ rest, entries.foldlM push frame = .ok rest ∧ push rest e = .ok bs := by
  simp [List.foldlM_append]

theorem foldlM_push_eq_ok_iff :
    entries.foldlM push frame = .ok bs ↔
      (∀ e ∈ entries, e.2.length ≤ Trailer.maxHeader) ∧ bs = frame ++ entries.flatMap mark := by
  induction entries generalizing frame
  case nil => simp [eq_comm]
  case cons e entries ih =>
    simp only [List.foldlM_cons, Result.bind_eq_ok_iff, push_eq_ok_iff, ih, List.forall_mem_cons,
      List.flatMap_cons]
    constructor
    case mp =>
      rintro ⟨_, ⟨he, rfl⟩, hentries, rfl⟩
      exact ⟨⟨he, hentries⟩, List.append_assoc _ _ _⟩
    case mpr =>
      rintro ⟨⟨he, hentries⟩, rfl⟩
      exact ⟨_, ⟨he, rfl⟩, hentries, (List.append_assoc _ _ _).symm⟩

theorem toBytes_eq_ok_iff :
    l.toBytes = .ok bs ↔
      (∀ e ∈ l.entries, e.2.length ≤ Trailer.maxHeader) ∧
        bs = l.frame ++ l.entries.flatMap mark ++ l.typed?.toList.map Algorithm.id := by
  simp only [toBytes, Result.bind_eq_ok_iff, Result.pure_eq, Except.ok.injEq,
    foldlM_push_eq_ok_iff]
  constructor
  case mp =>
    rintro ⟨_, ⟨hfits, rfl⟩, rfl⟩
    exact ⟨hfits, rfl⟩
  case mpr =>
    rintro ⟨hfits, rfl⟩
    exact ⟨_, ⟨hfits, rfl⟩, rfl⟩

theorem take_of_toBytes (h : l.toBytes = .ok bs) : bs.take l.frame.length = l.frame := by
  obtain ⟨_, rfl⟩ := toBytes_eq_ok_iff.mp h
  rw [List.append_assoc, List.take_left]

section Reading

variable [Codecs]

-- An entry of a stage that leaves entries, with a header whose length can be written down.
structure IsEntry (entry : Algorithm × Bytes) : Prop where
  mem      : entry.1 ∈ Registry.algorithms
  position : entry.1.position < .datatype
  fits     : entry.2.length ≤ Trailer.maxHeader

-- Layouts of known stages in their places.
structure WellFormed (l : Layout) : Prop where
  entries : ∀ e ∈ l.entries, IsEntry e
  typed   : ∀ a ∈ l.typed?, a ∈ Registry.algorithms ∧ a.position = .datatype

-- One more entry is the last one of the byte string.
theorem readEntries_succ_eq_ok_iff :
    readEntries (n + 1) bs later = .ok (frame, entries) ↔
      ∃ rest e, IsEntry e ∧ push rest e = .ok bs ∧
        readEntries n rest (e :: later) = .ok (frame, entries) := by
  simp only [readEntries, Result.bind_eq_ok_iff]
  constructor
  case mp =>
    rintro ⟨⟨rest, entry⟩, hsplit, a, ha, h⟩
    obtain ⟨hmem, hid⟩ := Registry.byId_eq_ok_iff.mp ha
    split at h
    case isTrue hposition =>
      obtain ⟨bytes, hentry, rfl⟩ := Trailer.splitEntry_eq_ok_iff.mp hsplit
      obtain ⟨hfits, rfl⟩ := Trailer.Entry.toBytes_eq_ok_iff.mp hentry
      refine ⟨rest, (a, entry.header), ⟨hmem, hposition, hfits⟩, ?_, h⟩
      rw [push_eq_ok_iff, mark, hid]
      exact ⟨hfits, rfl⟩
    case isFalse => contradiction
  case mpr =>
    rintro ⟨rest, ⟨a, header⟩, ha, hpush, h⟩
    obtain ⟨hfits, rfl⟩ := push_eq_ok_iff.mp hpush
    have hentry := Trailer.Entry.toBytes_eq_ok_iff (e := ⟨a.id, header⟩).mpr ⟨hfits, rfl⟩
    have hsplit := Trailer.splitEntry_append hentry rest
    exact ⟨_, hsplit, a, Registry.byId_id ha.mem, by rwa [if_pos ha.position]⟩

-- What is read are the entries that, pushed behind the frame, give the byte string.
theorem readEntries_eq_ok_iff :
    readEntries n bs later = .ok (frame, entries) ↔
      ∃ read, entries = read ++ later ∧ read.length = n ∧ (∀ e ∈ read, IsEntry e) ∧
        read.foldlM push frame = .ok bs := by
  induction n generalizing bs later
  case zero =>
    constructor
    case mp =>
      intro h
      obtain ⟨rfl, rfl⟩ := Prod.mk.inj (Except.ok.inj h)
      exact ⟨[], rfl, rfl, by simp, rfl⟩
    case mpr =>
      rintro ⟨read, rfl, hlength, _, hbs⟩
      obtain rfl := List.length_eq_zero_iff.mp hlength
      obtain rfl := Except.ok.inj hbs
      rfl
  case succ n ih =>
    rw [readEntries_succ_eq_ok_iff]
    constructor
    case mp =>
      rintro ⟨rest, e, he, hpush, h⟩
      obtain ⟨read, rfl, rfl, hread, hrest⟩ := ih.mp h
      have hall := List.forall_mem_append.mpr ⟨hread, List.forall_mem_singleton.mpr he⟩
      exact ⟨read ++ [e], by simp, by simp, hall,
        push_concat_eq_ok_iff.mpr ⟨rest, hrest, hpush⟩⟩
    case mpr =>
      rintro ⟨read, rfl, hlength, hread, hbs⟩
      have hne : read ≠ [] := by
        rintro rfl
        contradiction
      obtain ⟨front, e, rfl⟩ := List.eq_nil_or_concat read |>.resolve_left hne
      rw [List.concat_eq_append] at *
      obtain ⟨rest, hrest, hpush⟩ := push_concat_eq_ok_iff.mp hbs
      obtain ⟨hfront, he⟩ := List.forall_mem_append.mp hread
      exact ⟨rest, e, List.forall_mem_singleton.mp he, hpush,
        ih.mpr ⟨front, by simp, by simpa using hlength, hfront, hrest⟩⟩

theorem readEntries_nil_eq_ok_iff :
    readEntries n bs [] = .ok (frame, entries) ↔
      entries.length = n ∧ (∀ e ∈ entries, IsEntry e) ∧ entries.foldlM push frame = .ok bs := by
  rw [readEntries_eq_ok_iff]
  constructor
  case mp =>
    rintro ⟨read, rfl, h⟩
    rwa [List.append_nil]
  case mpr => exact fun h => ⟨entries, (List.append_nil _).symm, h⟩

-- What is read has been written, also where no stages are asked for.
theorem toBytes_of_read (h : read n bs = .ok l) : l.WellFormed ∧ l.toBytes = .ok bs := by
  obtain ⟨⟨rest, magic⟩, hmagic, h⟩ := Result.bind_eq_ok_iff.mp h
  obtain ⟨a, ha, h⟩ := Result.bind_eq_ok_iff.mp h
  obtain rfl := Trailer.splitMagic_eq_ok_iff.mp hmagic
  obtain ⟨hmem, rfl⟩ := Registry.byId_eq_ok_iff.mp ha
  split at h
  case h_1 => contradiction
  case h_2 hposition =>
    obtain ⟨⟨frame, entries⟩, hentries, h⟩ := Result.bind_eq_ok_iff.mp h
    obtain rfl := Except.ok.inj h
    obtain ⟨_, hwell, hbs⟩ := readEntries_nil_eq_ok_iff.mp hentries
    refine ⟨⟨hwell, ?_⟩, ?_⟩
    · rintro _ ⟨⟩
      exact ⟨hmem, hposition⟩
    · rw [toBytes, hbs]
      rfl
  case h_3 =>
    obtain ⟨⟨frame, entries⟩, hentries, h⟩ := Result.bind_eq_ok_iff.mp h
    obtain rfl := Except.ok.inj h
    obtain ⟨_, hwell, hbs⟩ := readEntries_nil_eq_ok_iff.mp hentries
    refine ⟨⟨hwell, nofun⟩, ?_⟩
    rw [toBytes, hbs]
    simp

-- What has been written is read.
theorem read_of_toBytes (hwell : l.WellFormed) (hne : l.stages ≠ []) (h : l.toBytes = .ok bs) :
    read l.stages.length bs = .ok l := by
  obtain ⟨entries, typed?, frame⟩ := l
  obtain ⟨hfits, rfl⟩ := toBytes_eq_ok_iff.mp h
  have hread : readEntries entries.length (frame ++ entries.flatMap mark) [] =
      .ok (frame, entries) :=
    readEntries_nil_eq_ok_iff.mpr
      ⟨rfl, hwell.entries, foldlM_push_eq_ok_iff.mpr ⟨hfits, rfl⟩⟩
  cases typed?
  case some a =>
    have ⟨hmem, hposition⟩ := hwell.typed a rfl
    simp only [read, stages, Option.toList_some, List.map_singleton, Trailer.splitMagic_concat,
      Result.ok_bind, Registry.byId_id hmem, hposition, List.length_append, List.length_map,
      List.length_singleton, Nat.add_sub_cancel, hread, Result.pure_eq]
  case none =>
    have hentries : entries ≠ [] := by simpa [stages] using hne
    obtain ⟨front, e, rfl⟩ := List.eq_nil_or_concat entries |>.resolve_left hentries
    rw [List.concat_eq_append] at *
    have he := hwell.entries e (by simp)
    have hlast : frame ++ (front ++ [e]).flatMap mark =
        frame ++ front.flatMap mark ++ (e.2 ++ Bytes.ofNat 4 e.2.length) ++ [e.1.id] := by
      simp [mark]
    simp only [read, stages, Option.toList_none, List.map_nil, List.append_nil, List.length_map,
      hread, Result.pure_eq, Result.ok_bind]
    rw [hlast, Trailer.splitMagic_concat]
    simp only [Result.ok_bind, Registry.byId_id he.mem]
    split
    case h_1 hposition => exact absurd he.position (by rw [hposition]; decide)
    case h_2 hposition => exact absurd he.position (by rw [hposition]; decide)
    case h_3 => rfl

theorem exists_toBytes_eq_ok (h : l.WellFormed) : ∃ bs, l.toBytes = .ok bs :=
  ⟨_, toBytes_eq_ok_iff.mpr ⟨fun e he => (h.entries e he).fits, rfl⟩⟩

-- Marks lead back to their stages, and only marks of stages are read.
theorem read_inverts_toBytes :
    (∀ l : Layout, l.WellFormed → l.stages ≠ [] →
      ∃ bs, l.toBytes = .ok bs ∧ read l.stages.length bs = .ok l) ∧
    ∀ (n : Nat) (bs : Bytes) (l : Layout), read n bs = .ok l →
      l.WellFormed ∧ toBytes { l with frame := bs.take l.frame.length } = .ok bs := by
  constructor
  case left =>
    intro l hwell hne
    obtain ⟨bs, hbs⟩ := exists_toBytes_eq_ok hwell
    exact ⟨bs, hbs, read_of_toBytes hwell hne hbs⟩
  case right =>
    intro n bs l hl
    have ⟨hwell, hbs⟩ := toBytes_of_read hl
    refine ⟨hwell, ?_⟩
    rw [take_of_toBytes hbs]
    exact hbs

end Reading

-- Two entries, of which one has a header, and a datatype stage behind three bytes.
def threeStages : Layout :=
  ⟨[(⟨"xor_delta", 6, false, .preconditionFirst Registry.xorDelta⟩, []),
      (⟨"quantize", 7, true, .converter Registry.quantize⟩, [1, 2, 3])],
    some ⟨"sigbits", 3, true, .typed Registry.sigbits⟩, [1, 0, 6]⟩

theorem read_inverts_toBytes_threeStages :
    let bs : Bytes := [1, 0, 6, 0, 0, 0, 0, 6, 1, 2, 3, 3, 0, 0, 0, 7, 3]
    @WellFormed Codec.bundled threeStages ∧ threeStages.stages ≠ [] ∧
      threeStages.toBytes = .ok bs ∧ @read Codec.bundled 3 bs = .ok threeStages ∧
      toBytes { threeStages with frame := bs.take 3 } = .ok bs := by
  intro bs
  have hwell : @WellFormed Codec.bundled threeStages := by
    constructor
    case entries =>
      intro e he
      simp only [threeStages, List.mem_cons, List.not_mem_nil, or_false] at he
      rcases he with rfl | rfl
      · exact ⟨by simp [Registry.algorithms], by decide, by decide⟩
      · exact ⟨by simp [Registry.algorithms], by decide, by decide⟩
    case typed =>
      rintro _ ⟨⟩
      exact ⟨by simp [Registry.algorithms], rfl⟩
  obtain ⟨hreads, hwrites⟩ := @read_inverts_toBytes Codec.bundled
  have hne : threeStages.stages ≠ [] := List.cons_ne_nil _ _
  have hbs : threeStages.toBytes = .ok bs := rfl
  obtain ⟨written, hwritten, hread⟩ := hreads threeStages hwell hne
  obtain rfl := Except.ok.inj (hbs.symm.trans hwritten)
  exact ⟨hwell, hne, hbs, hread, (hwrites 3 bs threeStages hread).right⟩

end Stream.Layout
end GridPress

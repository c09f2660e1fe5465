import GridPress.Proofs.Elements
import GridPress.Proofs.Results
import GridPress.Trailer

namespace GridPress.Trailer

variable {bs rest : Bytes} {e : Entry} {magic : UInt8}

theorem Entry.toBytes_eq_ok_iff :
    e.toBytes = .ok bs ↔ e.header.length ≤ maxHeader ∧
      bs = e.header ++ Bytes.ofNat 4 e.header.length ++ [e.magic] := by
  unfold Entry.toBytes
  by_cases h : e.header.length ≤ maxHeader
  case pos => simp [h, eq_comm]
  case neg => simp [h]

theorem splitEntry_append (he : e.toBytes = .ok bs) (rest : Bytes) :
    splitEntry (rest ++ bs) = .ok (rest, e) := by
  have ⟨hlen, hbs⟩ := Entry.toBytes_eq_ok_iff.mp he
  have hsize : (Bytes.ofNat 4 e.header.length).toNat = e.header.length := by
    apply Bytes.toNat_ofNat_of_lt
    simp only [maxHeader] at hlen
    omega
  have hmagic : splitMagic (rest ++ bs) =
      .ok (rest ++ e.header ++ Bytes.ofNat 4 e.header.length, e.magic) := by
    rw [hbs, ← splitMagic_concat]
    simp only [List.append_assoc]
  have hlast : splitLast 4 (rest ++ e.header ++ Bytes.ofNat 4 e.header.length) =
      (rest ++ e.header, Bytes.ofNat 4 e.header.length) :=
    splitLast_append _ (by simp)
  have hheader : splitLast e.header.length (rest ++ e.header) = (rest, e.header) :=
    splitLast_append _ rfl
  have hfour : ¬(rest ++ e.header ++ Bytes.ofNat 4 e.header.length).length < 4 := by
    simp only [List.length_append, Bytes.length_ofNat]
    omega
  have hclaim : ¬(rest ++ e.header).length < e.header.length := by simp
  simp only [splitEntry, hmagic, Result.ok_bind, hlast, hsize, hheader, if_neg hfour,
    if_neg hclaim]

theorem splitMagic_eq_ok_iff : splitMagic bs = .ok (rest, magic) ↔ bs = rest ++ [magic] := by
  constructor
  case mp =>
    unfold splitMagic
    split
    case h_1 last hlast =>
      obtain ⟨front, rfl⟩ := List.getLast?_eq_some_iff.mp hlast
      rw [List.dropLast_concat]
      intro h
      obtain ⟨rfl, rfl⟩ := Prod.mk.inj (Except.ok.inj h)
      rfl
    case h_2 => nofun
  case mpr =>
    rintro rfl
    exact splitMagic_concat rest magic

theorem splitLast_append_splitLast (n : Nat) (bs : Bytes) :
    (splitLast n bs).1 ++ (splitLast n bs).2 = bs := by
  rw [splitLast, List.splitAt_eq, List.take_append_drop]

theorem length_splitLast {n : Nat} (h : n ≤ bs.length) : (splitLast n bs).2.length = n := by
  rw [splitLast, List.splitAt_eq, List.length_drop, Nat.sub_sub_self h]

-- What is split off a byte string is an entry, whose header has the length that it claims.
theorem splitEntry_eq_ok_iff :
    splitEntry bs = .ok (rest, e) ↔ ∃ mark, e.toBytes = .ok mark ∧ bs = rest ++ mark := by
  constructor
  case mpr =>
    rintro ⟨mark, hmark, rfl⟩
    exact splitEntry_append hmark rest
  case mp =>
    intro h
    obtain ⟨⟨sized, magic⟩, hmagic, hentry⟩ := Result.bind_eq_ok_iff.mp h
    obtain rfl := splitMagic_eq_ok_iff.mp hmagic
    dsimp only at hentry
    split at hentry
    case isTrue => contradiction
    case isFalse hfour =>
      split at hentry
      case isTrue => contradiction
      case isFalse hclaim =>
        obtain ⟨rfl, rfl⟩ := Prod.mk.inj (Except.ok.inj hentry)
        have hsized := splitLast_append_splitLast 4 sized
        have hlsize := length_splitLast (Nat.not_lt.mp hfour)
        have hlheader := length_splitLast (Nat.not_lt.mp hclaim)
        generalize (splitLast 4 sized).1 = headed at *
        generalize (splitLast 4 sized).2 = size at *
        have hlt : size.toNat < 256 ^ 4 := hlsize ▸ size.toNat_lt
        have hbytes : Bytes.ofNat 4 size.toNat = size := hlsize ▸ size.ofNat_toNat
        refine ⟨_, Entry.toBytes_eq_ok_iff.mpr ⟨?_, rfl⟩, ?_⟩
        · rw [hlheader]
          exact Nat.le_sub_one_of_lt hlt
        · rw [hlheader, hbytes, ← hsized]
          simp only [← List.append_assoc, splitLast_append_splitLast]

end GridPress.Trailer

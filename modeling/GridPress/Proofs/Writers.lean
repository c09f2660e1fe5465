import GridPress.Proofs.Packing.Window
import GridPress.Proofs.Sink
import GridPress.Writers

namespace GridPress

open SinkM (Writes)

namespace Packing

theorem writes_emit (n : Nat) (w : Window) (values : List Nat) :
    Writes (w.emit n values) (match values.find? (2 ^ n ≤ ·) with
      | some v => .error (.buffer (.packingValue v n))
      | none => .ok (w.write n values, ())) := by
  induction values generalizing w
  case nil => exact .write _
  case cons v vs ih =>
    by_cases hv : 2 ^ n ≤ v
    case pos =>
      rw [Window.emit, if_pos hv, List.find?_cons_of_pos (by simpa using hv)]
      exact .throw _
    case neg =>
      have h := (ih ((w.push n v).drop ((w.push n v).count / 8 * 8))).write_bind
        (w.push n v).fullBytes
      rw [Window.emit, if_neg hv, List.find?_cons_of_neg (by simpa using hv)]
      cases hfind : vs.find? (2 ^ n ≤ ·) <;> rw [hfind] at h <;> exact h

theorem join_zero (values : List Nat) : join 0 values = [] := by
  rw [← List.length_eq_zero_iff, length_join, Nat.mul_zero]

theorem writes_packInto (bits : Nat) (values : List Nat) :
    Writes (packInto bits values) (do return (← pack bits values, ())) := by
  unfold packInto pack
  rw [bind_assoc]
  refine .lift_bind fun _ => ?_
  by_cases hbits : bits = 0
  case pos =>
    -- What does not fit into no bits is any number but zero.
    have hfind : values.find? (· ≠ 0) = values.find? (2 ^ bits ≤ ·) := by
      simp [hbits, Nat.one_le_iff_ne_zero]
    rw [if_pos hbits, hfind]
    cases values.find? (2 ^ bits ≤ ·)
    case none =>
      rw [hbits, join_zero]
      exact .pure ()
    case some v => exact .throw _
  case neg =>
    have h := writes_emit bits .empty values
    rw [if_neg hbits]
    cases hfind : values.find? (2 ^ bits ≤ ·)
    case none =>
      rw [hfind, write_eq_join (by simpa using hfind)] at h
      exact h
    case some v =>
      rw [hfind] at h
      exact h

-- Packing checks the size again.
theorem size_bind_pack (bits : Nat) (values : List Nat) :
    (size values.length bits >>= fun _ => pack bits values) = pack bits values := by
  unfold pack
  cases size values.length bits <;> rfl

end Packing

variable {k : FloatKind} {t : Datatype} {h : Hints} {dims : Dims} {header src : Bytes}

namespace Stage

theorem writes_onFloats {α β : Type} {name : String} {run : FloatKind → SinkM α} {y : Result β}
    {r : FloatKind → Result β} {s : β → Result (Bytes × α)}
    (hy : y = match t.kind? with
      | some k => r k
      | none => .error (.invalidChain (.unsupported name t)))
    (hrun : ∀ k, Writes (run k) (r k >>= s)) : Writes (onFloats name t run) (y >>= s) := by
  unfold onFloats
  cases hk : t.kind? <;> rw [hy, hk]
  case none => exact .throw _
  case some k => exact hrun k

namespace Abstol

theorem writes_compressInto :
    Writes (compressInto k h dims src) (do return (← compressAs k h dims src, ())) := by
  unfold compressInto compressAs
  simp only [bind_assoc]
  refine .lift_bind fun p => .lift_bind fun bits => .guard ?_
  generalize p.words.map ((reservedFor p bits).encode p) = codes
  -- Before anything is written, the size is checked to set the room aside.
  rw [← Packing.size_bind_pack, bind_assoc, bind_assoc]
  refine .lift_bind fun _ => ?_
  have hcodes := (Packing.writes_packInto bits codes).bind fun _ =>
    .write (Element.join k.datatype p.exactWords)
  simpa using hcodes.write_bind (Bytes.ofNat 8 h.fillValue.toWord)
    |>.write_bind [UInt8.ofNat bits]
    |>.write_bind (Bytes.ofNat 8 p.step.toWord)
    |>.write_bind (Bytes.ofNat 8 p.low.toWord)

theorem writes_decodeInto (params : Params) (r : Reserved) (codes exact : List Nat) :
    Writes (decodeInto k params r codes exact)
      (do return (Element.join k.datatype (← decode k params r codes exact), ())) := by
  induction codes generalizing exact
  case nil => exact .pure ()
  case cons c cs ih =>
    unfold decodeInto decode
    split
    case isTrue =>
      simpa [Element.join] using (ih exact).writeWord_bind k.datatype (k.ofDouble params.fill)
    case isFalse =>
      split
      case isTrue =>
        cases exact
        case nil => exact .throw _
        case cons w exact => simpa [Element.join] using (ih exact).writeWord_bind k.datatype w
      case isFalse =>
        simpa [Element.join] using
          (ih exact).writeWord_bind k.datatype (k.ofDouble (params.grid.point c))

theorem writes_decompressInto :
    Writes (decompressInto k dims src) (do return (← decompressAs k dims src, ())) := by
  unfold decompressInto decompressAs
  simp only [bind_assoc]
  refine .lift_bind fun ⟨params, body⟩ => .guard ?_
  simp only [bind_assoc]
  refine .lift_bind fun packed => .lift_bind fun codes => .lift_bind fun exact => ?_
  simpa using writes_decodeInto ..

end Abstol

namespace Sigbits

theorem writes_compressInto :
    Writes (compressInto k h dims src) (do return (← compressAs k h dims src, ())) := by
  unfold compressInto compressAs
  dsimp only
  refine .guard <| .guard ?_
  rw [bind_assoc]
  refine .lift_bind fun words => ?_
  -- How the layout and the codes come about makes no difference to what follows.
  generalize layoutFor k (h.significantBits.toNat - 1)
    (words.filter fun w => !h.isFill (k.toDouble w)) = l
  refine .guard ?_
  rw [bind_assoc]
  refine .lift_bind fun fillCode? => ?_
  generalize words.map _ = codes
  generalize Bytes.ofNat 2 _ = leastExponent
  simpa using (Packing.writes_packInto l.bits codes).write_bind
      ((fillCode?.map (Bytes.ofNat 8)).getD [])
    |>.write_bind (Bytes.ofNat 8 h.fillValue.toWord)
    |>.write_bind leastExponent
    |>.write_bind [UInt8.ofNat l.mantissaBits]
    |>.write_bind [UInt8.ofNat l.exponentBits]
    |>.write_bind [UInt8.ofNat l.signs.code]

theorem writes_decompressInto :
    Writes (decompressInto k dims src) (do return (← decompressAs k dims src, ())) := by
  unfold decompressInto decompressAs
  simp only [bind_assoc]
  refine .lift_bind fun ⟨⟨l, fill, fillCode?⟩, body⟩ => .lift_bind fun codes => ?_
  simpa using Writes.writeEach ..

end Sigbits

namespace Quantize

theorem writes_convertInto : Writes (convertInto k h dims src) (convertAs k h dims src) := by
  unfold convertInto convertAs
  refine .lift_bind fun p => .lift_bind fun _ => ?_
  simpa using (Writes.writeWords .int64 _).bind fun _ => .pure _

theorem writes_decodeInto (params : Params) (indices : List Int) (exact : List Nat) :
    Writes (decodeInto k params indices exact)
      (do return (Element.join k.datatype (← decode k params indices exact), ())) := by
  induction indices generalizing exact
  case nil => exact .pure ()
  case cons i is ih =>
    unfold decodeInto decode
    split
    case isTrue =>
      simpa [Element.join] using (ih exact).writeWord_bind k.datatype (k.ofDouble params.fill)
    case isFalse =>
      split
      case isTrue =>
        cases exact
        case nil => exact .throw _
        case cons w exact => simpa [Element.join] using (ih exact).writeWord_bind k.datatype w
      case isFalse =>
        split
        case isTrue =>
          simpa [Element.join] using
            (ih exact).writeWord_bind k.datatype (k.ofDouble (params.grid.point i.toNat))
        case isFalse => exact .throw _

theorem writes_revertInto :
    Writes (revertInto k header dims src) (do return (← revertAs k header dims src, ())) := by
  unfold revertInto revertAs
  simp only [bind_assoc]
  refine .lift_bind fun ⟨params, rest⟩ => .lift_bind fun exact => .lift_bind fun words => ?_
  simpa using writes_decodeInto ..

end Quantize

theorem XorDelta.writes_transformInto (f : Nat → List Nat → List Nat) :
    Writes (transformInto f t dims src) (do return (← transform f t dims src, ())) := by
  unfold transformInto transform
  rw [bind_assoc]
  exact .lift_bind fun ws => .writeWords t _

theorem Delta.writes_transformInto (f : Nat → List Nat → List Nat) :
    Writes (transformInto f t dims src) (do return (← transform f t dims src, ())) := by
  unfold transformInto transform
  split
  case isTrue => exact .throw _
  case isFalse =>
    rw [bind_assoc]
    exact .lift_bind fun ws => .writeWords t _

end Stage

namespace Algorithm.Writer

-- Wherever the stage is run, it writes what the algorithm gives.
structure Runs (w : Writer) (a : Algorithm) : Prop where
  forward  : ∀ t h dims src, Writes (w.forward t h dims src) (a.forward t h dims src)
  backward : ∀ t header dims src,
    Writes (w.backward t header dims src) (do return (← a.backward t header dims src, ()))

theorem Runs.plain {a : Algorithm} {forward : Datatype → Hints → Dims → Bytes → SinkM Unit}
    {backward : Datatype → Dims → Bytes → SinkM Unit}
    (hf : ∀ t h dims src, ∃ r : Result Bytes, a.forward t h dims src = (do return (← r, [])) ∧
      Writes (forward t h dims src) (do return (← r, ())))
    (hb : ∀ t header dims src,
      Writes (backward t dims src) (do return (← a.backward t header dims src, ()))) :
    (Writer.plain forward backward).Runs a := by
  refine ⟨fun t h dims src => ?_, hb⟩
  obtain ⟨r, hr, hwrites⟩ := hf t h dims src
  rw [hr]
  simpa [Writer.plain] using hwrites.bind fun _ => .pure []

end Algorithm.Writer

namespace Registry

open Stage

section Writers

variable {name : String} {id : UInt8} {lossy : Bool}

theorem runs_memcopy : memcopyWriter.Runs ⟨name, id, lossy, .byte memcopy⟩ :=
  .plain (fun _ _ _ src => ⟨.ok src, rfl, .write src⟩) fun _ _ _ src => .write src

theorem runs_codec (c : Codec) (leftover : Bytes → Bytes) :
    (codecWriter name c leftover).Runs ⟨name, id, lossy, .byte (codec name c)⟩ := by
  refine .plain (fun _ _ _ src => ⟨.ok (c.encode src), rfl, .write _⟩) fun _ _ _ src => ?_
  simp only [Algorithm.backward, codec]
  cases c.decode? src
  case none => exact .write_bind (leftover src) (.throw _)
  case some data => exact .write data

theorem runs_abstol : Abstol.writer.Runs ⟨name, id, lossy, .typed abstol⟩ := by
  refine .plain (fun t h dims src => ⟨Abstol.compress t h dims src, rfl, ?_⟩)
    fun t _ dims src => ?_
  · exact writes_onFloats rfl fun _ => Abstol.writes_compressInto
  · exact writes_onFloats rfl fun _ => Abstol.writes_decompressInto

theorem runs_sigbits : Sigbits.writer.Runs ⟨name, id, lossy, .typed sigbits⟩ := by
  refine .plain (fun t h dims src => ⟨Sigbits.compress t h dims src, rfl, ?_⟩)
    fun t _ dims src => ?_
  · exact writes_onFloats rfl fun _ => Sigbits.writes_compressInto
  · exact writes_onFloats rfl fun _ => Sigbits.writes_decompressInto

theorem runs_quantize : Quantize.writer.Runs ⟨name, id, lossy, .converter quantize⟩ := by
  refine ⟨fun t h dims src => ?_, fun t header dims src => ?_⟩
  · rw [← bind_pure (Algorithm.forward ..)]
    exact writes_onFloats rfl fun _ => by simpa using Quantize.writes_convertInto
  · exact writes_onFloats rfl fun _ => Quantize.writes_revertInto

theorem runs_xorDelta : XorDelta.writer.Runs ⟨name, id, lossy, .preconditionFirst xorDelta⟩ :=
  .plain (fun _ _ _ _ => ⟨_, rfl, XorDelta.writes_transformInto _⟩)
    fun _ _ _ _ => XorDelta.writes_transformInto _

theorem runs_delta : Delta.writer.Runs ⟨name, id, lossy, .preconditionSecond delta⟩ :=
  .plain (fun _ _ _ _ => ⟨_, rfl, Delta.writes_transformInto _⟩)
    fun _ _ _ _ => Delta.writes_transformInto _

end Writers

theorem runs_writers [Codecs] (leftover : Bytes → Bytes) :
    List.Forall₂ (fun a w => w.Runs a) algorithms (writers leftover) :=
  .cons runs_memcopy <| .cons runs_abstol <| .cons (runs_codec ..) <| .cons runs_sigbits <|
    .cons (runs_codec ..) <| .cons (runs_codec ..) <| .cons runs_xorDelta <|
    .cons runs_quantize <| .cons runs_delta .nil

-- A stage has the same outcome on every destination, leaves what is there and puts the same behind
-- it. All that is used of a codec is that it is a function of its input.
theorem writers_append [Codecs] (leftover : Bytes → Bytes) (dest : Bytes) :
    List.Forall₂ (fun a w =>
      (∀ t h dims src, (w.forward t h dims src).Appends dest ∧
        (w.forward t h dims src).Makes (a.forward t h dims src)) ∧
      ∀ t header dims src, (w.backward t header dims src).Appends dest ∧
        (w.backward t header dims src).Makes (do return (← a.backward t header dims src, ())))
      algorithms (writers leftover) ∧
    ∀ bits values, (Packing.packInto bits values).Appends dest ∧
      (Packing.packInto bits values).Makes (do return (← Packing.pack bits values, ())) := by
  constructor
  case left =>
    refine (runs_writers leftover).imp fun a w hw => ⟨fun t h dims src => ?forward, ?backward⟩
    case forward => exact (hw.forward t h dims src).frames dest
    case backward => exact fun t header dims src => (hw.backward t header dims src).frames dest
  case right => exact fun bits values => (Packing.writes_packInto bits values).frames dest

-- What was packed before a value that does not fit stays.
example : (Packing.packInto 8 [1, 300]).run.run [7] =
    (.error (.buffer (.packingValue 300 8)), [7, 1]) := by rfl

end Registry
end GridPress

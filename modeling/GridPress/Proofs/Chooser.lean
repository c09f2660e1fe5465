import GridPress.Proofs.Codec.Zstd
import GridPress.Proofs.Context

namespace GridPress.Chooser

section Failures

variable [Codecs] {t : Datatype} {env : Environment} {dims : Dims} {src : Bytes} {c c' : Context}
  {e : Error}

-- The context in which the data is measured. An environment that asks for lossless compression is
-- heard before that.
def heard (env : Environment) (c : Context) : Context :=
  if env.forced? = some .lossless then c.requireLossless else c

-- Why there is no choice: the environment names what is not a chain, the size of the sample is no
-- machine word, or the array holds less than the sample.
inductive Fails (t : Datatype) (env : Environment) (dims : Dims) (src : Bytes) : Error → Prop
  | chain {spec : String} {e : Error} (hspec : env.forced? = some (.chain spec))
      (hparse : Chain.parse spec = .error e) : Fails t env dims src e
  | overflow (hspec : ∀ spec, env.forced? ≠ some (.chain spec))
      (hcount : smallCount ≤ dims.count) (hsize : Size.max < sampleSize t env dims) :
      Fails t env dims src overflow
  | sample (hspec : ∀ spec, env.forced? ≠ some (.chain spec))
      (hcount : smallCount ≤ dims.count) (hsize : sampleSize t env dims ≤ Size.max)
      (hlength : src.length < sampleSize t env dims) :
      Fails t env dims src (.buffer (.sample src.length dims t))

theorem pick_eq_error_iff :
    pick t env dims src = .error e ↔ smallCount ≤ dims.count ∧
      (Size.max < sampleSize t env dims ∧ e = overflow ∨
        sampleSize t env dims ≤ Size.max ∧ src.length < sampleSize t env dims ∧
          e = .buffer (.sample src.length dims t)) := by
  simp only [pick]
  split
  case isTrue h => simp [Nat.not_le.mpr h]
  case isFalse h =>
    rw [and_iff_right (Nat.not_lt.mp h)]
    split
    case isTrue hsize => simp [hsize, Nat.not_le.mpr hsize, eq_comm]
    case isFalse hsize =>
      split
      case isTrue hlength => simp [hlength, hsize, Nat.not_lt.mp hsize, eq_comm]
      case isFalse hlength => split <;> simp [hlength, hsize]

-- Once an algorithm is picked, nothing can fail.
theorem measure_eq_error_iff :
    (measure env dims src).run.run c = (.error e, c') ↔
      pick c.datatype env dims src = .error e ∧ c' = c := by
  rw [measure, ContextM.run_bind_get, ContextM.run_bind_liftExcept_eq_error_iff]
  refine or_iff_left ?_
  rintro ⟨id, hpick, h⟩
  obtain ⟨a, -, hid, hbyte⟩ := byte_of_pick hpick
  rw [hid, Result.ok_bind, Chain.ofAlgorithms_byte hbyte, ContextM.run_bind_liftExcept] at h
  cases h

theorem fails_iff_pick (hspec : ∀ spec, env.forced? ≠ some (.chain spec)) :
    Fails t env dims src e ↔ pick t env dims src = .error e := by
  rw [pick_eq_error_iff]
  constructor
  case mp =>
    rintro (⟨h, _⟩ | ⟨_, hcount, hsize⟩ | ⟨_, hcount, hsize, hlength⟩)
    · exact absurd h (hspec _)
    · exact ⟨hcount, .inl ⟨hsize, rfl⟩⟩
    · exact ⟨hcount, .inr ⟨hsize, hlength, rfl⟩⟩
  case mpr =>
    rintro ⟨hcount, ⟨hsize, rfl⟩ | ⟨hsize, hlength, rfl⟩⟩
    · exact .overflow hspec hcount hsize
    · exact .sample hspec hcount hsize hlength

theorem fails_iff_parse {spec : String} (hspec : env.forced? = some (.chain spec)) :
    Fails t env dims src e ↔ Chain.parse spec = .error e := by
  refine ⟨?_, .chain hspec⟩
  rintro (⟨h, hparse⟩ | ⟨h, _, _⟩ | ⟨h, _, _, _⟩)
  · obtain rfl := Forced.chain.inj (Option.some.inj (hspec.symm.trans h))
    exact hparse
  · exact absurd hspec (h spec)
  · exact absurd hspec (h spec)

-- Only a context without a chain can be left without a choice, and nothing is undone then.
theorem choose_eq_error_iff :
    (choose env dims src).run.run c = (.error e, c') ↔
      c.chain? = none ∧ Fails c.datatype env dims src e ∧ c' = heard env c := by
  cases hc : c.chain?
  case some chain =>
    rw [choose_of_chain hc]
    exact ⟨nofun, nofun⟩
  case none =>
    rw [choose_of_no_chain hc, heard]
    split
    case h_1 spec hspec =>
      rw [fails_iff_parse hspec, ContextM.run_bind_liftExcept_eq_error_iff, hspec]
      have hset : ∀ chain, (set (c.setChain chain) : ContextM PUnit).run.run c ≠ (.error e, c') :=
        fun _ h => nomatch congrArg Prod.fst h
      simp [hset]
    case h_2 hspec =>
      rw [fails_iff_pick (by simp [hspec]), measure_eq_error_iff, if_pos hspec]
      exact (and_iff_right rfl).symm
    case h_3 hspec =>
      rw [fails_iff_pick (by simp [hspec]), measure_eq_error_iff, if_neg (by simp [hspec])]
      exact (and_iff_right rfl).symm

omit [Codecs] in
-- A context is heard in vain exactly if it requires lossless compression already or is not asked
-- to.
theorem heard_eq_self_iff :
    heard env c = c ↔ (env.forced? = some .lossless → c.lossless = true) := by
  unfold heard
  split
  case isTrue h =>
    refine ⟨fun hc _ => hc ▸ rfl, fun hc => ?_⟩
    simp [Context.requireLossless, ← hc h]
  case isFalse h => simp [h]

-- A failed choice leaves a context without a chain and changes neither its type nor its hints. What
-- it may change is the need for lossless compression, which an environment that asks for it leaves
-- behind.
theorem context_of_failed (h : (choose env dims src).run.run c = (.error e, c')) :
    Fails c.datatype env dims src e ∧
      c.chain? = none ∧ c'.chain? = none ∧ c'.datatype = c.datatype ∧ c'.hints = c.hints ∧
      c'.lossless = (c.lossless || env.forced? = some .lossless) ∧
      (c' = c ↔ (env.forced? = some .lossless → c.lossless = true)) := by
  obtain ⟨hchain, hfails, rfl⟩ := choose_eq_error_iff.mp h
  refine ⟨hfails, hchain, ?_⟩
  rw [heard_eq_self_iff]
  unfold heard
  split <;> simp_all [Context.requireLossless]

end Failures

def tenDims : Dims :=
  ⟨[10], by decide, by decide⟩

-- A context that is made without any hints.
def untouched : Context :=
  ⟨.double, {}, false, none⟩

-- The environment asks for lossless compression once more, which changes nothing.
theorem context_of_failed_lossless :
    letI := Codecs.stored
    let env : Environment := { forced? := some .lossless }
    let c : Context := { untouched with lossless := true }
    (choose env tenDims []).run.run c = (.error (.buffer (.sample 0 tenDims .double)), c) ∧
      Fails .double env tenDims [] (.buffer (.sample 0 tenDims .double)) ∧
      (env.forced? = some .lossless → c.lossless = true) := by
  let codecs := Codecs.stored
  have hchoose : (choose { forced? := some .lossless } tenDims []).run.run
      { untouched with lossless := true } =
        (.error (.buffer (.sample 0 tenDims .double)), { untouched with lossless := true }) := rfl
  obtain ⟨hfails, -, -, -, -, -, hself⟩ := context_of_failed hchoose
  exact ⟨hchoose, hfails, hself.mp rfl⟩

-- Lossless compression is required although no chain is chosen.
theorem not_context_of_failed :
    letI := Codecs.stored
    ¬∀ (c c' : Context) (env : Environment) (dims : Dims) (src : Bytes) (e : Error),
      (choose env dims src).run.run c = (.error e, c') → c' = c := by
  intro hall
  let codecs := Codecs.stored
  have hchoose : (choose { forced? := some .lossless } tenDims []).run.run untouched =
      (.error (.buffer (.sample 0 tenDims .double)), { untouched with lossless := true }) := rfl
  exact absurd (congrArg Context.lossless (hall _ _ _ _ _ _ hchoose)) (by decide)

end GridPress.Chooser

import GridPress.Proofs.Chooser
import GridPress.Proofs.Dims.Volume

namespace GridPress.Chooser

variable {t : Datatype} {env : Environment} {dims : Dims} {src src' : Bytes} {c : Context}
  {e : Error}

theorem count_le_of_accepted (h : dims.Accepted) : dims.count ≤ Dims.maxElements := by
  have hvolume := (Dims.accepted_iff_fits.mp h).volume_le
  rw [Dims.count_eq]
  exact Nat.le_trans (Nat.min_le_left _ _) hvolume

-- Neither checked dims nor a limit of fewer bytes let the size of the sample leave the word.
theorem sampleSize_le_max (h : dims.Accepted ∨ env.sampleLimit * t.size ≤ Size.max) :
    sampleSize t env dims ≤ Size.max := by
  cases h
  case inl h =>
    have hsize : Dims.maxElements * t.size ≤ Size.max := by cases t <;> decide
    have hmin : min dims.count env.sampleLimit ≤ Dims.maxElements :=
      Nat.le_trans (Nat.min_le_left _ _) (count_le_of_accepted h)
    exact Nat.le_trans (Nat.mul_le_mul_right _ hmin) hsize
  case inr h => exact Nat.le_trans (Nat.mul_le_mul_right _ (Nat.min_le_right _ _)) h

@[simp]
theorem heard_datatype : (heard env c).datatype = c.datatype := by
  unfold heard
  split <;> rfl

@[simp]
theorem heard_chain? : (heard env c).chain? = c.chain? := by
  unfold heard
  split <;> rfl

section Choice

variable [Codecs]

theorem choose_eq_measure (hc : c.chain? = none)
    (hspec : ∀ spec, env.forced? ≠ some (.chain spec)) :
    (choose env dims src).run.run c = (measure env dims src).run.run (heard env c) := by
  rw [choose_of_no_chain hc, heard]
  split
  case h_1 spec h => exact absurd h (hspec spec)
  case h_2 h => rw [if_pos h]
  case h_3 h => rw [if_neg (by simp [h])]

-- The algorithm for a sample: random data is copied.
def idFor (sample : Bytes) : UInt8 :=
  if isRandom sample then Registry.memcopyId else Registry.lz4Id

theorem pick_eq_ok (hcount : smallCount ≤ dims.count) (hsize : sampleSize t env dims ≤ Size.max)
    (hlength : sampleSize t env dims ≤ src.length) :
    pick t env dims src = .ok (idFor (src.take (sampleSize t env dims))) := by
  simp only [pick, if_neg (Nat.not_lt.mpr hcount), if_neg (Nat.not_lt.mpr hsize),
    if_neg (Nat.not_lt.mpr hlength)]
  exact (apply_ite Except.ok _ _ _).symm

-- There is no choice, and no chain is set.
structure Stops (env : Environment) (dims : Dims) (src : Bytes) (c : Context) (e : Error) :
    Prop where
  run    : (choose env dims src).run.run c = (.error e, heard env c)
  chain? : (heard env c).chain? = none

-- The chain is the one stage for the first `n` bytes, whatever data follows them.
def InstallsBy (n : Nat) (env : Environment) (dims : Dims) (src : Bytes) (c : Context) : Prop :=
  ∃ a, Registry.byId (idFor (src.take n)) = .ok a ∧ ∀ src' : Bytes, src'.take n = src.take n →
    (choose env dims src').run.run c =
      (.ok (), { heard env c with chain? := some { byte? := some a } })

theorem stops_iff_pick (hc : c.chain? = none) (hspec : ∀ spec, env.forced? ≠ some (.chain spec)) :
    Stops env dims src c e ↔ pick c.datatype env dims src = .error e := by
  have hrun : (choose env dims src).run.run c = (.error e, heard env c) ↔
      pick c.datatype env dims src = .error e := by
    rw [choose_eq_error_iff, fails_iff_pick hspec]
    simp [hc]
  exact ⟨fun h => hrun.mp h.run, fun h => ⟨hrun.mpr h, heard_chain?.trans hc⟩⟩

theorem installsBy_sampleSize (hc : c.chain? = none)
    (hspec : ∀ spec, env.forced? ≠ some (.chain spec)) (hcount : smallCount ≤ dims.count)
    (hsize : sampleSize c.datatype env dims ≤ Size.max)
    (hlength : sampleSize c.datatype env dims ≤ src.length) :
    InstallsBy (sampleSize c.datatype env dims) env dims src c := by
  have hpick := pick_eq_ok hcount hsize hlength
  obtain ⟨a, _, ha, _⟩ := byte_of_pick hpick
  refine ⟨a, ha, fun src' htake => ?_⟩
  have hlength' : sampleSize c.datatype env dims ≤ src'.length := by
    have h := congrArg List.length htake
    rw [List.length_take, List.length_take] at h
    omega
  rw [choose_eq_measure hc hspec]
  refine (measure_eq_ok_iff (heard_chain?.trans hc)).mpr ⟨_, a, ?_, ha, rfl⟩
  rw [heard_datatype, pick_eq_ok hcount hsize hlength', htake]

-- For large data and no chain from elsewhere. The program crashes exactly if the size of the sample
-- leaves the word, which checked dims or a limit that is small enough do not let it.
theorem choose_by_sample (hc : c.chain? = none)
    (hspec : ∀ spec, env.forced? ≠ some (.chain spec)) (hcount : smallCount ≤ dims.count) :
    (Stops env dims src c overflow ↔ Size.max < sampleSize c.datatype env dims) ∧
    (Stops env dims src c (.buffer (.sample src.length dims c.datatype)) ↔
      sampleSize c.datatype env dims ≤ Size.max ∧
        src.length < sampleSize c.datatype env dims) ∧
    (sampleSize c.datatype env dims ≤ Size.max → sampleSize c.datatype env dims ≤ src.length →
      InstallsBy (sampleSize c.datatype env dims) env dims src c) ∧
    (dims.Accepted ∨ env.sampleLimit * c.datatype.size ≤ Size.max →
      sampleSize c.datatype env dims ≤ Size.max) := by
  refine ⟨?_, ?_, installsBy_sampleSize hc hspec hcount, sampleSize_le_max⟩
  · simp [stops_iff_pick hc hspec, pick_eq_error_iff, hcount, overflow]
  · simp [stops_iff_pick hc hspec, pick_eq_error_iff, hcount, overflow]

end Choice

-- Ten doubles of which two are sampled.
theorem choose_by_sample_two :
    letI := Codecs.stored
    let env : Environment := { sampleLimit := 2 }
    Stops env tenDims (List.replicate 15 0) untouched (.buffer (.sample 15 tenDims .double)) ∧
      InstallsBy 16 env tenDims (List.replicate 16 0) untouched := by
  let codecs := Codecs.stored
  have htwo := fun src => @choose_by_sample { sampleLimit := 2 } tenDims src untouched codecs rfl
    nofun (by decide)
  have ⟨_, hstops, _⟩ := htwo (List.replicate 15 0)
  have ⟨_, _, hinstalls, _⟩ := htwo (List.replicate 16 0)
  exact ⟨hstops.mpr (by decide), hinstalls (by decide) (by decide)⟩

-- One axis of `2 ^ 61` doubles, which take `2 ^ 64` bytes.
def hugeDims : Dims :=
  ⟨[2305843009213693952], by decide, by decide⟩

-- The program crashes over data that holds nothing.
theorem not_choose_by_sample :
    letI := Codecs.stored
    ¬∀ (c : Context) (env : Environment) (dims : Dims) (src : Bytes),
      c.chain? = none → (∀ spec, env.forced? ≠ some (.chain spec)) → 0 < env.sampleLimit →
      smallCount ≤ dims.count → src.length < sampleSize c.datatype env dims →
      ∃ fault c', (choose env dims src).run.run c = (.error (.buffer fault), c') ∧
        c'.chain? = none := by
  intro hall
  let codecs := Codecs.stored
  have hsize : Size.max < sampleSize .double { sampleLimit := Size.max } hugeDims := by decide
  have ⟨fault, c', herror, _⟩ := hall untouched { sampleLimit := Size.max } hugeDims [] rfl nofun
    (by decide) (by decide) (Nat.lt_of_le_of_lt (by decide) hsize)
  have hfails : Fails untouched.datatype { sampleLimit := Size.max } hugeDims [] overflow :=
    .overflow nofun (by decide) hsize
  have hchoose := choose_eq_error_iff.mpr ⟨rfl, hfails, rfl⟩
  exact nomatch congrArg Prod.fst (hchoose.symm.trans herror)

end GridPress.Chooser

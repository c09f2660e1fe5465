import GridPress.Chooser
import GridPress.Proofs.Chain
import GridPress.Proofs.Elements

namespace GridPress

variable [Codecs]

namespace Registry

theorem byId_memcopyId : ∃ a ∈ algorithms, byId memcopyId = .ok a ∧ a.position = .byte :=
  ⟨_, List.mem_cons_self, rfl, rfl⟩

theorem byId_lz4Id : ∃ a ∈ algorithms, byId lz4Id = .ok a ∧ a.position = .byte :=
  ⟨_, by simp only [algorithms, List.mem_cons, true_or, or_true], rfl, rfl⟩

end Registry

namespace Chain

theorem registered_of_parse {spec : String} {c : Chain} (h : parse spec = .ok c) :
    c.Registered := by
  have ⟨as, has, hc⟩ := Result.bind_eq_ok_iff.mp h
  refine .of_ofAlgorithms (fun a ha => ?_) hc
  have ⟨s, _, hs⟩ := Result.exists_of_mem_mapM has ha
  exact (Registry.byName_eq_ok_iff.mp hs).left

omit [Codecs] in
theorem ofAlgorithms_byte {a : Algorithm} (h : a.position = .byte) :
    ofAlgorithms [a] = .ok { byte? := some a } := by
  have hlt : ¬(Position.byte < Position.preconditionFirst) := by decide
  simp [ofAlgorithms, addAll, add, place, claim, h, hlt, size, Algorithm.isLossy]

theorem registered_byte {a : Algorithm} (ha : a ∈ Registry.algorithms)
    (hbyte : a.position = .byte) : Registered { byte? := some a } :=
  .of_ofAlgorithms (by simpa using ha) (ofAlgorithms_byte hbyte)

end Chain

namespace Context

-- The chain, if there is one, is built from registered algorithms.
def Valid (c : Context) : Prop :=
  ∀ chain ∈ c.chain?, chain.Registered

-- Whether `chain` is the one that the context was given, or the one named by the environment if it
-- was given none.
def Names (c : Context) (env : Environment) (chain : Chain) : Prop :=
  c.chain? = some chain ∨
    c.chain? = none ∧ ∃ spec, env.forced? = some (.chain spec) ∧ Chain.parse spec = .ok chain

theorem valid_of_make {t : Datatype} {h : Hints} {c : Context} (hc : make t h = .ok c) :
    c.Valid := by
  have ⟨chain?, hchain, hc⟩ := Result.bind_eq_ok_iff.mp hc
  obtain rfl := Except.ok.inj hc
  intro chain hmem
  cases hf : h.forcedChain
  case none =>
    simp [hf] at hchain
    simp [← hchain] at hmem
  case some spec =>
    simp [hf] at hchain
    obtain ⟨d, hd, rfl⟩ := hchain
    obtain rfl : d = chain := by simpa using hmem
    exact Chain.registered_of_parse hd

theorem Valid.setChain {c : Context} {chain : Chain} (hc : c.Valid) (h : chain.Registered) :
    (c.setChain chain).Valid := by
  unfold Context.setChain
  split
  case h_1 => exact hc
  case h_2 => exact fun d hd => Option.some.inj hd ▸ h

end Context

namespace Chooser

variable {env : Environment} {dims : Dims} {src : Bytes} {c c' : Context}

theorem byte_of_pick {t : Datatype} {id : UInt8} (h : pick t env dims src = .ok id) :
    ∃ a ∈ Registry.algorithms, Registry.byId id = .ok a ∧ a.position = .byte := by
  have hid : id = Registry.memcopyId ∨ id = Registry.lz4Id := by
    simp only [pick] at h
    repeat' split at h
    all_goals simp_all
  cases hid
  case inl hid => exact hid ▸ Registry.byId_memcopyId
  case inr hid => exact hid ▸ Registry.byId_lz4Id

theorem measure_eq_ok_iff (hc : c.chain? = none) :
    (measure env dims src).run.run c = (.ok (), c') ↔
      ∃ id a, pick c.datatype env dims src = .ok id ∧ Registry.byId id = .ok a ∧
        c' = { c with chain? := some { byte? := some a } } := by
  have hset : ∀ chain, c.setChain chain = { c with chain? := some chain } := by
    simp [Context.setChain, hc]
  simp only [measure, ContextM.run_bind_get, ContextM.run_bind_liftExcept_eq_ok_iff,
    ContextM.run_set_eq_ok_iff, Result.bind_eq_ok_iff, hset]
  constructor
  case mp =>
    rintro ⟨id, hpick, chain, ⟨a, ha, hchain⟩, h⟩
    obtain ⟨_, _, hb, hbyte⟩ := byte_of_pick hpick
    obtain rfl := Except.ok.inj (ha.symm.trans hb)
    obtain rfl := Except.ok.inj ((Chain.ofAlgorithms_byte hbyte).symm.trans hchain)
    exact ⟨id, a, hpick, ha, h⟩
  case mpr =>
    rintro ⟨id, a, hpick, ha, h⟩
    obtain ⟨_, _, hb, hbyte⟩ := byte_of_pick hpick
    obtain rfl := Except.ok.inj (ha.symm.trans hb)
    exact ⟨id, hpick, _, ⟨a, ha, Chain.ofAlgorithms_byte hbyte⟩, h⟩

theorem byte_of_measure (hc : c.chain? = none)
    (h : (measure env dims src).run.run c = (.ok (), c')) :
    ∃ a ∈ Registry.algorithms, a.position = .byte ∧
      c' = { c with chain? := some { byte? := some a } } := by
  have ⟨id, a, hpick, ha, h⟩ := (measure_eq_ok_iff hc).mp h
  have ⟨b, hmem, hb, hbyte⟩ := byte_of_pick hpick
  obtain rfl := Except.ok.inj (ha.symm.trans hb)
  exact ⟨a, hmem, hbyte, h⟩

theorem choose_of_chain {chain : Chain} (hc : c.chain? = some chain) :
    (choose env dims src).run.run c = (.ok (), c) := by
  rw [choose, ContextM.run_bind_get, hc]
  rfl

-- Without a chain, the environment decides whether to take its chain or to measure the data.
theorem choose_of_no_chain (hc : c.chain? = none) :
    (choose env dims src).run.run c = match env.forced? with
      | some (.chain spec) =>
        ((do set (c.setChain (← liftExcept (Chain.parse spec)))) : ContextM Unit).run.run c
      | some .lossless => (measure env dims src).run.run c.requireLossless
      | none => (measure env dims src).run.run c := by
  rw [choose, ContextM.run_bind_get, hc]
  cases env.forced?
  case none => rfl
  case some forced => cases forced <;> rfl

theorem valid_of_measure (hc : c.Valid) : ((measure env dims src).run.run c).2.Valid := by
  rw [measure, ContextM.run_bind_get, ContextM.run_bind_liftExcept]
  cases hpick : pick c.datatype env dims src
  case error => exact hc
  case ok id =>
    obtain ⟨a, ha, hid, hbyte⟩ := byte_of_pick hpick
    simp only [hid, Result.ok_bind, Chain.ofAlgorithms_byte hbyte, ContextM.run_bind_liftExcept]
    exact hc.setChain (Chain.registered_byte ha hbyte)

-- Whether or not a choice fails, it leaves a valid context.
theorem valid_of_choose (hc : c.Valid) : ((choose env dims src).run.run c).2.Valid := by
  cases hchain : c.chain?
  case some chain =>
    rw [choose_of_chain hchain]
    exact hc
  case none =>
    rw [choose_of_no_chain hchain]
    split
    case h_1 spec _ =>
      rw [ContextM.run_bind_liftExcept]
      cases hparse : Chain.parse spec
      case error => exact hc
      case ok chain => exact hc.setChain (Chain.registered_of_parse hparse)
    case h_2 => exact valid_of_measure (c := c.requireLossless) hc
    case h_3 => exact valid_of_measure hc

-- The chosen chain is named or a single byte stage, and nothing but the chain and the need for
-- lossless compression changes.
theorem choose_eq_ok (h : (choose env dims src).run.run c = (.ok (), c')) :
    c'.datatype = c.datatype ∧ c'.hints = c.hints ∧ ∃ chain, c'.chain? = some chain ∧
      (c.Names env chain ∨
        ∃ a ∈ Registry.algorithms, a.position = .byte ∧ chain = { byte? := some a }) := by
  cases hc : c.chain?
  case some chain =>
    obtain rfl : c = c' := congrArg Prod.snd ((choose_of_chain hc).symm.trans h)
    exact ⟨rfl, rfl, chain, hc, .inl (.inl hc)⟩
  case none =>
    rw [choose_of_no_chain hc] at h
    split at h
    case h_1 spec hspec =>
      simp only [ContextM.run_bind_liftExcept_eq_ok_iff, ContextM.run_set_eq_ok_iff] at h
      obtain ⟨chain, hchain, rfl⟩ := h
      simp only [Context.setChain, hc, true_and]
      exact ⟨chain, rfl, .inl (.inr ⟨hc, spec, hspec, hchain⟩)⟩
    case h_2 =>
      obtain ⟨a, ha, hbyte, h⟩ := byte_of_measure (c := c.requireLossless) hc h
      exact h ▸ ⟨rfl, rfl, _, rfl, .inr ⟨a, ha, hbyte, rfl⟩⟩
    case h_3 =>
      obtain ⟨a, ha, hbyte, h⟩ := byte_of_measure hc h
      exact h ▸ ⟨rfl, rfl, _, rfl, .inr ⟨a, ha, hbyte, rfl⟩⟩

omit [Codecs] in
theorem sampleSize_le {t : Datatype} (h : dims.byteSize t ≤ Size.maxArray) :
    sampleSize t env dims ≤ dims.byteSize t := by
  rw [Dims.byteSize_eq h]
  exact Nat.mul_le_mul_right _ (Nat.min_le_left _ _)

theorem exists_pick_eq_ok {t : Datatype} (hs : src.length = dims.byteSize t)
    (hm : src.length ≤ Size.maxArray) : ∃ id, pick t env dims src = .ok id := by
  have hle : sampleSize t env dims ≤ src.length := hs ▸ sampleSize_le (hs ▸ hm)
  have hmax : sampleSize t env dims ≤ Size.max := Nat.le_trans (Nat.le_trans hle hm) (by decide)
  rw [pick]
  split
  case isTrue => exact ⟨_, rfl⟩
  case isFalse =>
    dsimp only
    rw [if_neg (Nat.not_lt.mpr hmax), if_neg (Nat.not_lt.mpr hle)]
    split
    · exact ⟨_, rfl⟩
    · exact ⟨_, rfl⟩

theorem exists_measure_eq_ok (hc : c.chain? = none) (hs : src.length = dims.byteSize c.datatype)
    (hm : src.length ≤ Size.maxArray) :
    ∃ c', (measure env dims src).run.run c = (.ok (), c') := by
  have ⟨id, hid⟩ : ∃ id, pick c.datatype env dims src = .ok id := exists_pick_eq_ok hs hm
  have ⟨a, _, ha, _⟩ := byte_of_pick hid
  exact ⟨_, (measure_eq_ok_iff hc).mpr ⟨id, a, hid, ha, rfl⟩⟩

-- Measuring succeeds on arrays that memory can hold, so only a chain from the environment can fail.
theorem exists_choose_eq_ok (hs : src.length = dims.byteSize c.datatype)
    (hm : src.length ≤ Size.maxArray)
    (henv : c.chain? = none → ∀ spec, env.forced? ≠ some (.chain spec)) :
    ∃ c', (choose env dims src).run.run c = (.ok (), c') := by
  cases hc : c.chain?
  case some chain => exact ⟨c, choose_of_chain hc⟩
  case none =>
    rw [choose_of_no_chain hc]
    split
    case h_1 spec hspec => exact absurd hspec (henv hc spec)
    case h_2 => exact exists_measure_eq_ok hc hs hm
    case h_3 => exact exists_measure_eq_ok hc hs hm

end Chooser
end GridPress

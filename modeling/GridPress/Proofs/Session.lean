import GridPress.Proofs.Stream.Framing
import GridPress.Validation

namespace GridPress

namespace Context

-- What a context was made with stays as it is, and what it has decided is not taken back.
structure KeptBy (c d : Context) : Prop where
  datatype : d.datatype = c.datatype
  hints    : d.hints = c.hints
  lossless : c.lossless = true → d.lossless = true
  chain    : ∀ chain ∈ c.chain?, d.chain? = some chain

variable {c d e : Context}

theorem KeptBy.refl (c : Context) : c.KeptBy c where
  datatype := rfl
  hints    := rfl
  lossless := id
  chain    := fun _ h => h

theorem KeptBy.trans (h₁ : c.KeptBy d) (h₂ : d.KeptBy e) : c.KeptBy e where
  datatype := h₂.datatype.trans h₁.datatype
  hints    := h₂.hints.trans h₁.hints
  lossless := h₂.lossless ∘ h₁.lossless
  chain    := fun chain h => h₂.chain chain (h₁.chain chain h)

theorem KeptBy.lossless_eq_false (h : c.KeptBy d) (hd : d.lossless = false) :
    c.lossless = false := by
  cases hc : c.lossless
  case false => rfl
  case true => rw [h.lossless hc] at hd; contradiction

theorem keptBy_setChain (c : Context) (chain : Chain) : c.KeptBy (c.setChain chain) := by
  unfold setChain
  split
  case h_1 => exact .refl c
  case h_2 hc => exact ⟨rfl, rfl, id, by simp [hc]⟩

theorem keptBy_requireLossless (c : Context) : c.KeptBy c.requireLossless where
  datatype := rfl
  hints    := rfl
  lossless := fun _ => rfl
  chain    := fun _ h => h

end Context

namespace ContextM

variable {α β : Type} {c : Context}

-- Whether a step keeps what the context `c` has decided.
def KeepsAt (c : Context) (x : ContextM α) : Prop :=
  c.KeptBy (x.run.run c).2

theorem keepsAt_liftExcept (x : Result α) : KeepsAt c (liftExcept x) := by
  cases x <;> exact .refl c

theorem keepsAt_bind_liftExcept {x : Result α} {f : α → ContextM β} (hf : ∀ a, KeepsAt c (f a)) :
    KeepsAt c (liftExcept x >>= f) := by
  cases x
  case error => exact .refl c
  case ok a => exact hf a

theorem keepsAt_bind_get {f : Context → ContextM α} (hf : KeepsAt c (f c)) :
    KeepsAt c (get >>= f) :=
  hf

theorem keepsAt_bind {x : ContextM α} {f : α → ContextM β} (hx : KeepsAt c x)
    (hf : ∀ a d, KeepsAt d (f a)) : KeepsAt c (x >>= f) := by
  unfold KeepsAt at hx ⊢
  rw [run_bind]
  cases hrun : x.run.run c
  case mk result d =>
    rw [hrun] at hx
    cases result
    case error => exact hx
    case ok a => exact hx.trans (hf a d)

-- A step whose outcome is only put into another form leaves the same context.
theorem run_bind_pure (x : ContextM α) (f : α → β) :
    (x >>= fun a => pure (f a)).run.run c = ((x.run.run c).1.map f, (x.run.run c).2) := by
  rw [run_bind]
  cases x.run.run c
  case mk result d => cases result <;> rfl

end ContextM

open ContextM (KeepsAt keepsAt_bind keepsAt_bind_get keepsAt_bind_liftExcept keepsAt_liftExcept)

variable [Codecs] {c d : Context} {env : Environment} {dims : Dims} {src : Bytes}

namespace Chooser

theorem keepsAt_measure : KeepsAt c (measure env dims src) :=
  keepsAt_bind_get
    (keepsAt_bind_liftExcept fun _ => keepsAt_bind_liftExcept (c.keptBy_setChain ·))

theorem keepsAt_choose : KeepsAt c (choose env dims src) := by
  cases hc : c.chain?
  case some chain =>
    rw [KeepsAt, choose_of_chain hc]
    exact .refl c
  case none =>
    rw [KeepsAt, choose_of_no_chain hc]
    split
    case h_1 => exact keepsAt_bind_liftExcept (c.keptBy_setChain ·)
    case h_2 => exact c.keptBy_requireLossless.trans keepsAt_measure
    case h_3 => exact keepsAt_measure

end Chooser

namespace Stream

theorem keepsAt_compress : KeepsAt c (compress env dims src) := by
  unfold compress
  refine keepsAt_bind_get (keepsAt_bind_liftExcept fun _ => ?_)
  by_cases hempty : src.isEmpty = true
  case pos =>
    simp only [if_pos hempty]
    exact .refl c
  case neg =>
    simp only [if_neg hempty]
    refine keepsAt_bind Chooser.keepsAt_choose fun _ d => keepsAt_bind_get ?_
    cases d.chain?
    case none => exact .refl d
    case some chain => exact keepsAt_bind_liftExcept fun _ => keepsAt_liftExcept _

-- The context that is left is the one before, or the one that compression leaves.
theorem compressInto_context (c : Context) (env : Environment) (dims : Dims) (src dest : Bytes) :
    ((compressInto env dims src dest).run.run c).2 = c ∨
      ((compressInto env dims src dest).run.run c).2 = ((compress env dims src).run.run c).2 := by
  rw [run_compressInto]
  split
  case isTrue => exact .inl rfl
  case isFalse =>
    right
    split
    case h_1 hrun =>
      rw [hrun]
      split <;> rfl
    case h_2 hrun => rw [hrun]

theorem keepsAt_compressInto (dest : Bytes) : KeepsAt c (compressInto env dims src dest) := by
  rw [KeepsAt]
  cases compressInto_context c env dims src dest
  case inl h =>
    rw [h]
    exact .refl c
  case inr h =>
    rw [h]
    exact keepsAt_compress

theorem valid_of_compressInto (hc : c.Valid) (dest : Bytes) :
    ((compressInto env dims src dest).run.run c).2.Valid := by
  cases compressInto_context c env dims src dest
  case inl h => rwa [h]
  case inr h =>
    rw [h]
    exact valid_of_compress hc

-- A stream tells the chain that is left in the context.
theorem describe_of_compress [Codecs.Lawful] {stream : Bytes} (hc : c.Valid) (hne : src ≠ [])
    (h : (compress env dims src).run.run c = (.ok stream, d)) :
    ∃ chain, d.chain? = some chain ∧
      describe stream = .ok ⟨chain.size, some chain, stream.length⟩ := by
  have ⟨_, hchoose, chain, hchain, _, hrun⟩ := (compress_eq_ok_iff hne).mp h
  have hregistered := registered_of_choose hc hchoose hchain
  have ⟨hsize, r, hr, hf, hstream⟩ := (runChain_eq_ok_iff hregistered.placed).mp hrun
  exact ⟨chain, hchain, hstream ▸ Run.describe_stream hregistered hr hf hsize⟩

end Stream

inductive Call where
  | choose (env : Environment) (dims : Dims) (src : Bytes)
  | compress (env : Environment) (dims : Dims) (src : Bytes)
  | compressInto (env : Environment) (dims : Dims) (src dest : Bytes)
  | validate (dims : Dims) (original stream : Bytes)

inductive Answer where
  | chosen
  | compressed (stream : Bytes)
  | written (n : Nat) (dest : Bytes)
  | report (r : Validation.Report)

namespace Call

-- The array that a call is about.
def source : Call → Bytes
  | choose _ _ src => src
  | compress _ _ src => src
  | compressInto _ _ src _ => src
  | validate _ original _ => original

def act : Call → ContextM Answer
  | choose env dims src => do
    Chooser.choose env dims src
    return .chosen
  | compress env dims src => do
    return .compressed (← Stream.compress env dims src)
  | compressInto env dims src dest => do
    let out ← Stream.compressInto env dims src dest
    return .written out.1 out.2
  | validate dims original stream => do
    return .report (← liftExcept (Validation.validate (← get) dims original stream))

end Call

-- The stream that an answer gives.
def Answer.stream? : Answer → Option Bytes
  | compressed stream => some stream
  | written n dest => some (dest.take n)
  | _ => none

-- A call, its outcome, and the context that it leaves.
structure Event where
  call    : Call
  outcome : Result Answer
  context : Context

-- What happens in a session, in which each call finds the context that the one before it left.
def history : Context → List Call → List Event
  | _, [] => []
  | c, call :: calls =>
    let r := call.act.run.run c
    ⟨call, r.1, r.2⟩ :: history r.2 calls

theorem history_cons (c : Context) (call : Call) (calls : List Call) :
    history c (call :: calls) =
      ⟨call, (call.act.run.run c).1, (call.act.run.run c).2⟩ ::
        history (call.act.run.run c).2 calls :=
  rfl

-- Whether the stream of an event tells the chain of its context. Only that of an array without
-- elements tells none.
def Event.Tells (e : Event) : Prop :=
  ∀ answer stream, e.outcome = .ok answer → answer.stream? = some stream → e.call.source ≠ [] →
    ∃ chain, e.context.chain? = some chain ∧
      Stream.describe stream = .ok ⟨chain.size, some chain, stream.length⟩

variable {call : Call} {calls : List Call} {e : Event}

theorem Call.keepsAt_act (call : Call) : KeepsAt c call.act := by
  cases call
  case choose env dims src => exact keepsAt_bind Chooser.keepsAt_choose fun _ d => .refl d
  case compress env dims src => exact keepsAt_bind Stream.keepsAt_compress fun _ d => .refl d
  case compressInto env dims src dest =>
    exact keepsAt_bind (Stream.keepsAt_compressInto dest) fun _ d => .refl d
  case validate dims original stream =>
    exact keepsAt_bind_get (keepsAt_bind_liftExcept fun _ => .refl c)

theorem Call.valid_act (hc : c.Valid) (call : Call) : (call.act.run.run c).2.Valid := by
  cases call
  case choose env dims src =>
    rw [act, ContextM.run_bind_pure]
    exact Chooser.valid_of_choose hc
  case compress env dims src =>
    rw [act, ContextM.run_bind_pure]
    exact Stream.valid_of_compress hc
  case compressInto env dims src dest =>
    rw [act, ContextM.run_bind_pure]
    exact Stream.valid_of_compressInto hc dest
  case validate dims original stream =>
    rw [act, ContextM.run_bind_get, ContextM.run_bind_pure, ContextM.run_liftExcept]
    exact hc

-- Only the two calls that compress answer with a stream.
theorem Call.compress_of_act {answer : Answer} {stream : Bytes}
    (hact : call.act.run.run c = (.ok answer, d)) (hstream : answer.stream? = some stream) :
    ∃ env dims, (Stream.compress env dims call.source).run.run c = (.ok stream, d) := by
  cases call
  case choose env dims src =>
    have ⟨_, _, _, h⟩ := ContextM.run_bind_eq_ok_iff.mp hact
    have ⟨h, _⟩ := ContextM.run_pure_eq_ok_iff.mp h
    subst h
    contradiction
  case compress env dims src =>
    have ⟨bs, _, hcompress, h⟩ := ContextM.run_bind_eq_ok_iff.mp hact
    obtain ⟨rfl, rfl⟩ := ContextM.run_pure_eq_ok_iff.mp h
    obtain rfl : bs = stream := Option.some.inj hstream
    exact ⟨env, dims, hcompress⟩
  case compressInto env dims src dest =>
    have ⟨out, _, hinto, h⟩ := ContextM.run_bind_eq_ok_iff.mp hact
    obtain ⟨rfl, rfl⟩ := ContextM.run_pure_eq_ok_iff.mp h
    obtain ⟨_, bs, hcompress, _, rfl⟩ := Stream.compressInto_eq_ok_iff.mp hinto
    obtain rfl : bs = stream := by simpa [Answer.stream?] using hstream
    exact ⟨env, dims, hcompress⟩
  case validate dims original bs =>
    have ⟨_, _, h⟩ := ContextM.run_bind_liftExcept_eq_ok_iff.mp hact
    have ⟨h, _⟩ := ContextM.run_pure_eq_ok_iff.mp h
    subst h
    contradiction

theorem Call.tells_act [Codecs.Lawful] (hc : c.Valid) (call : Call) :
    Event.Tells ⟨call, (call.act.run.run c).1, (call.act.run.run c).2⟩ := by
  intro answer stream hanswer hstream hne
  have ⟨env, dims, hcompress⟩ := call.compress_of_act (Prod.ext hanswer rfl) hstream
  exact Stream.describe_of_compress hc hne hcompress

theorem keptBy_of_mem_history (he : e ∈ history c calls) : c.KeptBy e.context := by
  induction calls generalizing c
  case nil => contradiction
  case cons call calls ih =>
    have hcall : c.KeptBy (call.act.run.run c).2 := call.keepsAt_act
    cases List.mem_cons.mp he
    case inl he => exact he ▸ hcall
    case inr he => exact hcall.trans (ih he)

theorem pairwise_history (c : Context) (calls : List Call) :
    (c :: (history c calls).map Event.context).Pairwise Context.KeptBy := by
  induction calls generalizing c
  case nil => exact List.pairwise_singleton _ c
  case cons call calls ih =>
    rw [List.pairwise_cons]
    refine ⟨fun d hd => ?_, ?_⟩
    · have ⟨e, he, hd⟩ := List.mem_map.mp hd
      exact hd ▸ keptBy_of_mem_history he
    · rw [history_cons, List.map_cons]
      exact ih _

theorem tells_of_mem_history [Codecs.Lawful] (hc : c.Valid) (he : e ∈ history c calls) :
    e.Tells := by
  induction calls generalizing c
  case nil => contradiction
  case cons call calls ih =>
    cases List.mem_cons.mp he
    case inl he => exact he ▸ call.tells_act hc
    case inr he => exact ih (call.valid_act hc) he

-- Whichever calls are made and whether or not they fail, later contexts keep what earlier ones have
-- decided.
theorem settled_history [Codecs.Lawful] (c : Context) (calls : List Call) :
    (c :: (history c calls).map Event.context).Pairwise Context.KeptBy ∧
      (c.Valid → ∀ e ∈ history c calls, e.Tells) :=
  ⟨pairwise_history c calls, fun hc _ => tells_of_mem_history hc⟩

def Context.undecided : Context :=
  ⟨.int8, {}, false, none⟩

def Call.mixed : List Call :=
  [.validate .two [1, 2] [], .compressInto {} .two [1, 2] [], .compress {} .two [1, 2],
    .compress { forced? := some (.chain "delta") } .two [3, 4]]

omit [Codecs] in
theorem settled_history_mixed :
    letI := Codecs.stored
    let events := history .undecided Call.mixed
    events.map (fun e => e.outcome.toOption.bind Answer.stream?) =
        [none, none, some [1, 1, 2, 0], some [1, 3, 4, 0]] ∧
      (.undecided :: events.map Event.context).Pairwise Context.KeptBy ∧
      ∀ e ∈ events, e.Tells := by
  let codecs := Codecs.stored
  have := Codecs.stored_lawful
  have hvalid : Context.undecided.Valid := fun _ hc => absurd hc (Option.not_mem_none _)
  have hsettled := settled_history .undecided Call.mixed
  exact ⟨by decide +kernel, hsettled.left, hsettled.right hvalid⟩

end GridPress

import GridPress.CommandLine.Run

namespace GridPress.CommandLine

variable {σ ι α β : Type}

-- The files in the states of a system: the place to which a path leads, and what is in a place.
structure Volume (σ ι : Type) where
  place? : σ → String → Option ι
  file?  : σ → ι → Option Bytes

namespace Volume

variable (v : Volume σ ι)

structure Same (s t : σ) : Prop where
  place : v.place? t = v.place? s
  file  : v.file? t = v.file? s

-- In the state `t`, the file at `path` is what was written to it in `s`, and all others are as they
-- were.
structure Written (path : String) (bs : Bytes) (s t : σ) (i : ι) : Prop where
  place : v.place? s path = some i
  file  : v.file? t i = some bs
  other : ∀ j, j ≠ i → v.file? t j = v.file? s j

-- Whether nothing has changed but the file at a path, if there is one to write to.
def Changes (s t : σ) : Option String → Prop
  | some path => ∃ bs i, v.Written path bs s t i
  | none => v.Same s t

variable {v} {s t u : σ} {path? : Option String}

theorem Same.refl (s : σ) : v.Same s s :=
  ⟨rfl, rfl⟩

theorem Same.trans (h : v.Same s t) (h' : v.Same t u) : v.Same s u :=
  ⟨h'.place.trans h.place, h'.file.trans h.file⟩

theorem Changes.of_same (h : v.Same s t) (hc : v.Changes t u path?) : v.Changes s u path? := by
  cases path?
  case none => exact h.trans hc
  case some path =>
    obtain ⟨bs, i, hplace, hfile, hother⟩ := hc
    exact ⟨bs, i, h.place ▸ hplace, hfile, h.file ▸ hother⟩

theorem Changes.same (hc : v.Changes s t path?) (h : v.Same t u) : v.Changes s u path? := by
  cases path?
  case none => exact Same.trans hc h
  case some path =>
    obtain ⟨bs, i, hplace, hfile, hother⟩ := hc
    exact ⟨bs, i, hplace, h.file ▸ hfile, h.file ▸ hother⟩

end Volume

namespace System

variable (sys : System (StateM σ)) (v : Volume σ ι)

-- Reading and printing change no file, and a write happens as a whole or fails without effect.
structure Atomic : Prop where
  read  : ∀ path s, v.Same s ((sys.read path).run s).2
  write : ∀ path bs s, ∃ t, (∃ e, (sys.write path bs).run s = (.error e, t) ∧ v.Same s t) ∨
    ∃ i, (sys.write path bs).run s = (.ok (), t) ∧ v.Written path bs s t i
  print : ∀ channel line s, v.Same s ((sys.print channel line).run s).2

-- Every line gets through.
def Prints : Prop :=
  ∀ channel line s, ((sys.print channel line).run s).1 = true

-- The state is the one behind a line that did not get through.
def Refused (channel : Channel) (t : σ) : Prop :=
  ∃ line s, (sys.print channel line).run s = (false, t)

end System

section Jobs

variable {sys : System (StateM σ)} {v : Volume σ ι} {path? : Option String} {s t u : σ}

-- How a job ends that may write to a path: if it fails it has changed no file, and if it crashes
-- behind the write, it does so at its summary.
def Ends (sys : System (StateM σ)) (v : Volume σ ι) (path? : Option String) (s t : σ) :
    Except Halt α → Prop
  | .ok _ => v.Changes s t path?
  | .error (.failed _) => v.Same s t
  | .error .crashed => v.Same s t ∨ v.Changes s t path? ∧ sys.Refused .summary t

theorem Ends.of_same {r : Except Halt α} (h : v.Same s t) (hr : Ends sys v path? t u r) :
    Ends sys v path? s u r := by
  cases r
  case ok a => exact Volume.Changes.of_same h hr
  case error halt =>
    cases halt
    case failed failure => exact h.trans hr
    case crashed => exact hr.imp h.trans (And.imp_left (Volume.Changes.of_same h))

-- A job that stops before it writes has changed no file.
theorem Ends.of_error {halt : Halt}
    (h : Ends sys v none s t (.error halt : Except Halt α)) :
    Ends sys v path? s t (.error halt : Except Halt β) := by
  cases halt
  case failed failure => exact h
  case crashed => exact .inl (h.elim id And.left)

namespace Job

-- The outcome of a job, and the state it leaves.
def runAt (x : Job (StateM σ) α) (s : σ) : Except Halt α × σ :=
  x.run.run s

def Has (sys : System (StateM σ)) (v : Volume σ ι) (path? : Option String)
    (x : Job (StateM σ) α) : Prop :=
  ∀ s, Ends sys v path? s (x.runAt s).2 (x.runAt s).1

variable {x : Job (StateM σ) α}

theorem runAt_bind (x : Job (StateM σ) α) (f : α → Job (StateM σ) β) (s : σ) :
    (x >>= f).runAt s = match x.runAt s with
      | (.ok a, t) => (f a).runAt t
      | (.error e, t) => (.error e, t) := by
  unfold runAt
  rw [ExceptT.run_bind, StateT.run_bind]
  cases x.run.run s
  case mk r t => cases r <;> rfl

-- A step of the system.
theorem runAt_liftM (y : StateM σ α) (s : σ) :
    (liftM y : Job (StateM σ) α).runAt s = (.ok (y.run s).1, (y.run s).2) := rfl

theorem runAt_printLine (channel : Channel) (line : String) (s : σ) :
    (printLine sys channel line).runAt s =
      (if ((sys.print channel line).run s).1 then .ok () else .error .crashed,
        ((sys.print channel line).run s).2) := by
  rw [printLine, runAt_bind, runAt_liftM]
  cases ((sys.print channel line).run s).1 <;> rfl

theorem reads_pure (a : α) : Has sys v none (pure a : Job (StateM σ) α) :=
  fun s => Volume.Same.refl s

theorem has_failed (f : Failure) : Has sys v path? (throw (.failed f) : Job (StateM σ) α) :=
  fun s => Volume.Same.refl s

theorem has_crashed : Has sys v path? (throw .crashed : Job (StateM σ) α) :=
  fun s => .inl (Volume.Same.refl s)

-- Behind a step that fails, no other is taken.
theorem has_failed_bind (e : Failure) (f : α → Job (StateM σ) β) :
    Has sys v path? (throw (.failed e) >>= f) :=
  fun s => Volume.Same.refl s

theorem has_bind {f : α → Job (StateM σ) β} (hx : x.Has sys v none)
    (hf : ∀ a, (f a).Has sys v path?) : (x >>= f).Has sys v path? := by
  intro s
  have hx := hx s
  rw [runAt_bind]
  cases hrun : x.runAt s
  case mk r t =>
    rw [hrun] at hx
    cases r
    case error halt => exact hx.of_error
    case ok a => exact (hf a t).of_same hx

theorem reads_attempt (doing : String) (r : Result α) :
    Has sys v none (attempt doing r : Job (StateM σ) α) := by
  cases r
  case ok a => exact reads_pure a
  case error e => cases e <;> first | exact has_crashed | exact has_failed _

theorem reads_expect (r : Result α) : Has sys v none (expect r : Job (StateM σ) α) := by
  cases r
  case ok a => exact reads_pure a
  case error e => cases e <;> first | exact has_crashed | exact has_failed _

variable (hsys : sys.Atomic v)

include hsys

-- Lines change no file, and nothing can happen to them but that one of them is refused.
theorem runAt_print (channel : Channel) (lines : List String) (s : σ) :
    ∃ t, v.Same s t ∧ ((lines.forM (printLine sys channel)).runAt s = (.ok (), t) ∨
      (lines.forM (printLine sys channel)).runAt s = (.error .crashed, t) ∧
        sys.Refused channel t) := by
  induction lines generalizing s
  case nil => exact ⟨s, .refl s, .inl rfl⟩
  case cons line lines ih =>
    have hsame := hsys.print channel line s
    simp only [List.forM_eq_forM, List.forM_cons, runAt_bind, runAt_printLine] at ih ⊢
    cases hprint : (sys.print channel line).run s
    case mk through t =>
      rw [hprint] at hsame
      cases through
      case false => exact ⟨t, hsame, .inr ⟨rfl, line, s, hprint⟩⟩
      case true =>
        have ⟨u, hsame', h⟩ := ih t
        exact ⟨u, hsame.trans hsame', h⟩

theorem reads_report (lines : List String) : Has sys v none (report sys lines) := by
  intro s
  obtain ⟨t, hsame, h | ⟨h, _⟩⟩ := runAt_print hsys .report lines s
  · exact report.eq_def sys lines ▸ h ▸ hsame
  · exact report.eq_def sys lines ▸ h ▸ .inl hsame

theorem has_bind_summarize (hx : x.Has sys v path?) (lines : α → List String) :
    (x >>= fun a => summarize sys (lines a)).Has sys v path? := by
  intro s
  have hx := hx s
  rw [runAt_bind]
  cases hrun : x.runAt s
  case mk r t =>
    rw [hrun] at hx
    cases r
    case error halt => cases halt <;> exact hx
    case ok a =>
      dsimp only
      obtain ⟨u, hsame, h | ⟨h, hrefused⟩⟩ := runAt_print hsys .summary (lines a) t
      · rw [summarize, h]
        exact hx.same hsame
      · rw [summarize, h]
        exact .inr ⟨hx.same hsame, hrefused⟩

theorem reads_offer (lines : List String) : Has sys v none (offer sys lines) := by
  induction lines
  case nil => exact reads_pure ()
  case cons line lines ih =>
    rw [offer, List.forM_eq_forM, List.forM_cons]
    exact has_bind (fun s => hsys.print .report line s) fun _ => ih

end Job

open Job

theorem reads_parsePath (kind path : String) (r : Except File.Fault α) :
    Has sys v none (parsePath kind path r : Job (StateM σ) α) := by
  cases r
  case ok a => exact reads_pure a
  case error e => exact has_failed _

variable (hsys : sys.Atomic v)

include hsys

theorem reads_checkStream [Codecs] (c : Context) (a : File.Array) (stream : Bytes) :
    Has sys v none (checkStream sys c a stream) := by
  refine has_bind (reads_expect _) fun r => has_bind (reads_report hsys _) fun _ => ?_
  cases r.passed
  case false => exact has_failed _
  case true => exact reads_pure _

theorem reads_readPath (kind path : String) : Has sys v none (readPath sys kind path) := by
  refine has_bind ?_ fun r => ?_
  · exact fun s => hsys.read path s
  · cases r
    case error => exact has_failed _
    case ok => exact reads_pure _

theorem reads_readArray (t : Datatype) (path : String) :
    Has sys v none (readArray sys t path) :=
  has_bind (reads_readPath hsys _ _) fun _ => reads_parsePath _ _ _

theorem reads_readCompressed (path : String) : Has sys v none (readCompressed sys path) :=
  has_bind (reads_readPath hsys _ _) fun _ => reads_parsePath _ _ _

theorem has_writePath (path : String) (bs : Bytes) :
    Has sys v (some path) (writePath sys path bs) := by
  intro s
  rw [writePath, runAt_bind, runAt_liftM]
  obtain ⟨t, ⟨e, h, hsame⟩ | ⟨i, h, hwritten⟩⟩ := hsys.write path bs s
  · rw [h]
    exact hsame
  · rw [h]
    exact ⟨bs, i, hwritten⟩

variable [Codecs]

theorem has_compress (env : Environment) (input output : String) (r : Requirements)
    (check : Bool) : Has sys v (some output) (compress sys env input output r check) := by
  refine has_bind (reads_readArray hsys _ _) fun array => ?_
  refine has_bind (reads_attempt _ _) fun context => ?_
  refine has_bind (reads_attempt _ _) fun stream => ?_
  cases check
  case false => exact has_bind_summarize hsys (has_writePath hsys _ _) _
  case true =>
    refine has_bind (reads_checkStream hsys _ _ _) fun _ => ?_
    exact has_bind_summarize hsys (has_writePath hsys _ _) _

theorem has_decompress (input output : String) :
    Has sys v (some output) (decompress sys input output) := by
  refine has_bind (reads_readCompressed hsys _) fun c => ?_
  refine has_bind (reads_attempt _ _) fun data => ?_
  exact has_bind_summarize hsys (has_writePath hsys _ _) _

theorem reads_validate (original compressed : String) (r : Requirements) :
    Has sys v none (validate sys original compressed r) := by
  refine has_bind (reads_readCompressed hsys _) fun c => ?_
  refine has_bind (reads_readArray hsys _ _) fun array => ?_
  split
  case isTrue => exact has_failed_bind _ _
  case isFalse =>
    refine has_bind (reads_attempt _ _) fun context => ?_
    refine has_bind (reads_expect _) fun result => ?_
    refine has_bind (reads_report hsys _) fun _ => has_bind (reads_report hsys _) fun _ => ?_
    cases result.passed
    case false => exact has_failed _
    case true => exact reads_pure _

theorem reads_inspect (file : String) : Has sys v none (inspect sys file) := by
  refine has_bind (reads_readCompressed hsys _) fun c => ?_
  refine has_bind (reads_attempt _ _) fun d => ?_
  exact has_bind (reads_report hsys _) fun _ => reads_report hsys _

end Jobs

-- The path that a request writes to, if any.
def Request.output? : Request → Option String
  | .run (.compress _ output _ _) => some output
  | .run (.decompress _ output) => some output
  | _ => none

section Runs

variable {sys : System (StateM σ)} {v : Volume σ ι} [Codecs]

theorem has_execute (hsys : sys.Atomic v) (env : Environment) (request : Request) :
    Job.Has sys v request.output? (request.execute sys env) := by
  cases request
  case run command =>
    cases command
    case compress input output r check => exact has_compress hsys env input output r check
    case decompress input output => exact has_decompress hsys input output
    case validate original compressed r => exact reads_validate hsys original compressed r
    case inspect file => exact reads_inspect hsys file
    case list => exact Job.reads_report hsys _
  case version => exact Job.reads_offer hsys _
  case help => exact Job.reads_offer hsys _

-- A run in a sequence of runs.
structure Run (σ : Type) where
  args    : List String
  before  : σ
  outcome : Outcome
  after   : σ

-- The runs, each of which finds the files that the one before it left.
def history (sys : System (StateM σ)) : σ → List (Environment × List String) → List (Run σ)
  | _, [] => []
  | s, (env, args) :: calls =>
    let r := (run sys env args).run s
    ⟨args, s, r.1, r.2⟩ :: history sys r.2 calls

variable {s : σ} {calls : List (Environment × List String)} {r : Run σ}

-- A run that fails has changed nothing. One that succeeds has served a request, and has changed
-- nothing but the file at the path that the request writes to.
structure Run.AllOrNothing (r : Run σ) (v : Volume σ ι) : Prop where
  failure : r.outcome.exitCode ≠ 0 → v.Same r.before r.after
  success : r.outcome.exitCode = 0 → ∃ request, Request.ofArguments? r.args = some request ∧
    v.Changes r.before r.after request.output?

-- A run that crashed at a line of its summary, when its output was written.
structure Run.CutShort (r : Run σ) (sys : System (StateM σ)) (v : Volume σ ι) : Prop where
  outcome : r.outcome = .crashed
  refused : sys.Refused .summary r.after
  changes : ∃ request path, Request.ofArguments? r.args = some request ∧
    request.output? = some path ∧ v.Changes r.before r.after (some path)

omit [Codecs] in
theorem Run.allOrNothing_of_same (hcode : r.outcome.exitCode ≠ 0)
    (hsame : v.Same r.before r.after) : r.AllOrNothing v :=
  ⟨fun _ => hsame, fun hzero => absurd hzero hcode⟩

-- How a request ends tells how the run ends.
theorem run_of_request (sys : System (StateM σ)) {request : Request} {args : List String}
    (hrequest : Request.ofArguments? args = some request) (env : Environment) (s : σ) :
    (run sys env args).run s = match (request.execute sys env).runAt s with
      | (.ok _, t) => (.finished, t)
      | (.error (.failed failure), t) => (.failed failure, t)
      | (.error .crashed, t) => (.crashed, t) := by
  unfold run Job.runAt
  rw [hrequest]
  dsimp only
  rw [StateT.run_bind]
  cases (request.execute sys env).run.run s
  case mk r t => rcases r with (_ | _) | _ <;> rfl

theorem allOrNothing_or_cutShort_run (hsys : sys.Atomic v) (env : Environment)
    (args : List String) (s : σ) :
    let r : Run σ := ⟨args, s, ((run sys env args).run s).1, ((run sys env args).run s).2⟩
    r.AllOrNothing v ∨ r.CutShort sys v := by
  intro r
  cases hrequest : Request.ofArguments? args
  case none =>
    have hrun : (run sys env args).run s = (.malformed, s) := by
      unfold run
      rw [hrequest]
      rfl
    simp only [r, hrun]
    exact .inl (Run.allOrNothing_of_same nofun (.refl s))
  case some request =>
    have hexecute := has_execute hsys env request s
    have hrun := run_of_request sys hrequest env s
    simp only [r, hrun]
    cases hjob : (request.execute sys env).runAt s
    case mk result t =>
      rw [hjob] at hexecute
      rcases result with (failure | _) | _
      · exact .inl (Run.allOrNothing_of_same nofun hexecute)
      · cases hexecute
        case inl hsame => exact .inl (Run.allOrNothing_of_same nofun hsame)
        case inr h =>
          obtain ⟨hchanges, hrefused⟩ := h
          cases houtput : request.output?
          case none =>
            rw [houtput] at hchanges
            exact .inl (Run.allOrNothing_of_same nofun hchanges)
          case some path =>
            rw [houtput] at hchanges
            exact .inr ⟨rfl, hrefused, request, path, hrequest, houtput, hchanges⟩
      · exact .inl ⟨fun h => absurd rfl h, fun _ => ⟨request, hrequest, hexecute⟩⟩

theorem allOrNothing_or_cutShort (hsys : sys.Atomic v) (hr : r ∈ history sys s calls) :
    r.AllOrNothing v ∨ r.CutShort sys v := by
  induction calls generalizing s
  case nil => contradiction
  case cons call calls ih =>
    cases List.mem_cons.mp hr
    case inl hr => exact hr ▸ allOrNothing_or_cutShort_run hsys call.1 call.2 s
    case inr hr => exact ih hr

omit [Codecs] in
-- No summary is cut short where all lines get through.
theorem Run.not_cutShort (hprints : sys.Prints) : ¬r.CutShort sys v := by
  intro h
  obtain ⟨line, s, hrefused⟩ := h.refused
  exact nomatch (congrArg Prod.fst hrefused).symm.trans (hprints .summary line s)

-- The place that a run has written to, if it may have written anything.
def Run.filled? (r : Run σ) (v : Volume σ ι) : Option ι :=
  if r.outcome = .finished ∨ r.outcome = .crashed then
    ((Request.ofArguments? r.args).bind Request.output?).bind (v.place? r.before)
  else
    none

omit [Codecs] in
theorem file_eq_of_changes {path? : Option String} {t u : σ} {i : ι}
    (hchanges : v.Changes t u path?) (hi : path?.bind (v.place? t) ≠ some i) :
    v.file? u i = v.file? t i := by
  cases path?
  case none => rw [Volume.Same.file hchanges]
  case some path =>
    obtain ⟨bs, j, hwritten⟩ := hchanges
    rw [Option.bind_some, hwritten.place] at hi
    exact hwritten.other i fun hij => hi (congrArg some hij.symm)

omit [Codecs] in
theorem file_eq_of_filled {i : ι} (h : r.AllOrNothing v ∨ r.CutShort sys v)
    (hi : r.filled? v ≠ some i) : v.file? r.after i = v.file? r.before i := by
  unfold Run.filled? at hi
  cases h
  case inl h =>
    cases houtcome : r.outcome
    case finished =>
      obtain ⟨request, hrequest, hchanges⟩ := h.success (by rw [houtcome]; rfl)
      rw [if_pos (.inl houtcome), hrequest, Option.bind_some] at hi
      exact file_eq_of_changes hchanges hi
    all_goals rw [(h.failure (by simp [houtcome, Outcome.exitCode])).file]
  case inr h =>
    obtain ⟨request, path, hrequest, houtput, hchanges⟩ := h.changes
    rw [if_pos (.inr h.outcome), hrequest, Option.bind_some, houtput] at hi
    exact file_eq_of_changes hchanges hi

-- The files that a sequence of runs leaves.
def filesAfter (sys : System (StateM σ)) (s : σ) (calls : List (Environment × List String)) : σ :=
  calls.foldl (fun s call => ((run sys call.1 call.2).run s).2) s

theorem file_filesAfter {i : ι} (hsys : sys.Atomic v)
    (hi : ∀ r ∈ history sys s calls, r.filled? v ≠ some i) :
    v.file? (filesAfter sys s calls) i = v.file? s i := by
  induction calls generalizing s
  case nil => rfl
  case cons call calls ih =>
    obtain ⟨env, args⟩ := call
    have hfirst := file_eq_of_filled (allOrNothing_or_cutShort_run hsys env args s)
      (hi _ List.mem_cons_self)
    exact (ih fun r hr => hi r (List.mem_cons_of_mem _ hr)).trans hfirst

-- Whichever runs there are, each of them changes its output or nothing, unless it is cut short,
-- which takes a line that cannot be printed. Files that none of them may have written to are in the
-- end what they were.
theorem history_atomic (hsys : sys.Atomic v) (s : σ) (calls : List (Environment × List String)) :
    (∀ r ∈ history sys s calls, r.AllOrNothing v ∨ r.CutShort sys v) ∧
      (sys.Prints → ∀ r ∈ history sys s calls, r.AllOrNothing v) ∧
      ∀ i, (∀ r ∈ history sys s calls, r.filled? v ≠ some i) →
        v.file? (filesAfter sys s calls) i = v.file? s i := by
  refine ⟨fun r hr => allOrNothing_or_cutShort hsys hr, fun hprints r hr => ?_,
    fun _ => file_filesAfter hsys⟩
  exact (allOrNothing_or_cutShort hsys hr).resolve_right (Run.not_cutShort hprints)

end Runs

namespace Files

theorem write_eq_error {path : String} {fs : Files} {e : PathFault} (bs : Bytes)
    (h : fs.locate .writing path = .error e) : fs.write path bs = .error e := by
  rw [write, h]
  rfl

theorem write_eq_ok {path way : String} {fs : Files} (bs : Bytes)
    (h : fs.locate .writing path = .ok way) : fs.write path bs = .ok (fs.put way bs) := by
  rw [write, h]
  rfl

-- The integers 5 and 7 in a file, and a file that is not touched.
def original : Files :=
  ⟨[("a", [1, 2, 0, 0, 0, 0, 0, 0, 0, 5, 7]), ("notes", [])]⟩

end Files

namespace Machine

def volume : Volume Machine String where
  place? s path := (s.files.locate .writing path).toOption
  file? s       := s.files.find?

theorem system_atomic (isOpen : Channel → Bool) : (system isOpen).Atomic volume where
  read _ s := .refl s
  write path bs s := by
    cases hlocate : s.files.locate .writing path
    case error e =>
      refine ⟨s, .inl ⟨e, ?_, .refl s⟩⟩
      simp only [system, StateT.run, Files.write_eq_error bs hlocate]
    case ok way =>
      refine ⟨{ s with files := s.files.put way bs }, .inr ⟨way, ?_, ?_⟩⟩
      · simp only [system, StateT.run, Files.write_eq_ok bs hlocate]
      · exact {
          place := congrArg Except.toOption hlocate
          file  := s.files.find?_put way bs
          other := fun _ hne => s.files.find?_put_of_ne bs hne }
  print channel line s := by
    simp only [system, StateT.run]
    split
    case isTrue => cases channel <;> exact ⟨rfl, rfl⟩
    case isFalse => exact .refl s

theorem system_prints : (system fun _ => true).Prints := by
  intro channel line s
  cases channel <;> rfl

end Machine

-- Compression, a check that fails, decompression over the original, inspection of what was written
-- first, and something that is no command.
def mixedCalls : List (Environment × List String) :=
  [({}, ["compress", "a", "b", "-t", "int8"]),
    ({}, ["compress", "a", "./b", "-tint8", "--significant-bits=8", "--check"]),
    ({}, ["decompress", "b", "a"]),
    ({}, ["inspect", "b"]),
    ({}, ["overwrite", "a"])]

theorem history_atomic_mixed :
    let sys := Machine.system fun _ => true
    let runs := history sys { files := .original } mixedCalls
    runs.map (·.outcome.exitCode) = [0, 1, 0, 0, 2] ∧
      (∀ r ∈ runs, r.AllOrNothing Machine.volume) ∧
      Machine.volume.file? (filesAfter sys { files := .original } mixedCalls) "notes" =
        some [] := by
  have ⟨_, hruns, hfiles⟩ :=
    history_atomic (Machine.system_atomic fun _ => true) { files := .original } mixedCalls
  exact ⟨by decide +kernel, hruns Machine.system_prints, hfiles "notes" (by decide +kernel)⟩

-- Compression that cannot print its summary has written its output all the same.
theorem not_history_atomic :
    ¬∀ (sys : System (StateM Machine)), sys.Atomic Machine.volume →
      ∀ (s : Machine) (calls : List (Environment × List String)),
        ∀ r ∈ history sys s calls, r.AllOrNothing Machine.volume := by
  intro hall
  let sys := Machine.system fun channel => channel = .report
  let call : Environment × List String := ({}, ["compress", "a", "b", "-t", "int8"])
  have hrun := hall sys (Machine.system_atomic _) { files := .original } [call] _
    List.mem_cons_self
  have hsame := hrun.failure (by decide +kernel)
  exact absurd (congrFun hsame.file "b") (by decide +kernel)

end GridPress.CommandLine

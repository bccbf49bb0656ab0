import Dcfpe.Lib.Machine
import Dcfpe.Service.Compiler
import Dcfpe.Service.DeviceImpl
import Dcfpe.Service.Project

/-!
# The two users of a compiler

`DPECompiler` compiles the source, the worker and the sink of a project, one after the other.  A
device compiles the worker it is sent.  Both get their compilers from `CreateCompiler`, which may
have none, and both are called back when a compilation has finished, which an interpreter does
without a process.

`DPECompiler` looks at the process only if there is one, but at the compiler only for the source; a
device is the other way round.  `no_null_call_iff` says for which projects and messages that
matters.

The functions are those of `dpe_compiler.cc` and of the part of `dpe_device_impl.cc` that compiles.
A method called on a null pointer ends the run.
-/

set_option autoImplicit false

namespace Dcfpe

/-! ## DPECompiler -/

inductive DPECompileState where
  | idle
  | compilingSource
  | compilingWorker
  | compilingSink
  | success
  | error
  deriving DecidableEq, Repr

structure DPECompiler where
  state : DPECompileState := .idle
  dpeProject : DPEProject := {}
  /-- The job whose `OnCompileFinished` is still to come. -/
  compiling : Option CompileJob := none
  /-- `ScheduleNextStep` is posted. -/
  posted : Bool := false
  /-- The calls of the host: `OnCompileSuccess` or `OnCompileError`. -/
  host : List Bool := []
  /-- `StartCompile` was called on a null compiler. -/
  nullCall : Bool := false
  deriving DecidableEq, Repr

section Pipeline

variable (extension : String → String) (compilers : List CompilerConfiguration)

namespace DPECompiler

/-- `MakeNewCompiler` for the job of a file. -/
def makeNewCompiler (file : String) : Option Compiler :=
  createCompiler extension compilers "" "" [file]

/-- `StartCompile`; its result is whether it has started one. -/
def startCompile (project : Option DPEProject) (started : Bool) (s : DPECompiler) : DPECompiler :=
  if s.state ≠ .idle ∧ s.state ≠ .success ∧ s.state ≠ .error then s
  else
    match project with
    | none => s
    | some project =>
      let s := { s with dpeProject := project }
      match makeNewCompiler extension compilers project.sourcePath with
      | none => { s with state := .error }
      | some compiler =>
        let (done, job) :=
          compiler.startCompile extension started { sourceFiles := [project.sourcePath] }
        if !done then { s with state := .error }
        else { s with state := .compilingSource, compiling := some job }

def onCompileFinished (exitCode : Int) (exitReason : ExitReason) (job : CompileJob)
    (s : DPECompiler) : DPECompiler :=
  if job.compileProcess ∧ (exitCode ≠ 0 ∨ exitReason ≠ .exit) then
    { s with state := .error, host := s.host ++ [false] }
  else { s with posted := true }

/-- A case of the `switch` that compiles the next file. -/
def compileNext (file : String) (next : DPECompileState) (started : Bool) (s : DPECompiler) :
    DPECompiler :=
  match makeNewCompiler extension compilers file with
  | none => { s with nullCall := true }
  | some compiler =>
    let (done, job) := compiler.startCompile extension started { sourceFiles := [file] }
    if !done then { s with state := .error }
    else { s with state := next, compiling := some job }

/-- The `switch` of `ScheduleNextStepImpl`. -/
def advance (started : Bool) (s : DPECompiler) : DPECompiler :=
  match s.state with
  | .compilingSource =>
    s.compileNext extension compilers s.dpeProject.workerPath .compilingWorker started
  | .compilingWorker =>
    s.compileNext extension compilers s.dpeProject.sinkPath .compilingSink started
  | .compilingSink => { s with state := .success }
  | _ => s

/-- The calls of the host after it. -/
def report (s : DPECompiler) : DPECompiler :=
  if s.nullCall then s
  else if s.state = .success then { s with host := s.host ++ [true] }
  else if s.state = .error then { s with host := s.host ++ [false] }
  else s

def scheduleNextStepImpl (started : Bool) (s : DPECompiler) : DPECompiler :=
  (s.advance extension compilers started).report

inductive Action where
  /-- `StartCompile`; the compile process starts or does not. -/
  | start (project : Option DPEProject) (started : Bool)
  /-- The compilation has finished; the exit is that of its process. -/
  | finished (exitCode : Int) (exitReason : ExitReason)
  /-- The UI thread runs `ScheduleNextStep`. -/
  | next (started : Bool)
  deriving DecidableEq, Repr

def step : Machine DPECompiler Action
  | s, .start project started =>
    if s.nullCall then none else some (s.startCompile extension compilers project started)
  | s, .finished exitCode exitReason =>
    if s.nullCall then none
    else
      match s.compiling with
      | some job => some ({ s with compiling := none }.onCompileFinished exitCode exitReason job)
      | none => none
  | s, .next started =>
    if s.nullCall then none
    else if s.posted then
      some ({ s with posted := false }.scheduleNextStepImpl extension compilers started)
    else none

/-- Whichever files of the project come to be compiled after the first have a compiler. -/
def PipelineOk (project : DPEProject) : Prop :=
  Compilable extension compilers "" project.sourcePath →
    HasCompiler extension compilers "" project.workerPath ∧
      (Compilable extension compilers "" project.workerPath →
        HasCompiler extension compilers "" project.sinkPath)

end DPECompiler

namespace DPECompiler

/-! ## The files that come to be compiled -/

variable {extension} {compilers}

theorem compilable_of_startCompile {file : String} {c : Compiler} {started : Bool}
    {job : CompileJob} (hc : makeNewCompiler extension compilers file = some c)
    (hstart : c.startCompile extension started { sourceFiles := [file] } = (true, job)) :
    Compilable extension compilers "" file :=
  ⟨c, hc, (Compiler.startCompile_spec extension hstart).1⟩

/-- The projects have `P`, and the files that have come to be compiled could be. -/
structure Inv (extension : String → String) (compilers : List CompilerConfiguration)
    (P : DPEProject → Prop) (s : DPECompiler) : Prop where
  safe : s.nullCall = false
  source : s.state = .compilingSource →
    P s.dpeProject ∧ Compilable extension compilers "" s.dpeProject.sourcePath
  worker : s.state = .compilingWorker →
    P s.dpeProject ∧ Compilable extension compilers "" s.dpeProject.sourcePath ∧
      Compilable extension compilers "" s.dpeProject.workerPath

theorem hasCompiler_iff {file : String} :
    HasCompiler extension compilers "" file ↔
      ∃ c, makeNewCompiler extension compilers file = some c :=
  Option.isSome_iff_exists

/-- What `StartCompile` can do. -/
theorem startCompile_cases (extension : String → String) (compilers : List CompilerConfiguration)
    (project : Option DPEProject) (started : Bool) (s : DPECompiler) :
    s.startCompile extension compilers project started = s ∨
      ∃ p ∈ project,
        s.startCompile extension compilers project started =
            { s with dpeProject := p, state := .error } ∨
          ∃ job, s.startCompile extension compilers project started =
              { s with dpeProject := p, state := .compilingSource, compiling := some job } ∧
            Compilable extension compilers "" p.sourcePath := by
  unfold startCompile
  split
  · exact .inl rfl
  · cases project with
    | none => exact .inl rfl
    | some p =>
      refine .inr ⟨p, rfl, ?_⟩
      cases hc : makeNewCompiler extension compilers p.sourcePath with
      | none =>
        left
        simp only [hc]
      | some c =>
        simp only [hc]
        split
        · exact .inl rfl
        · next hdone =>
          exact .inr ⟨_, rfl, compilable_of_startCompile hc (Prod.ext (by simpa using hdone) rfl)⟩

/-- What a case of the `switch` can do. -/
theorem compileNext_cases (extension : String → String) (compilers : List CompilerConfiguration)
    (file : String) (next : DPECompileState) (started : Bool) (s : DPECompiler) :
    s.compileNext extension compilers file next started = { s with nullCall := true } ∧
        ¬ HasCompiler extension compilers "" file ∨
      s.compileNext extension compilers file next started = { s with state := .error } ∨
      ∃ job, s.compileNext extension compilers file next started =
          { s with state := next, compiling := some job } ∧
        Compilable extension compilers "" file := by
  unfold compileNext
  cases hc : makeNewCompiler extension compilers file with
  | none =>
    refine .inl ⟨rfl, fun hhas => ?_⟩
    obtain ⟨c, hsome⟩ := hasCompiler_iff.1 hhas
    rw [hc] at hsome
    cases hsome
  | some c =>
    simp only
    split
    · exact .inr (.inl rfl)
    · next hdone =>
      exact .inr (.inr
        ⟨_, rfl, compilable_of_startCompile hc (Prod.ext (by simpa using hdone) rfl)⟩)

theorem inv_startCompile {P : DPEProject → Prop} {s : DPECompiler}
    (h : Inv extension compilers P s) {project : Option DPEProject} (hP : ∀ p ∈ project, P p)
    (started : Bool) :
    Inv extension compilers P (s.startCompile extension compilers project started) := by
  rcases startCompile_cases extension compilers project started s with
    heq | ⟨p, hp, heq | ⟨job, heq, hcompilable⟩⟩
  · rw [heq]
    exact h
  · rw [heq]
    exact ⟨h.safe, by simp, by simp⟩
  · rw [heq]
    exact ⟨h.safe, fun _ => ⟨hP p hp, hcompilable⟩, by simp⟩

theorem inv_onCompileFinished {P : DPEProject → Prop} {s : DPECompiler}
    (h : Inv extension compilers P s) (exitCode : Int) (exitReason : ExitReason)
    (job : CompileJob) :
    Inv extension compilers P
      ({ s with compiling := none }.onCompileFinished exitCode exitReason job) := by
  rw [onCompileFinished]
  split
  · exact ⟨h.safe, by simp, by simp⟩
  · exact ⟨h.safe, h.source, h.worker⟩

theorem report_eq (s : DPECompiler) : ∃ host, s.report = { s with host := host } := by
  rw [report]
  split
  · exact ⟨_, rfl⟩
  · split
    · exact ⟨_, rfl⟩
    · split <;> exact ⟨_, rfl⟩

theorem inv_advance {P : DPEProject → Prop} {s : DPECompiler} (h : Inv extension compilers P s)
    (hok : ∀ p, P p → PipelineOk extension compilers p) (started : Bool) :
    Inv extension compilers P (s.advance extension compilers started) := by
  rw [advance]
  split
  · next hstate =>
    obtain ⟨hP, hsource⟩ := h.source hstate
    rcases compileNext_cases extension compilers
        s.dpeProject.workerPath .compilingWorker started s with
      ⟨-, hno⟩ | heq | ⟨job, heq, hworker⟩
    · exact absurd (hok _ hP hsource).1 hno
    · rw [heq]
      exact ⟨h.safe, by simp, by simp⟩
    · rw [heq]
      exact ⟨h.safe, by simp, fun _ => ⟨hP, hsource, hworker⟩⟩
  · next hstate =>
    obtain ⟨hP, hsource, hworker⟩ := h.worker hstate
    rcases compileNext_cases extension compilers
        s.dpeProject.sinkPath .compilingSink started s with
      ⟨-, hno⟩ | heq | ⟨job, heq, -⟩
    · exact absurd ((hok _ hP hsource).2 hworker) hno
    · rw [heq]
      exact ⟨h.safe, by simp, by simp⟩
    · rw [heq]
      exact ⟨h.safe, by simp, by simp⟩
  · exact ⟨h.safe, by simp, by simp⟩
  · exact h

theorem inv_step {P : DPEProject → Prop} {s t : DPECompiler} {a : Action}
    (h : Inv extension compilers P s) (hok : ∀ p, P p → PipelineOk extension compilers p)
    (hP : ∀ p started, a = .start (some p) started → P p)
    (hs : step extension compilers s a = some t) : Inv extension compilers P t := by
  cases a with
  | start project started =>
    rw [step, if_neg (by simp [h.safe]), Option.some_inj] at hs
    subst hs
    refine inv_startCompile h (fun p hp => ?_) started
    exact hP p started (by rw [Option.mem_def.1 hp])
  | finished exitCode exitReason =>
    rw [step, if_neg (by simp [h.safe])] at hs
    split at hs
    · obtain rfl := Option.some_inj.1 hs
      exact inv_onCompileFinished h exitCode exitReason _
    · cases hs
  | next started =>
    rw [step, if_neg (by simp [h.safe])] at hs
    split at hs
    · obtain rfl := Option.some_inj.1 hs
      obtain ⟨host, hreport⟩ :=
        report_eq (({ s with posted := false } : DPECompiler).advance extension compilers started)
      have hadvance := inv_advance (s := { s with posted := false })
        ⟨h.safe, h.source, h.worker⟩ hok started
      rw [scheduleNextStepImpl, hreport]
      exact ⟨hadvance.safe, hadvance.source, hadvance.worker⟩
    · cases hs

/-! ## The runs that call the null compiler -/

theorem step_start {p : DPEProject} (h : Compilable extension compilers "" p.sourcePath) :
    ∃ job, step extension compilers {} (.start (some p) true) =
      some { dpeProject := p, state := .compilingSource, compiling := some job } := by
  obtain ⟨c, hc, hstart⟩ := h
  cases hjob : c.startCompile extension true { sourceFiles := [p.sourcePath] } with
  | mk done job =>
    rw [hjob] at hstart
    subst hstart
    refine ⟨job, ?_⟩
    have hmake : makeNewCompiler extension compilers p.sourcePath = some c := hc
    simp [step, startCompile, hmake, hjob]

theorem step_finished {s : DPECompiler} {job : CompileJob} (hsafe : s.nullCall = false)
    (hjob : s.compiling = some job) :
    step extension compilers s (.finished 0 .exit) =
      some { s with compiling := none, posted := true } := by
  simp [step, hsafe, hjob, onCompileFinished]

theorem compileNext_eq_null {file : String} (h : ¬ HasCompiler extension compilers "" file)
    (next : DPECompileState) (started : Bool) (s : DPECompiler) :
    s.compileNext extension compilers file next started = { s with nullCall := true } := by
  rw [hasCompiler_iff] at h
  unfold compileNext
  cases hc : makeNewCompiler extension compilers file with
  | none => rfl
  | some c => exact absurd ⟨c, hc⟩ h

theorem compileNext_eq_compiling {file : String} (h : Compilable extension compilers "" file)
    (next : DPECompileState) (s : DPECompiler) :
    ∃ job, s.compileNext extension compilers file next true =
      { s with state := next, compiling := some job } := by
  obtain ⟨c, hc, hstart⟩ := h
  have hmake : makeNewCompiler extension compilers file = some c := hc
  cases hjob : c.startCompile extension true { sourceFiles := [file] } with
  | mk done job =>
    rw [hjob] at hstart
    subst hstart
    refine ⟨job, ?_⟩
    simp only [compileNext, hmake, hjob, Bool.not_true, Bool.false_eq_true, if_false]

/-- The compilation of the source has finished, and it is the worker's turn. -/
theorem run_source {p : DPEProject} (h : Compilable extension compilers "" p.sourcePath) :
    (step extension compilers).run {} [.start (some p) true, .finished 0 .exit] =
      some { dpeProject := p, state := .compilingSource, posted := true } := by
  obtain ⟨job, hstart⟩ := step_start h
  exact Machine.run_cons.2 ⟨_, hstart, Machine.run_cons.2 ⟨_, step_finished rfl rfl, rfl⟩⟩

/-- With no compiler for the worker, its turn is a call on the null pointer. -/
theorem run_worker_null {p : DPEProject} (h : Compilable extension compilers "" p.sourcePath)
    (hno : ¬ HasCompiler extension compilers "" p.workerPath) :
    ∃ t, (step extension compilers).run {}
        ([.start (some p) true, .finished 0 .exit] ++ [.next true]) = some t ∧
      t.nullCall = true := by
  have hnext : step extension compilers
      { dpeProject := p, state := .compilingSource, posted := true } (.next true) =
      some { dpeProject := p, state := .compilingSource, nullCall := true } := by
    simp [step, scheduleNextStepImpl, advance, compileNext_eq_null hno, report]
  exact ⟨_, Machine.run_append.2 ⟨_, run_source h, Machine.run_cons.2 ⟨_, hnext, rfl⟩⟩, rfl⟩

/-- With none for the sink, the same happens after the worker. -/
theorem run_sink_null {p : DPEProject} (h : Compilable extension compilers "" p.sourcePath)
    (hworker : Compilable extension compilers "" p.workerPath)
    (hno : ¬ HasCompiler extension compilers "" p.sinkPath) :
    ∃ t, (step extension compilers).run {}
        ([.start (some p) true, .finished 0 .exit] ++
          [.next true, .finished 0 .exit, .next true]) = some t ∧
      t.nullCall = true := by
  obtain ⟨job, hcompile⟩ := compileNext_eq_compiling hworker .compilingWorker
    { dpeProject := p, state := .compilingSource }
  have hnext : step extension compilers
      { dpeProject := p, state := .compilingSource, posted := true } (.next true) =
      some { dpeProject := p, state := .compilingWorker, compiling := some job } := by
    simp [step, scheduleNextStepImpl, advance, hcompile, report]
  have hlast : step extension compilers
      { dpeProject := p, state := .compilingWorker, posted := true } (.next true) =
      some { dpeProject := p, state := .compilingWorker, nullCall := true } := by
    simp [step, scheduleNextStepImpl, advance, compileNext_eq_null hno, report]
  have hrest := Machine.run_cons.2 ⟨_, step_finished (s :=
    { dpeProject := p, state := .compilingWorker, compiling := some job }) rfl rfl,
    Machine.run_cons.2 ⟨_, hlast, Machine.run_nil _⟩⟩
  exact ⟨_, Machine.run_append.2 ⟨_, run_source h, Machine.run_cons.2 ⟨_, hnext, hrest⟩⟩, rfl⟩

/-- All runs with projects that have `P` are safe exactly if these projects are in order. -/
theorem safe_iff (P : DPEProject → Prop) :
    (∀ as t, (∀ p started, .start (some p) started ∈ as → P p) →
        (step extension compilers).run {} as = some t → t.nullCall = false) ↔
      ∀ p, P p → PipelineOk extension compilers p := by
  constructor
  · intro h p hp hsource
    have hlabels : ∀ (as : List Action) p' started, .start (some p') started ∈
        [.start (some p) true, .finished 0 .exit] ++ as →
        (∀ a ∈ as, ∀ p'' started, a ≠ .start (some p'') started) → P p' := by
      intro as p' started hmem hno
      rcases List.mem_append.1 hmem with hmem | hmem
      · simp only [List.mem_cons, Action.start.injEq, Option.some_inj, reduceCtorEq,
          List.not_mem_nil, or_self, or_false] at hmem
        exact hmem.1 ▸ hp
      · exact absurd rfl (hno _ hmem p' started)
    refine ⟨?_, fun hworker => ?_⟩
    · by_contra hno
      obtain ⟨t, hrun, hnull⟩ := run_worker_null hsource hno
      have hsafe := h _ t (fun p' started hmem => hlabels _ p' started hmem (by simp)) hrun
      exact absurd (hnull.symm.trans hsafe) (by decide)
    · by_contra hno
      obtain ⟨t, hrun, hnull⟩ := run_sink_null hsource hworker hno
      have hsafe := h _ t (fun p' started hmem => hlabels _ p' started hmem (by simp)) hrun
      exact absurd (hnull.symm.trans hsafe) (by decide)
  · intro hok as t hP hrun
    have hlabels : ∀ a ∈ as, ∀ p started, a = .start (some p) started → P p :=
      fun a ha p started heq => hP p started (heq ▸ ha)
    exact (Machine.run_invariant_of_meets (P := Inv extension compilers P)
      (fun _ _ _ hinv ha hs => inv_step hinv hok ha hs) ⟨rfl, by simp, by simp⟩
      (Machine.meets_labels hlabels {}) hrun).safe

end DPECompiler

/-! ## A device -/

structure CompilingDevice where
  device : DPEDeviceImpl
  /-- `cj_`. -/
  cj : Option CompileJob := none
  /-- A method was called on a null pointer. -/
  nullCall : Bool := false
  deriving DecidableEq, Repr

namespace CompilingDevice

/-- What a device finds when it handles a message: whether the image and the job description exist,
and whether a compile process or a worker process starts. -/
structure Env where
  alreadyCompiled : Bool := false
  processStarts : Bool := true
  taskStarted : Bool := true
  deriving DecidableEq, Repr

/-- The job of an `InitJob` message with this language. -/
def compileJob (language : String) (args : InitJobArgs) : CompileJob :=
  { language := language, sourceFiles := [args.workerName] }

/-- `HandleInitJobMessage` comes to its compile job. -/
def TakesJob (d : DPEDeviceImpl) (req : RscRequest) (args : InitJobArgs) : Prop :=
  d.registered = true ∧ req.session = d.session ∧ d.deviceState = .waiting ∧
    ¬ (req.pa.isEmpty ∨ args.jobName.isEmpty ∨ args.workerName.isEmpty ∨ args.data.isEmpty)

instance (d : DPEDeviceImpl) (req : RscRequest) (args : InitJobArgs) :
    Decidable (TakesJob d req args) :=
  inferInstanceAs (Decidable (_ ∧ _ ∧ _ ∧ ¬ _))

/-- The compiler of the job, and what becomes of it. -/
def compile (env : Env) (language : String) (args : InitJobArgs) :
    InitJobEnv × CompileJob :=
  let job := compileJob language args
  match createCompiler extension compilers "" language job.sourceFiles with
  | none => ({ compilerMade := false }, job)
  | some compiler =>
    if env.alreadyCompiled then ({ alreadyCompiled := true }, job)
    else
      let (done, job) := compiler.startCompile extension env.processStarts job
      ({ compileStarted := done }, job)

/-- `handle_message`; `language` is that of the message. -/
def handleMessage (env : Env) (language : String) (req : RscRequest) (s : CompilingDevice) :
    CompilingDevice :=
  match req.message with
  | .initJob args =>
    let compiled := compile extension compilers env language args
    { s with
      device :=
        (s.device.handleMessage { initJob := compiled.1, taskStarted := env.taskStarted } req).1
      cj := if TakesJob s.device req args then some compiled.2 else s.cj }
  | _ => { s with device := (s.device.handleMessage { taskStarted := env.taskStarted } req).1 }

/-- `OnCompileFinished`, which asks the process of the job for its exit. -/
def onCompileFinished (exitCode : Int) (exitReason : ExitReason) (s : CompilingDevice) :
    CompilingDevice :=
  match s.cj with
  | some job =>
    if job.compileProcess then
      { s with device := (s.device.onCompileFinished exitCode exitReason).1 }
    else { s with nullCall := true }
  | none => { s with nullCall := true }

inductive Action where
  | message (env : Env) (language : String) (req : RscRequest)
  | compileFinished (exitCode : Int) (exitReason : ExitReason)
  | output (isStdOut : Bool) (data : List UInt8)
  /-- The worker process has stopped. -/
  | stop (exitCode : Int) (exitReason : ExitReason)
  | checkHeartBeat (expired : Bool)
  deriving DecidableEq, Repr

def step : Machine CompilingDevice Action
  | s, .message env language req =>
    if s.nullCall then none else some (s.handleMessage extension compilers env language req)
  | s, .compileFinished exitCode exitReason =>
    if s.nullCall then none
    else if s.device.compiling then some (s.onCompileFinished exitCode exitReason)
    else none
  | s, .output isStdOut data =>
    if s.nullCall then none else some { s with device := s.device.onOutput isStdOut data }
  | s, .stop exitCode exitReason =>
    if s.nullCall then none
    else if s.device.working then
      some { s with device := (s.device.onStop exitCode exitReason).1 }
    else none
  | s, .checkHeartBeat expired =>
    if s.nullCall then none else some { s with device := s.device.checkHeartBeat expired }

/-- The message gives the device of this session no job for an interpreter. -/
def MessageOk (session language : String) (req : RscRequest) : Prop :=
  ∀ args, req.message = .initJob args → TakesJob { session := session } req args →
    ∀ context, createCompiler extension compilers "" language [args.workerName] ≠
      some (.interpreter context)

/-! ## The jobs that come to an interpreter -/

variable {extension} {compilers}

theorem handleInitJobMessage_cases (env : InitJobEnv) (pa : String) (args : InitJobArgs)
    (d : DPEDeviceImpl) :
    (d.handleInitJobMessage env pa args).1.compiling = d.compiling ∧
        (d.handleInitJobMessage env pa args).1.session = d.session ∧
        ((d.handleInitJobMessage env pa args).1.deviceState = .waiting →
          d.deviceState = .waiting) ∨
      (d.deviceState = .waiting ∧
        ¬ (pa.isEmpty ∨ args.jobName.isEmpty ∨ args.workerName.isEmpty ∨ args.data.isEmpty)) ∧
        env.compilerMade = true ∧ env.alreadyCompiled = false ∧ env.compileStarted = true ∧
        (d.handleInitJobMessage env pa args).1 =
          { d with deviceState := .initializing, compiling := true } := by
  unfold DPEDeviceImpl.handleInitJobMessage
  by_cases hstate : d.deviceState = .waiting
  · rw [if_neg (by simp [hstate])]
    by_cases hfields : pa.isEmpty ∨ args.jobName.isEmpty ∨ args.workerName.isEmpty ∨
        args.data.isEmpty
    · rw [if_pos hfields]
      exact .inl ⟨rfl, rfl, fun _ => hstate⟩
    · rw [if_neg hfields]
      cases hmade : env.compilerMade with
      | false => exact .inl ⟨rfl, rfl, fun _ => hstate⟩
      | true =>
        cases halready : env.alreadyCompiled with
        | true => exact .inl ⟨rfl, rfl, fun _ => hstate⟩
        | false =>
          cases hstarted : env.compileStarted with
          | false => exact .inl ⟨rfl, rfl, fun _ => hstate⟩
          | true => exact .inr ⟨⟨hstate, hfields⟩, rfl, rfl, rfl, rfl⟩
  · rw [if_pos (by simpa using hstate)]
    exact .inl ⟨rfl, rfl, fun h => h⟩

/-- A message starts no compilation unless it is an `InitJob` that is taken. -/
theorem handleMessage_cases (env : DPEDeviceImpl.Env) (req : RscRequest) (d : DPEDeviceImpl) :
    (d.handleMessage env req).1.compiling = d.compiling ∧
        (d.handleMessage env req).1.session = d.session ∧
        ((d.handleMessage env req).1.deviceState = .waiting → d.deviceState = .waiting) ∨
      ∃ args, req.message = .initJob args ∧ TakesJob d req args ∧
        env.initJob.compilerMade = true ∧ env.initJob.alreadyCompiled = false ∧
        env.initJob.compileStarted = true ∧
        (d.handleMessage env req).1 =
          { d with deviceState := .initializing, compiling := true } := by
  unfold DPEDeviceImpl.handleMessage
  by_cases hreg : d.registered = true
  · rw [if_neg (by simp [hreg])]
    by_cases hsession : req.session = d.session
    · rw [if_neg (by simpa using hsession)]
      cases hmessage : req.message with
      | heartBeat cookie => exact .inl ⟨rfl, rfl, fun h => h⟩
      | initJob args =>
        rcases handleInitJobMessage_cases env.initJob req.pa args d with
          hkept | ⟨⟨hstate, hfields⟩, hmade, halready, hstarted, heq⟩
        · exact .inl hkept
        · exact .inr ⟨args, rfl, ⟨hreg, hsession, hstate, hfields⟩, hmade, halready, hstarted, heq⟩
      | doTask taskId taskInput =>
        left
        simp only [DPEDeviceImpl.handleDoTaskMessage]
        split
        · exact ⟨rfl, rfl, fun h => h⟩
        · split
          · exact ⟨rfl, rfl, fun h => h⟩
          · exact ⟨rfl, rfl, by simp⟩
      | closeDevice =>
        left
        simp only [DPEDeviceImpl.closeDevice]
        split
        · exact ⟨rfl, rfl, fun h => h⟩
        · exact ⟨rfl, rfl, by simp⟩
    · rw [if_pos (by simpa using hsession)]
      exact .inl ⟨rfl, rfl, fun h => h⟩
  · rw [if_pos (by simpa using hreg)]
    exact .inl ⟨rfl, rfl, fun h => h⟩

/-- A compilation is under way only with a process. -/
structure Inv (session : String) (s : CompilingDevice) : Prop where
  safe : s.nullCall = false
  session : s.device.session = session
  fresh : s.device.deviceState = .waiting → s.device.compiling = false
  process : s.device.compiling = true → ∃ job, s.cj = some job ∧ job.compileProcess = true

/-- What leaves the compilation and the job alone keeps the invariant. -/
theorem Inv.frame {session : String} {s : CompilingDevice} (h : Inv session s)
    {device : DPEDeviceImpl} (hcompiling : device.compiling = s.device.compiling)
    (hsession : device.session = s.device.session)
    (hstate : device.deviceState = .waiting → s.device.deviceState = .waiting) :
    Inv session { s with device := device } :=
  ⟨h.safe, hsession.trans h.session, fun hw => hcompiling.trans (h.fresh (hstate hw)),
    fun hc => h.process (hcompiling.symm.trans hc)⟩

/-- The job that an accepted compilation leaves has a process, unless an interpreter has it. -/
theorem compile_process {env : Env} {language : String} {args : InitJobArgs}
    (hok : ∀ context, createCompiler extension compilers "" language [args.workerName] ≠
      some (.interpreter context))
    (hmade : (compile extension compilers env language args).1.compilerMade = true)
    (halready : (compile extension compilers env language args).1.alreadyCompiled = false)
    (hstarted : (compile extension compilers env language args).1.compileStarted = true) :
    (compile extension compilers env language args).2.compileProcess = true := by
  unfold compile at hmade halready hstarted ⊢
  cases hc : createCompiler extension compilers "" language
      (compileJob language args).sourceFiles with
  | none =>
    simp only [hc] at hmade
    cases hmade
  | some c =>
    simp only [hc] at halready hstarted ⊢
    split at halready
    · cases halready
    · next hnot =>
      rw [if_neg hnot] at hstarted ⊢
      have hstart : c.startCompile extension env.processStarts (compileJob language args) =
          (true, _) := Prod.ext hstarted rfl
      have hspec := (Compiler.startCompile_spec extension hstart).2
      cases c with
      | basic context => exact hspec
      | interpreter context => exact absurd hc (hok context)

theorem inv_handleMessage {session : String} {s : CompilingDevice} (h : Inv session s) {env : Env}
    {language : String} {req : RscRequest}
    (hok : MessageOk extension compilers session language req) :
    Inv session (s.handleMessage extension compilers env language req) := by
  rw [handleMessage]
  split
  · next args hmessage =>
    rcases handleMessage_cases ⟨(compile extension compilers env language args).1,
        env.taskStarted⟩ req s.device with
      ⟨hcompiling, hsession, hstate⟩ | ⟨args', hargs, htakes, hmade, halready, hstarted, heq⟩
    · have hframe := h.frame hcompiling hsession hstate
      refine ⟨hframe.safe, hframe.session, hframe.fresh, fun hc => ?_⟩
      have hbusy : s.device.compiling = true := hcompiling.symm.trans hc
      have hnot : ¬ TakesJob s.device req args := fun htakes =>
        absurd (hbusy.symm.trans (h.fresh htakes.2.2.1)) (by decide)
      simp only [if_neg hnot]
      exact h.process hbusy
    · obtain rfl : args = args' := RscMessage.initJob.inj (hmessage.symm.trans hargs)
      have htakes' : TakesJob { session := session } req args :=
        ⟨rfl, htakes.2.1.trans h.session, rfl, htakes.2.2.2⟩
      refine ⟨h.safe, ?_, ?_, fun _ => ?_⟩
      · simp only [heq]
        exact h.session
      · simp only [heq, reduceCtorEq, false_implies]
      simp only [if_pos htakes]
      exact ⟨_, rfl, compile_process (hok args hmessage htakes') hmade halready hstarted⟩
  · rcases handleMessage_cases { taskStarted := env.taskStarted } req s.device with
      ⟨hcompiling, hsession, hstate⟩ | ⟨args, hargs, -⟩
    · exact h.frame hcompiling hsession hstate
    · next hother => exact absurd hargs (hother args)

theorem inv_step {session : String} {s t : CompilingDevice} {a : Action} (h : Inv session s)
    (hok : ∀ env language req, a = .message env language req →
      MessageOk extension compilers session language req)
    (hs : step extension compilers s a = some t) : Inv session t := by
  have hlive : ¬ s.nullCall = true := by simp [h.safe]
  cases a with
  | message env language req =>
    rw [step, if_neg hlive, Option.some_inj] at hs
    exact hs ▸ inv_handleMessage h (hok env language req rfl)
  | compileFinished exitCode exitReason =>
    rw [step, if_neg hlive] at hs
    split at hs
    · next hcompiling =>
      obtain rfl := Option.some_inj.1 hs
      obtain ⟨job, hjob, hprocess⟩ := h.process hcompiling
      rw [onCompileFinished, hjob]
      simp only [hprocess, if_true]
      have hdone : (s.device.onCompileFinished exitCode exitReason).1.compiling = false ∧
          (s.device.onCompileFinished exitCode exitReason).1.session = s.device.session := by
        rw [DPEDeviceImpl.onCompileFinished]
        split <;> exact ⟨rfl, rfl⟩
      refine ⟨h.safe, hdone.2.trans h.session, fun _ => hdone.1, fun hc => ?_⟩
      exact absurd (hdone.1.symm.trans hc) (by decide)
    · cases hs
  | output isStdOut data =>
    rw [step, if_neg hlive, Option.some_inj] at hs
    subst hs
    have hkept : (s.device.onOutput isStdOut data).compiling = s.device.compiling ∧
        (s.device.onOutput isStdOut data).session = s.device.session ∧
        (s.device.onOutput isStdOut data).deviceState = s.device.deviceState := by
      rw [DPEDeviceImpl.onOutput]
      split <;> exact ⟨rfl, rfl, rfl⟩
    exact h.frame hkept.1 hkept.2.1 fun hw => hkept.2.2.symm.trans hw
  | stop exitCode exitReason =>
    rw [step, if_neg hlive] at hs
    split at hs
    · obtain rfl := Option.some_inj.1 hs
      have hkept : (s.device.onStop exitCode exitReason).1.compiling = s.device.compiling ∧
          (s.device.onStop exitCode exitReason).1.session = s.device.session ∧
          (s.device.onStop exitCode exitReason).1.deviceState = .runningIdle := by
        rw [DPEDeviceImpl.onStop]
        split <;> exact ⟨rfl, rfl, rfl⟩
      exact h.frame hkept.1 hkept.2.1 fun hw => absurd (hkept.2.2.symm.trans hw) (by decide)
    · cases hs
  | checkHeartBeat expired =>
    rw [step, if_neg hlive, Option.some_inj] at hs
    subst hs
    have hkept : (s.device.checkHeartBeat expired).compiling = s.device.compiling ∧
        (s.device.checkHeartBeat expired).session = s.device.session ∧
        ((s.device.checkHeartBeat expired).deviceState = .waiting →
          s.device.deviceState = .waiting) := by
      rw [DPEDeviceImpl.checkHeartBeat]
      split
      · rw [DPEDeviceImpl.closeDevice]
        split
        · exact ⟨rfl, rfl, fun hw => hw⟩
        · exact ⟨rfl, rfl, by simp⟩
      · exact ⟨rfl, rfl, fun hw => hw⟩
    exact h.frame hkept.1 hkept.2.1 hkept.2.2

/-- An interpreter reports a compilation, and the device asks for its process. -/
theorem run_interpreter_null {session language : String} {req : RscRequest} {args : InitJobArgs}
    (hmessage : req.message = .initJob args) (htakes : TakesJob { session := session } req args)
    {context : CompilerConfiguration}
    (hc : createCompiler extension compilers "" language [args.workerName] =
      some (.interpreter context)) :
    ∃ t, (step extension compilers).run { device := { session := session } }
        [.message {} language req, .compileFinished 0 .exit] = some t ∧ t.nullCall = true := by
  have hcompile : compile extension compilers {} language args =
      ({ compileStarted := true },
        (preProcessJob extension context (compileJob language args)).2) := by
    have hc' : createCompiler extension compilers "" language
        (compileJob language args).sourceFiles = some (.interpreter context) := hc
    simp [compile, hc', Compiler.startCompile]
  have hprocess :
      (preProcessJob extension context (compileJob language args)).2.compileProcess = false :=
    preProcessJob_compileProcess extension context (compileJob language args)
  have hdevice : (DPEDeviceImpl.handleMessage { initJob := { compileStarted := true } } req
      { session := session }).1 =
      { session := session, deviceState := .initializing, compiling := true } := by
    obtain ⟨-, hsession, -, hfields⟩ := htakes
    unfold DPEDeviceImpl.handleMessage DPEDeviceImpl.handleInitJobMessage
    simp only [hmessage, hsession, hfields, if_false, ne_eq, not_true_eq_false, Bool.not_true,
      Bool.false_eq_true]
  have hfirst : step extension compilers { device := { session := session } }
      (.message {} language req) = some
        { device := { session := session, deviceState := .initializing, compiling := true }
          cj := some (preProcessJob extension context (compileJob language args)).2 } := by
    simp only [step, Bool.false_eq_true, if_false, handleMessage, hmessage, hcompile, hdevice,
      if_pos htakes]
  have hlast : step extension compilers
      { device := { session := session, deviceState := .initializing, compiling := true }
        cj := some (preProcessJob extension context (compileJob language args)).2 }
      (.compileFinished 0 .exit) = some
        { device := { session := session, deviceState := .initializing, compiling := true }
          cj := some (preProcessJob extension context (compileJob language args)).2
          nullCall := true } := by
    simp only [step, onCompileFinished, hprocess, Bool.false_eq_true, if_false, if_true]
  exact ⟨_, Machine.run_cons.2 ⟨_, hfirst, Machine.run_cons.2 ⟨_, hlast, Machine.run_nil _⟩⟩, rfl⟩

/-- All runs whose messages have `P` are safe exactly if these messages are in order. -/
theorem safe_iff (session : String) (P : String → RscRequest → Prop) :
    (∀ as t, (∀ env language req, .message env language req ∈ as → P language req) →
        (step extension compilers).run { device := { session := session } } as = some t →
        t.nullCall = false) ↔
      ∀ language req, P language req → MessageOk extension compilers session language req := by
  constructor
  · intro h language req hP args hmessage htakes context hc
    obtain ⟨t, hrun, hnull⟩ := run_interpreter_null hmessage htakes hc
    have hsafe := h _ t (fun env language' req' hmem => by
      simp only [List.mem_cons, Action.message.injEq, reduceCtorEq, List.not_mem_nil, or_self,
        or_false] at hmem
      rw [hmem.2.1, hmem.2.2]
      exact hP) hrun
    exact absurd (hnull.symm.trans hsafe) (by decide)
  · intro hok as t hP hrun
    have hlabels : ∀ a ∈ as, ∀ env language req, a = .message env language req →
        P language req :=
      fun a ha env language req heq => hP env language req (heq ▸ ha)
    exact (Machine.run_invariant_of_meets (P := Inv session)
      (fun _ _ _ hinv ha hs => inv_step hinv
        (fun env language req heq => hok language req (ha env language req heq)) hs)
      ⟨rfl, rfl, fun _ => rfl, by simp⟩ (Machine.meets_labels hlabels _) hrun).safe

end CompilingDevice

end Pipeline

/-- **When no null pointer is called.**  Take the projects of `P` and the messages of `Q`, compilers
in any configuration, and all the runs of a `DPECompiler` and of a device with these.  No method is
called on a null compiler or a null process — exactly if in each of the projects the worker has a
compiler when the source can be compiled, and the sink has one when both can, and none of the
messages gives the device a job for an interpreter. -/
theorem no_null_call_iff (extension : String → String) (compilers : List CompilerConfiguration)
    (session : String) (P : DPEProject → Prop) (Q : String → RscRequest → Prop) :
    ((∀ as t, (∀ p started, .start (some p) started ∈ as → P p) →
        (DPECompiler.step extension compilers).run {} as = some t → t.nullCall = false) ∧
      ∀ as t, (∀ env language req, .message env language req ∈ as → Q language req) →
        (CompilingDevice.step extension compilers).run { device := { session := session } } as =
          some t → t.nullCall = false) ↔
      (∀ p, P p → DPECompiler.PipelineOk extension compilers p) ∧
        ∀ language req, Q language req →
          CompilingDevice.MessageOk extension compilers session language req :=
  and_congr (DPECompiler.safe_iff P) (CompilingDevice.safe_iff session Q)

/-- A worker of unknown extension, and a worker for an interpreter. -/
theorem null_calls :
    ¬ (∀ (extension : String → String) (compilers : List CompilerConfiguration)
        (as : List DPECompiler.Action) t,
      (DPECompiler.step extension compilers).run {} as = some t → t.nullCall = false) ∧
    ¬ ∀ (extension : String → String) (compilers : List CompilerConfiguration)
        (session : String) (as : List CompilingDevice.Action) t,
      (CompilingDevice.step extension compilers).run { device := { session := session } } as =
        some t → t.nullCall = false := by
  constructor
  · intro h
    have hsafe := h (fun file => if file = "a.py" then ".py" else "")
      [{ type := "interpreter", languageDetail := [{ language := "python" }] }]
      [.start (some { sourcePath := "a.py", workerPath := "b" }) true, .finished 0 .exit,
        .next true] _ rfl
    exact absurd hsafe (by decide)
  · intro h
    have hsafe := h (fun _ => ".py")
      [{ type := "interpreter", languageDetail := [{ language := "python" }] }] "s"
      [.message {} "" ⟨"pa", "s", .initJob ⟨"job", "w.py", "print(1)"⟩⟩, .compileFinished 0 .exit]
      _ rfl
    exact absurd hsafe (by decide)

end Dcfpe

import Dcfpe.Service.CompilePipeline
import Dcfpe.Service.DeviceCreator
import Dcfpe.Service.JobSuccess

/-!
# The controller of the jobs

A `DPEController` takes one job after the other through its phases.  `Start` loads the project and
has a `DPECompiler` compile its three programs; when it is called back it makes a `DPEScheduler`,
which runs the job and calls it back in turn.  Each callback looks at `job_state_` first, and
services can be added at any time.

The functions are those of `dpe_controller.cc`, with `DPEScheduler::Run`.  A step is a call from
outside, or a step of whichever of the two there is: the compiler (`DPECompiler.step`), the manager
of the devices (`DeviceFleet.step`) or the run of the job (`JobRun.step`), and what they call back
is part of it.  Those that are gone make no steps, for their tasks hold weak pointers.

What is proved is that the phases are what they should be: a job that is finished was compiled, all
three programs of it, and is a whole run of a `JobRun`; and no callback is ever turned away.
-/

set_option autoImplicit false

namespace Dcfpe

inductive DPEJobState where
  | prepare
  | compiling
  | compiled
  | compileError
  | running
  | finish
  | failed
  deriving DecidableEq, Repr

/-- A service: whether it is local, and its address. -/
structure DPEServer where
  isLocal : Bool
  serverAddress : String
  deriving DecidableEq, Repr

/-- The service that a creator creates devices of. -/
def RemoteDPEDeviceCreator.service (c : RemoteDPEDeviceCreator) : DPEServer where
  isLocal := c.isLocal
  serverAddress := c.serverAddress

/-- A `DPEScheduler` that runs: its manager as the creators of devices see it, and the job. -/
structure ScheduledJob where
  fleet : DeviceFleet
  run : JobRun

namespace ScheduledJob

/-- What `DPEScheduler::Run` makes when the process of the source starts. -/
def start (servers : List DPEServer) (project : DPEProject) : ScheduledJob where
  fleet := servers.foldl (fun m s => m.addRemoteDPEService s.isLocal s.serverAddress) {}
  run := .start project

/-- The run goes on.  A device that it loses is the first one of the manager. -/
def event (env : ProjectEnv) (e : JobRun.Event) (job : ScheduledJob) : Option ScheduledJob :=
  (JobRun.step env job.run e).map fun run =>
    { fleet :=
        if run.scheduler.deviceList.length < job.run.scheduler.deviceList.length then
          (DeviceFleet.step job.fleet (.lose 0)).getD job.fleet
        else job.fleet
      run := run }

end ScheduledJob

/-- The device that a response makes, if it makes one and the device starts. -/
def CreateDeviceReply.device (starts : Bool) (rep : CreateDeviceReply) : Option DeviceAddress :=
  if rep.errorCode ≠ 0 ∨ starts = false then none else rep.deviceAddress

namespace ScheduledJob

/-- A service responds to its creator; the device that was made is told its job. -/
def response (env : ProjectEnv) (i : Nat) (rep : CreateDeviceReply) (starts : Bool) (pa : String)
    (args : Option InitJobArgs) (job : ScheduledJob) : Option ScheduledJob :=
  (DeviceFleet.step job.fleet (.response i rep starts)).bind fun fleet =>
    match rep.device starts with
    | none => some { job with fleet := fleet }
    | some address =>
      (JobRun.step env job.run (.addDevice pa address.session args)).map fun run =>
        { fleet := fleet, run := run }

end ScheduledJob

structure DPEController where
  servers : List DPEServer := []
  dpeProject : Option DPEProject := none
  dpeCompiler : Option DPECompiler := none
  dpeScheduler : Option ScheduledJob := none
  jobState : DPEJobState := .prepare

namespace DPEController

/-! ## The functions -/

def addRemoteDPEService (isLocal : Bool) (serverAddress : String) (c : DPEController) :
    DPEController :=
  if c.servers.any (·.serverAddress = serverAddress) then c
  else
    { c with
      servers := c.servers ++ [{ isLocal, serverAddress }]
      dpeScheduler := c.dpeScheduler.map fun job =>
        { job with fleet := job.fleet.addRemoteDPEService isLocal serverAddress } }

def stop (c : DPEController) : DPEController :=
  { c with jobState := .prepare, dpeCompiler := none, dpeScheduler := none }

def onCompileError (c : DPEController) : DPEController :=
  if c.jobState = .compiling then { c with jobState := .failed, dpeCompiler := none } else c

/-- `OnCompileSuccess`; `sourceStarts` is the result of `Run`.  The project is not null here. -/
def onCompileSuccess (sourceStarts : Bool) (c : DPEController) : DPEController :=
  if c.jobState ≠ .compiling then c
  else if sourceStarts then
    { c with
      dpeScheduler := some (.start c.servers (c.dpeProject.getD {}))
      jobState := .running
      dpeCompiler := none }
  else { c with dpeScheduler := none, jobState := .failed, dpeCompiler := none }

def onRunningError (c : DPEController) : DPEController :=
  if c.jobState = .running then { c.stop with jobState := .failed } else c

def onRunningSuccess (c : DPEController) : DPEController :=
  if c.jobState = .running then { c.stop with jobState := .finish } else c

section Step

variable (extension : String → String) (compilers : List CompilerConfiguration) (env : ProjectEnv)

/-- `Start`, and its result; `started` says whether the process of the first compiler starts. -/
def start (fs : FileSystem) (jobPath : String) (started : Bool) (c : DPEController) :
    Bool × DPEController :=
  let c :=
    if c.jobState = .failed ∨ c.jobState = .finish then { c with jobState := .prepare } else c
  if c.jobState ≠ .prepare then (false, c)
  else
    match DPEProject.fromFile env fs jobPath with
    | none => (false, { c with dpeProject := none })
    | some project =>
      let compiler := ({} : DPECompiler).startCompile extension compilers (some project) started
      let done : Bool := compiler.state = .compilingSource
      (done,
        { c with
          dpeProject := some project
          dpeCompiler := some compiler
          jobState := if done then .compiling else .failed })

inductive Action where
  | addRemoteDPEService (isLocal : Bool) (serverAddress : String)
  | start (fs : FileSystem) (jobPath : String) (started : Bool)
  | stop
  /-- A compilation has finished. -/
  | compileFinished (exitCode : Int) (exitReason : ExitReason)
  /-- `ScheduleNextStep` runs; the next compiler or, after the last one, the source starts. -/
  | scheduleNextStep (started sourceStarts : Bool)
  /-- `RefreshDeviceState` runs. -/
  | refresh (outcome : String → CreateOutcome)
  | response (i : Nat) (rep : CreateDeviceReply) (starts : Bool) (pa : String)
    (args : Option InitJobArgs)
  | job (e : JobRun.Event)

/-- What an action is to the compiler. -/
def Action.toCompiler : Action → Option DPECompiler.Action
  | .compileFinished exitCode exitReason => some (.finished exitCode exitReason)
  | .scheduleNextStep started _ => some (.next started)
  | _ => none

/-- What an action is to the run of the job. -/
def Action.toJob : Action → Option JobRun.Event
  | .job e => some e
  | .response _ rep starts pa args =>
    (rep.device starts).map fun address => .addDevice pa address.session args
  | _ => none

/-- The calls that the compiler has made in a step. -/
def compilerCalls (sourceStarts : Bool) (before after : DPECompiler) (c : DPEController) :
    DPEController :=
  (after.host.drop before.host.length).foldl
    (fun c success => if success then c.onCompileSuccess sourceStarts else c.onCompileError)
    { c with dpeCompiler := some after }

/-- The call that the scheduler has made in a step, if any. -/
def schedulerCall (job : ScheduledJob) (c : DPEController) : DPEController :=
  let c := { c with dpeScheduler := some job }
  match job.run.ended with
  | none => c
  | some true => c.onRunningSuccess
  | some false => c.onRunningError

/-- A step of the compiler. -/
def compile (a : DPECompiler.Action) (sourceStarts : Bool) (c : DPEController) :
    Option DPEController :=
  c.dpeCompiler.bind fun compiler =>
    (DPECompiler.step extension compilers compiler a).map fun compiler' =>
      c.compilerCalls sourceStarts compiler compiler'

def step : Machine DPEController Action := fun c a =>
  -- a method was called on a null compiler
  if c.dpeCompiler.any (·.nullCall) then none
  else
    match a with
    | .addRemoteDPEService isLocal serverAddress =>
      some (c.addRemoteDPEService isLocal serverAddress)
    | .start fs jobPath started => some (c.start extension compilers env fs jobPath started).2
    | .stop => some c.stop
    | .compileFinished exitCode exitReason =>
      c.compile extension compilers (.finished exitCode exitReason) true
    | .scheduleNextStep started sourceStarts =>
      c.compile extension compilers (.next started) sourceStarts
    | .refresh outcome =>
      c.dpeScheduler.map fun job =>
        { c with dpeScheduler := some { job with fleet := job.fleet.refreshDeviceState outcome } }
    | .response i rep starts pa args =>
      c.dpeScheduler.bind fun job =>
        (job.response env i rep starts pa args).map fun job => c.schedulerCall job
    -- a device is added by a response only
    | .job (.addDevice _ _ _) => none
    | .job e => c.dpeScheduler.bind fun job => (job.event env e).map fun job => c.schedulerCall job

end Step

end DPEController

/-! ## What the compiler has done -/

namespace DPECompiler

section Course

variable (extension : String → String) (compilers : List CompilerConfiguration)

/-- The end of the compilation of a file was a good one; that of an interpreter always is. -/
def Built (file : String) (exitCode : Int) (exitReason : ExitReason) : Prop :=
  ∃ compiler, makeNewCompiler extension compilers file = some compiler ∧
    ((∃ context, compiler = .basic context) → exitCode = 0 ∧ exitReason = .exit)

/-- The files were compiled in this order, each one well. -/
inductive Compiled : List String → List Action → Prop where
  | nil : Compiled [] []
  | snoc {files : List String} {as : List Action} {file : String} {exitCode : Int}
      {exitReason : ExitReason} (h : Compiled files as)
      (hbuilt : Built extension compilers file exitCode exitReason) (started : Bool) :
      Compiled (files ++ [file]) (as ++ [.finished exitCode exitReason, .next started])

/-- The file that is compiled in a state. -/
def fileOf (p : DPEProject) : DPECompileState → String
  | .compilingWorker => p.workerPath
  | .compilingSink => p.sinkPath
  | _ => p.sourcePath

/-- The files that were compiled before it. -/
def filesBefore (p : DPEProject) : DPECompileState → List String
  | .compilingWorker => [p.sourcePath]
  | .compilingSink => [p.sourcePath, p.workerPath]
  | _ => []

/-- The compilation that `job` is for, of which the compiler looks at the process. -/
def Compiles (file : String) (job : CompileJob) : Prop :=
  ∃ compiler, makeNewCompiler extension compilers file = some compiler ∧
    ((∃ context, compiler = .basic context) → job.compileProcess = true)

/-- The compilation of the file is going on, or has ended and `ScheduleNextStep` is posted. -/
inductive Place (file : String) (files : List String) (s : DPECompiler) : List Action → Prop where
  | compiling {done : List Action} {job : CompileJob}
      (hdone : Compiled extension compilers files done) (hposted : s.posted = false)
      (hjob : s.compiling = some job)
      (hcompiles : Compiles extension compilers file job) : Place file files s done
  | posted {done : List Action} {exitCode : Int} {exitReason : ExitReason}
      (hdone : Compiled extension compilers files done) (hposted : s.posted = true)
      (hjob : s.compiling = none) (hbuilt : Built extension compilers file exitCode exitReason) :
      Place file files s (done ++ [.finished exitCode exitReason])

/-- The compiler is at work on the project, and has gone through these steps. -/
structure Course (p : DPEProject) (as : List Action) (s : DPECompiler) : Prop where
  host : s.host = []
  safe : s.nullCall = false
  project : s.dpeProject = p
  state : s.state = .compilingSource ∨ s.state = .compilingWorker ∨ s.state = .compilingSink
  place : Place extension compilers (fileOf p s.state) (filesBefore p s.state) s as

variable {extension} {compilers} {p : DPEProject} {as : List Action} {s t : DPECompiler}

theorem compiles_of_startCompile {file : String} {compiler : Compiler} {started : Bool}
    {job : CompileJob} (hmake : makeNewCompiler extension compilers file = some compiler)
    (hstart : compiler.startCompile extension started { sourceFiles := [file] } = (true, job)) :
    Compiles extension compilers file job := by
  refine ⟨compiler, hmake, ?_⟩
  rintro ⟨context, rfl⟩
  exact (Compiler.startCompile_spec extension hstart).2

/-- A new compiler is at work, or has nothing to do. -/
theorem start_cases (extension : String → String) (compilers : List CompilerConfiguration)
    (p : DPEProject) (started : Bool) :
    let s := ({} : DPECompiler).startCompile extension compilers (some p) started
    Course extension compilers p [] s ∧ s.state = .compilingSource ∨
      s.state ≠ .compilingSource ∧ s.compiling = none ∧ s.posted = false ∧ s.nullCall = false := by
  intro s
  have hs : s = ({} : DPECompiler).startCompile extension compilers (some p) started := rfl
  rw [startCompile, if_neg (by decide)] at hs
  rcases hmake : makeNewCompiler extension compilers p.sourcePath with _ | compiler
  · simp only [hmake] at hs
    rw [hs]
    exact .inr ⟨DPECompileState.noConfusion, rfl, rfl, rfl⟩
  · rcases hstart : compiler.startCompile extension started { sourceFiles := [p.sourcePath] } with
      ⟨done, job⟩
    simp only [hmake, hstart] at hs
    rcases done with _ | _
    · rw [hs]
      exact .inr ⟨DPECompileState.noConfusion, rfl, rfl, rfl⟩
    · rw [hs]
      exact .inl ⟨⟨rfl, rfl, rfl, .inl rfl,
        .compiling .nil rfl rfl (compiles_of_startCompile hmake hstart)⟩, rfl⟩

/-- A compilation ends: badly, or the next step is posted. -/
theorem Course.finished (h : Course extension compilers p as s) {exitCode : Int}
    {exitReason : ExitReason}
    (hstep : step extension compilers s (.finished exitCode exitReason) = some t) :
    Course extension compilers p (as ++ [.finished exitCode exitReason]) t ∨ t.host = [false] := by
  rw [step, if_neg (by simp [h.safe])] at hstep
  rcases h.place with ⟨hdone, hposted, hjob, compiler, hmake, hprocess⟩ | ⟨-, -, hjob, -⟩
  · simp only [hjob] at hstep
    rw [← Option.some_inj.1 hstep, onCompileFinished]
    split
    · exact .inr (by simp [h.host])
    · next hgood =>
      refine .inl ⟨h.host, h.safe, h.project, h.state, .posted hdone rfl rfl ⟨compiler, hmake, ?_⟩⟩
      intro hbasic
      simpa [hprocess hbasic] using hgood
  · simp only [hjob] at hstep
    exact absurd hstep (by simp)

/-- The next file: there is no compiler, or its process does not start, or it is compiled. -/
theorem compileNext_spec (extension : String → String) (compilers : List CompilerConfiguration)
    (file : String) (next : DPECompileState) (started : Bool) (s : DPECompiler) :
    s.compileNext extension compilers file next started = { s with nullCall := true } ∨
      s.compileNext extension compilers file next started = { s with state := .error } ∨
      ∃ job, s.compileNext extension compilers file next started =
          { s with state := next, compiling := some job } ∧
        Compiles extension compilers file job := by
  rw [compileNext]
  rcases hmake : makeNewCompiler extension compilers file with _ | compiler
  · exact .inl rfl
  · rcases hstart : compiler.startCompile extension started { sourceFiles := [file] } with
      ⟨done, job⟩
    simp only [hstart]
    rcases done with _ | _
    · exact .inr (.inl rfl)
    · exact .inr (.inr ⟨job, rfl, compiles_of_startCompile hmake hstart⟩)

/-- A case of the `switch`, after the files before it were compiled. -/
theorem course_compileNext {next : DPECompileState}
    (hnext : next = .compilingWorker ∨ next = .compilingSink) (hhost : s.host = [])
    (hsafe : s.nullCall = false) (hproject : s.dpeProject = p) (hposted : s.posted = false)
    (hdone : Compiled extension compilers (filesBefore p next) as) (started : Bool) :
    let t := (s.compileNext extension compilers (fileOf p next) next started).report
    Course extension compilers p as t ∨ t.nullCall = true ∧ t.host = [] ∨ t.host = [false] := by
  rcases compileNext_spec extension compilers (fileOf p next) next started s with
    heq | heq | ⟨job, heq, hcompiles⟩
  · rw [heq]
    exact .inr (.inl ⟨rfl, hhost⟩)
  · rw [heq]
    exact .inr (.inr (by simp [report, hsafe, hhost]))
  · have hreport : ({ s with state := next, compiling := some job } : DPECompiler).report =
        { s with state := next, compiling := some job } := by
      rcases hnext with rfl | rfl <;> simp [report, hsafe]
    rw [heq, hreport]
    exact .inl ⟨hhost, hsafe, hproject, .inr hnext, .compiling hdone hposted rfl hcompiles⟩

/-- `ScheduleNextStep` runs: the compiler goes on, crashes, or reports. -/
theorem Course.next (h : Course extension compilers p as s) {started : Bool}
    (hstep : step extension compilers s (.next started) = some t) :
    Course extension compilers p (as ++ [.next started]) t ∨ t.nullCall = true ∧ t.host = [] ∨
      t.host = [false] ∨ t.host = [true] ∧
        Compiled extension compilers [p.sourcePath, p.workerPath, p.sinkPath]
          (as ++ [.next started]) := by
  rw [step, if_neg (by simp [h.safe])] at hstep
  rcases h.place with ⟨-, hposted, -, -⟩ | ⟨hdone, hposted, -, hbuilt⟩
  · rw [hposted, if_neg (by decide)] at hstep
    exact absurd hstep (by simp)
  · rw [hposted, if_pos rfl, scheduleNextStepImpl] at hstep
    have hcompiled := hdone.snoc hbuilt started
    rw [List.append_assoc, List.singleton_append, ← Option.some_inj.1 hstep]
    rcases h.state with hstate | hstate | hstate <;> rw [hstate] at hcompiled
    · have hcourse := course_compileNext (s := { s with posted := false }) (.inl rfl) h.host h.safe
        h.project rfl hcompiled started
      have hadvance : advance extension compilers started { s with posted := false } =
          compileNext extension compilers (fileOf p .compilingWorker) .compilingWorker started
            { s with posted := false } := by
        simp only [advance, hstate, h.project, fileOf]
      rw [hadvance]
      exact hcourse.imp_right (·.imp_right .inl)
    · have hcourse := course_compileNext (s := { s with posted := false }) (.inr rfl) h.host h.safe
        h.project rfl hcompiled started
      have hadvance : advance extension compilers started { s with posted := false } =
          compileNext extension compilers (fileOf p .compilingSink) .compilingSink started
            { s with posted := false } := by
        simp only [advance, hstate, h.project, fileOf]
      rw [hadvance]
      exact hcourse.imp_right (·.imp_right .inl)
    · have hreport : (advance extension compilers started { s with posted := false }).report.host =
          [true] := by
        simp [advance, hstate, report, h.safe, h.host]
      exact .inr (.inr (.inr ⟨hreport, hcompiled⟩))

/-- A callback of the compiler: it goes on, crashes, or reports. -/
theorem Course.step (h : Course extension compilers p as s) {a : Action}
    (ha : ∀ project started, a ≠ .start project started)
    (hstep : step extension compilers s a = some t) :
    Course extension compilers p (as ++ [a]) t ∨ t.nullCall = true ∧ t.host = [] ∨
      t.host = [false] ∨ t.host = [true] ∧
        Compiled extension compilers [p.sourcePath, p.workerPath, p.sinkPath] (as ++ [a]) := by
  rcases a with ⟨project, started⟩ | ⟨exitCode, exitReason⟩ | started
  · exact absurd rfl (ha project started)
  · exact (h.finished hstep).imp_right fun hhost => .inr (.inl hhost)
  · exact h.next hstep

end Course

end DPECompiler

/-! ## The devices of a job and the services -/

namespace JobRun

open DPEScheduler

theorem onDeviceAvailable_length (s : DPEScheduler) :
    s.onDeviceAvailable.deviceList.length = s.deviceList.length := by
  refine onDeviceAvailable_induction (P := fun t => t.deviceList.length = s.deviceList.length)
    (fun t u ht hstep => ?_) rfl
  cases hstep with
  | dropped => exact ht
  | handed => exact (List.length_set ..).trans ht

theorem onTaskSucceed_length (device : RemoteDPEDevice) (s : DPEScheduler) :
    (s.onTaskSucceed device).1.deviceList.length = s.deviceList.length := by
  simp only [onTaskSucceed]
  split
  · rfl
  · split
    · exact onDeviceAvailable_length _
    · rfl

theorem onDeviceLose_deviceList (device : RemoteDPEDevice) (state : RemoteDeviceState)
    (s : DPEScheduler) : (s.onDeviceLose device state).deviceList = s.deviceList := by
  rw [onDeviceLose]
  split <;> rfl

theorem onSourceStop_length (env : ProjectEnv) (fs : FileSystem) (sinkStarts : Bool)
    (s : DPEScheduler) :
    (s.onSourceStop env fs sinkStarts).1.deviceList.length = s.deviceList.length := by
  simp only [onSourceStop]
  split
  · rfl
  · split
    · rfl
    · exact onDeviceAvailable_length _

/-- A step adds the device that it is about, or loses one, or leaves their number as it is. -/
theorem deviceList_length {env : ProjectEnv} {s t : JobRun} {e : Event}
    (h : step env s e = some t) :
    t.scheduler.deviceList.length = s.scheduler.deviceList.length + 1 ∧
        (∃ pa session args, e = .addDevice pa session args) ∨
      t.scheduler.deviceList.length = s.scheduler.deviceList.length ∨
      t.scheduler.deviceList.length + 1 = s.scheduler.deviceList.length := by
  obtain ⟨-, hstep⟩ := stepped_of_step h
  cases hstep with
  | sourceOutput => exact .inr (.inl rfl)
  | @sourceStop _ _ fs starts hsource =>
    rw [put_scheduler]
    exact .inr (.inl (onSourceStop_length env fs starts s.scheduler))
  | sinkOutput => exact .inr (.inl rfl)
  | sinkExit => exact .inr (.inl rfl)
  | sinkStop =>
    rw [put_scheduler]
    exact .inr (.inl rfl)
  | @reduce exit hposted =>
    rcases reduce_cases exit s with ⟨-, ht⟩ | ⟨-, taken, sink, ht⟩ <;> rw [ht] <;>
      exact .inr (.inl rfl)
  | addDevice => exact .inl ⟨List.length_append, _, _, _, rfl⟩
  | @device _ k w r hw hdevice =>
    rw [put_scheduler]
    cases hdevice with
    | quiet => exact .inr (.inl (List.length_set ..))
    | initJobFailed => exact .inr (.inl (List.length_set ..))
    | initJobDone => exact .inr (.inl ((onDeviceAvailable_length _).trans (List.length_set ..)))
    | taskFailed => exact .inr (.inl (List.length_set ..))
    | taskSucceeded => exact .inr (.inl ((onTaskSucceed_length _ _).trans (List.length_set ..)))
    | lost =>
      obtain ⟨hk, -⟩ := List.getElem?_eq_some_iff.1 hw
      refine .inr (.inr ?_)
      rw [onDeviceLose_deviceList, setDevice, List.length_eraseIdx_of_lt (by simpa using hk),
        List.length_set]
      omega

end JobRun

namespace ScheduledJob

/-- There is a creator for each service, and the manager has the devices of the job. -/
structure Fits (servers : List DPEServer) (job : ScheduledJob) : Prop where
  fleet : job.fleet.Inv
  services : job.fleet.dpeList.map (·.service) = servers
  nodup : job.fleet.deviceList.Nodup
  created : ∀ d ∈ job.fleet.deviceList, d < job.fleet.created.length
  devices : job.run.scheduler.deviceList.length = job.fleet.deviceList.length

variable {servers : List DPEServer} {job job' : ScheduledJob}

/-- No service has two devices at work for one job. -/
theorem Fits.length_le (h : job.Fits servers) :
    job.run.scheduler.deviceList.length ≤ servers.length := by
  have hsub : job.fleet.deviceList ⊆ job.fleet.dpeList.flatMap (·.deviceList) := fun d hd => by
    obtain ⟨c, hc, hown, -⟩ := h.fleet.owner d (h.created d hd)
    exact List.mem_flatMap.2 ⟨c, hc, hown ▸ List.mem_singleton_self d⟩
  have hone : ∀ c ∈ job.fleet.dpeList, c.deviceList.length ≤ 1 := fun c hc => by
    rcases h.fleet.single c hc with hempty | ⟨-, d, -, hd, -⟩
    · simp [hempty]
    · simp [hd]
  have hle : ∀ l : List RemoteDPEDeviceCreator, (∀ c ∈ l, c.deviceList.length ≤ 1) →
      (l.flatMap (·.deviceList)).length ≤ l.length := fun l hl => by
    induction l with
    | nil => exact Nat.le_refl 0
    | cons c l ih =>
      have hc := hl c List.mem_cons_self
      have hrest := ih fun c' hc' => hl c' (List.mem_cons_of_mem c hc')
      rw [List.flatMap_cons, List.length_append, List.length_cons]
      omega
  calc job.run.scheduler.deviceList.length = job.fleet.deviceList.length := h.devices
    _ ≤ (job.fleet.dpeList.flatMap (·.deviceList)).length :=
      List.Nodup.length_le_of_subset h.nodup hsub
    _ ≤ job.fleet.dpeList.length := hle _ hone
    _ = servers.length := by rw [← h.services, List.length_map]

theorem Fits.add (h : job.Fits servers) {isLocal : Bool} {address : String}
    (hnew : servers.any (·.serverAddress = address) = false) :
    Fits (servers ++ [⟨isLocal, address⟩])
      { job with fleet := job.fleet.addRemoteDPEService isLocal address } := by
  have hany : job.fleet.dpeList.any (·.serverAddress = address) = false := by
    rw [← h.services, List.any_map] at hnew
    exact hnew
  have hadd : job.fleet.addRemoteDPEService isLocal address =
      { job.fleet with
        dpeList := job.fleet.dpeList ++ [{ isLocal, serverAddress := address }] } := by
    rw [DeviceFleet.addRemoteDPEService, hany]
    rfl
  have hinv := h.fleet.addService isLocal address
  rw [hadd] at hinv ⊢
  refine ⟨hinv, ?_, h.nodup, h.created, h.devices⟩
  rw [← h.services, List.map_append]
  rfl

theorem fits_start (project : DPEProject) (hnodup : (servers.map (·.serverAddress)).Nodup) :
    (start servers project).Fits servers := by
  have hfold : ∀ (todo done : List DPEServer) (m : DeviceFleet),
      ((done ++ todo).map (·.serverAddress)).Nodup → Fits done ⟨m, .start project⟩ →
      Fits (done ++ todo) ⟨todo.foldl
        (fun m s => m.addRemoteDPEService s.isLocal s.serverAddress) m, .start project⟩ := by
    intro todo
    induction todo with
    | nil =>
      intro done m _ h
      rwa [List.append_nil]
    | cons s todo ih =>
      intro done m hnodup h
      rw [List.append_cons] at hnodup ⊢
      refine ih _ _ hnodup (h.add ?_)
      rw [List.map_append, List.nodup_append, List.map_append, List.nodup_append] at hnodup
      rw [Bool.eq_false_iff, Ne, List.any_eq_true]
      rintro ⟨s', hs', hsame⟩
      exact hnodup.1.2.2 _ (List.mem_map_of_mem hs') _
        (List.mem_map_of_mem (List.mem_singleton_self s)) (of_decide_eq_true hsame)
  exact hfold servers [] {} hnodup ⟨DeviceFleet.inv_empty, rfl, List.nodup_nil, nofun, rfl⟩

theorem Fits.refresh (h : job.Fits servers) (outcome : String → CreateOutcome) :
    Fits servers { job with fleet := job.fleet.refreshDeviceState outcome } := by
  refine ⟨h.fleet.refresh outcome, ?_, h.nodup, h.created, h.devices⟩
  rw [← h.services, DeviceFleet.refreshDeviceState_eq]
  refine List.map_map.trans (List.map_congr_left fun c _ => ?_)
  show (DeviceFleet.refreshed outcome c).service = c.service
  rcases DeviceFleet.refreshed_cases outcome c with ⟨heq, -⟩ | ⟨-, heq⟩ <;> rw [heq]
  rfl

theorem Fits.event {env : ProjectEnv} (h : job.Fits servers) {e : JobRun.Event}
    (he : ∀ pa session args, e ≠ .addDevice pa session args) (hstep : job.event env e = some job') :
    job'.Fits servers := by
  obtain ⟨run, hrun, rfl⟩ := Option.map_eq_some_iff.1 hstep
  rcases JobRun.deviceList_length hrun with ⟨-, pa, session, args, rfl⟩ | hsame | hlost
  · exact absurd rfl (he pa session args)
  · rw [if_neg (by omega)]
    exact ⟨h.fleet, h.services, h.nodup, h.created, hsame.trans h.devices⟩
  · -- the job has lost its first device, and the manager takes its own first one off
    have hlen := h.devices
    have hpos : 0 < job.fleet.deviceList.length := by omega
    have hlose : DeviceFleet.step job.fleet (.lose 0) =
        some { job.fleet with deviceList := job.fleet.deviceList.eraseIdx 0 } := by
      have hfirst := List.getElem?_eq_getElem hpos
      simp only [DeviceFleet.step, hfirst, loseLoop_found hfirst 0, Option.map_some]
    rw [if_pos (by omega), hlose, Option.getD_some]
    refine ⟨h.fleet.step hlose, h.services, h.nodup.sublist (List.eraseIdx_sublist ..),
      fun d hd => h.created d (List.mem_of_mem_eraseIdx hd), ?_⟩
    show run.scheduler.deviceList.length = (job.fleet.deviceList.eraseIdx 0).length
    rw [List.length_eraseIdx_of_lt hpos]
    omega

/-- A response makes a device exactly if it says so. -/
theorem handleResponse_device (i : Nat) (rep : CreateDeviceReply) (starts : Bool)
    (c : RemoteDPEDeviceCreator) (m : DeviceFleet) :
    m.handleResponse i rep starts c =
      match rep.device starts with
      | none =>
        { m with
          dpeList := m.dpeList.set i { c with pending := c.pending - 1, creating := false } }
      | some address =>
        { m with
          created := m.created ++ [address]
          deviceList := m.deviceList ++ [m.created.length]
          dpeList := m.dpeList.set i
            { c with
              pending := c.pending - 1
              deviceList := c.deviceList ++ [m.created.length]
              creating := false } } := by
  rw [DeviceFleet.handleResponse, CreateDeviceReply.device]
  by_cases herror : rep.errorCode = 0
  · rcases hmade : rep.deviceAddress with _ | address
    · simp [herror]
    · rcases starts with _ | _ <;> simp [herror]
  · simp [herror]

theorem map_service_set {l : List RemoteDPEDeviceCreator} {i : Nat} {c c' : RemoteDPEDeviceCreator}
    (hc : l[i]? = some c) (hsame : c'.service = c.service) :
    (l.set i c').map (·.service) = l.map (·.service) := by
  obtain ⟨hlt, rfl⟩ := List.getElem?_eq_some_iff.1 hc
  have hlen : i < (l.map (·.service)).length := by rwa [List.length_map]
  have hget : (l.map (·.service))[i] = l[i].service := List.getElem_map ..
  rw [List.map_set, hsame, ← hget, List.set_getElem_self]

theorem Fits.response {env : ProjectEnv} (h : job.Fits servers) {i : Nat} {rep : CreateDeviceReply}
    {starts : Bool} {pa : String} {args : Option InitJobArgs}
    (hstep : job.response env i rep starts pa args = some job') : job'.Fits servers := by
  obtain ⟨fleet, hfleet, hstep⟩ := Option.bind_eq_some_iff.1 hstep
  have hinv := h.fleet.step hfleet
  simp only [DeviceFleet.step] at hfleet
  split at hfleet
  · next c hc =>
    split at hfleet
    · exact absurd hfleet (by simp)
    · have hservices : ∀ c' : RemoteDPEDeviceCreator, c'.service = c.service →
          (job.fleet.dpeList.set i c').map (·.service) = servers := fun c' hsame =>
        (map_service_set hc hsame).trans h.services
      have hmade := Option.some_inj.1 hfleet
      rw [handleResponse_device] at hmade
      rcases hdevice : rep.device starts with _ | address <;> simp only [hdevice] at hmade hstep
      · rw [← Option.some_inj.1 hstep]
        subst hmade
        exact ⟨hinv, hservices _ (by rfl), h.nodup, h.created, h.devices⟩
      · obtain ⟨run, hrun, rfl⟩ := Option.map_eq_some_iff.1 hstep
        subst hmade
        refine ⟨hinv, hservices _ (by rfl), ?_, fun d hd => ?_, ?_⟩
        · rw [List.nodup_append]
          refine ⟨h.nodup, List.pairwise_singleton _ _, fun d hd d' hd' => ?_⟩
          rw [List.mem_singleton.1 hd']
          exact Nat.ne_of_lt (h.created d hd)
        · rw [List.length_append, List.length_singleton]
          rcases List.mem_append.1 hd with hd | hd
          · exact Nat.lt_succ_of_lt (h.created d hd)
          · rw [List.mem_singleton.1 hd]
            exact Nat.lt_succ_self _
        · rcases JobRun.taken_of_step hrun with ⟨-, htaken⟩
          cases htaken
          exact List.length_append.trans (congrArg (· + 1) h.devices) |>.trans
            List.length_append.symm
  · exact absurd hfleet (by simp)

end ScheduledJob

/-! ## The phases of a job -/

namespace DPEController

section Phase

variable (extension : String → String) (compilers : List CompilerConfiguration) (env : ProjectEnv)

/-- A `Start` takes effect in this state. -/
def Free (c : DPEController) : Prop :=
  c.jobState = .prepare ∨ c.jobState = .failed ∨ c.jobState = .finish

/-- Neither a `Stop` nor a `Start` that takes effect. -/
def Lasting (c : DPEController) : Action → Prop
  | .start _ _ _ => ¬ c.Free
  | .stop => False
  | _ => True

/-- The last `Start` that took effect has loaded `p`, `since` is what has come after it, and no
`Stop` is among that. -/
def Launched (as since : List Action) (p : DPEProject) : Prop :=
  ∃ before c fs jobPath started c', as = before ++ .start fs jobPath started :: since ∧
    DPEProject.fromFile env fs jobPath = some p ∧
    (step extension compilers env).run {} before = some c ∧ c.Free ∧
    step extension compilers env c (.start fs jobPath started) = some c' ∧
    (step extension compilers env).Meets Lasting c' since

/-- The compiler has nothing to do. -/
def Idle (s : DPECompiler) : Prop := s.compiling = none ∧ s.posted = false ∧ s.nullCall = false

/-- The three programs of the project were compiled by the actions, in this order. -/
def AllCompiled (p : DPEProject) (since : List Action) : Prop :=
  DPECompiler.Compiled extension compilers [p.sourcePath, p.workerPath, p.sinkPath]
    (since.filterMap Action.toCompiler)

/-- What there is in each phase, and what has led to it. -/
inductive Phase (as : List Action) (c : DPEController) : Prop where
  | prepare (hstate : c.jobState = .prepare) (hcompiler : ∀ s ∈ c.dpeCompiler, Idle s)
      (hscheduler : c.dpeScheduler = none)
  | compiling {since : List Action} {p : DPEProject} {s : DPECompiler}
      (hstate : c.jobState = .compiling) (hlaunched : Launched extension compilers env as since p)
      (hproject : c.dpeProject = some p) (hcompiler : c.dpeCompiler = some s)
      (hcourse : s.nullCall = true ∨
        DPECompiler.Course extension compilers p (since.filterMap Action.toCompiler) s)
      (hjob : since.filterMap Action.toJob = []) (hscheduler : c.dpeScheduler = none)
  | running {since : List Action} {p : DPEProject} {job : ScheduledJob}
      (hstate : c.jobState = .running) (hlaunched : Launched extension compilers env as since p)
      (hcompiled : AllCompiled extension compilers p since) (hcompiler : c.dpeCompiler = none)
      (hscheduler : c.dpeScheduler = some job)
      (hrun : (JobRun.step env).run (.start p) (since.filterMap Action.toJob) = some job.run)
      (hended : job.run.ended = none) (hfits : job.Fits c.servers)
  | finish {since : List Action} {p : DPEProject} {run : JobRun}
      (hstate : c.jobState = .finish) (hlaunched : Launched extension compilers env as since p)
      (hcompiled : AllCompiled extension compilers p since) (hcompiler : c.dpeCompiler = none)
      (hscheduler : c.dpeScheduler = none)
      (hrun : (JobRun.step env).run (.start p) (since.filterMap Action.toJob) = some run)
      (hended : run.ended = some true) (hsink : run.sink = .stopped .exit 0)
  | failed (hstate : c.jobState = .failed) (hcompiler : ∀ s ∈ c.dpeCompiler, Idle s)
      (hscheduler : c.dpeScheduler = none)

structure Inv (as : List Action) (c : DPEController) : Prop where
  run : (step extension compilers env).run {} as = some c
  servers : (c.servers.map (·.serverAddress)).Nodup
  phase : Phase extension compilers env as c

variable {extension} {compilers} {env} {as since : List Action} {c c' : DPEController}
  {p : DPEProject} {a : Action}

theorem idle_of_none (h : c.dpeCompiler = none) : ∀ s ∈ c.dpeCompiler, Idle s := by simp [h]

theorem Launched.snoc (h : Launched extension compilers env as since p)
    (hrun : (step extension compilers env).run {} as = some c) (ha : c.Lasting a) :
    Launched extension compilers env (as ++ [a]) (since ++ [a]) p := by
  obtain ⟨before, c₀, fs, jobPath, started, c₁, rfl, hp, hbefore, hfree, hstart, hlasting⟩ := h
  obtain ⟨u, hu, hrest⟩ := Machine.run_append.1 hrun
  obtain rfl := Option.some_inj.1 (hbefore.symm.trans hu)
  obtain ⟨v, hv, hsince⟩ := Machine.run_cons.1 hrest
  obtain rfl := Option.some_inj.1 (hstart.symm.trans hv)
  exact ⟨before, c₀, fs, jobPath, started, c₁, by rw [List.append_assoc, List.cons_append], hp,
    hbefore, hfree, hstart, (Machine.meets_append hsince).2 ⟨hlasting, ha, fun _ _ => trivial⟩⟩

theorem filterMap_snoc {β : Type} (f : Action → Option β) (since : List Action) (a : Action) :
    (since ++ [a]).filterMap f = since.filterMap f ++ (f a).toList := by
  rw [List.filterMap_append]
  rcases h : f a with _ | b <;> simp [h]

/-- An action that neither the compiler nor the job hears of, and that leaves them alone. -/
theorem Phase.snoc (h : Phase extension compilers env as c)
    (hrun : (step extension compilers env).run {} as = some c) (ha : c.Lasting a)
    (hcompiler : a.toCompiler = none) (hjob : a.toJob = none) :
    Phase extension compilers env (as ++ [a]) c := by
  have hnone : ∀ {β : Type} {f : Action → Option β}, f a = none → ∀ since : List Action,
      (since ++ [a]).filterMap f = since.filterMap f := fun hf since => by
    rw [filterMap_snoc, hf, Option.toList_none, List.append_nil]
  rcases h with ⟨hs, hc, hsch⟩ | ⟨hs, hl, hp, hc, hcourse, hj, hsch⟩ |
    ⟨hs, hl, hcompiled, hc, hsch, hjobs, hended, hfits⟩ |
    ⟨hs, hl, hcompiled, hc, hsch, hjobs, hended, hsink⟩ | ⟨hs, hc, hsch⟩
  · exact .prepare hs hc hsch
  · exact .compiling hs (hl.snoc hrun ha) hp hc (by rwa [hnone hcompiler]) (by rwa [hnone hjob])
      hsch
  · exact .running hs (hl.snoc hrun ha) (by rwa [AllCompiled, hnone hcompiler]) hc hsch
      (by rwa [hnone hjob]) hended hfits
  · exact .finish hs (hl.snoc hrun ha) (by rwa [AllCompiled, hnone hcompiler]) hc hsch
      (by rwa [hnone hjob]) hended hsink
  · exact .failed hs hc hsch

theorem Inv.add (h : Inv extension compilers env as c) (isLocal : Bool) (address : String) :
    ((c.addRemoteDPEService isLocal address).servers.map (·.serverAddress)).Nodup ∧
      Phase extension compilers env (as ++ [.addRemoteDPEService isLocal address])
        (c.addRemoteDPEService isLocal address) := by
  rw [addRemoteDPEService]
  have hphase := h.phase.snoc (a := .addRemoteDPEService isLocal address) h.run trivial rfl rfl
  split
  · exact ⟨h.servers, hphase⟩
  · next hany =>
    rw [Bool.not_eq_true] at hany
    refine ⟨?_, ?_⟩
    · rw [List.map_append, List.nodup_append]
      refine ⟨h.servers, List.pairwise_singleton _ _, fun x hx y hy => ?_⟩
      rintro rfl
      obtain ⟨s, hs, hsame⟩ := List.mem_map.1 hx
      rw [List.any_eq_false] at hany
      exact hany s hs (decide_eq_true (hsame.trans (List.mem_singleton.1 hy)))
    · rcases hphase with ⟨hs, hc, hsch⟩ | ⟨hs, hl, hp, hc, hcourse, hj, hsch⟩ |
        ⟨hs, hl, hcompiled, hc, hsch, hrun, hended, hfits⟩ |
        ⟨hs, hl, hcompiled, hc, hsch, hrun, hended, hsink⟩ | ⟨hs, hc, hsch⟩ <;>
        rw [hsch]
      · exact .prepare hs hc rfl
      · exact .compiling hs hl hp hc hcourse hj rfl
      · exact .running hs hl hcompiled hc rfl hrun hended (hfits.add hany)
      · exact .finish hs hl hcompiled hc rfl hrun hended hsink
      · exact .failed hs hc rfl

theorem Phase.of_start (h : Phase extension compilers env as c)
    (hrun : (step extension compilers env).run {} as = some c) {fs : FileSystem}
    {jobPath : String} {started : Bool}
    (hstep : step extension compilers env c (.start fs jobPath started) =
      some (c.start extension compilers env fs jobPath started).2) :
    Phase extension compilers env (as ++ [.start fs jobPath started])
      (c.start extension compilers env fs jobPath started).2 := by
  have hbusy : c.jobState = .compiling ∨ c.jobState = .running →
      (c.start extension compilers env fs jobPath started).2 = c := fun hbusy => by
    rcases hbusy with hbusy | hbusy <;> simp [start, hbusy]
  have hfree : c.Free → (∀ s ∈ c.dpeCompiler, Idle s) → c.dpeScheduler = none →
      Phase extension compilers env (as ++ [.start fs jobPath started])
        (c.start extension compilers env fs jobPath started).2 := by
    intro hstate hidle hscheduler
    have hlaunched : ∀ p, DPEProject.fromFile env fs jobPath = some p →
        Launched extension compilers env (as ++ [.start fs jobPath started]) [] p := fun p hp =>
      ⟨as, c, fs, jobPath, started, _, rfl, hp, hrun, hstate, hstep, trivial⟩
    have hprepare : (if c.jobState = .failed ∨ c.jobState = .finish then
        { c with jobState := .prepare } else c) = { c with jobState := .prepare } := by
      rcases hstate with hstate | hstate | hstate
      · rw [if_neg (by simp [hstate]), ← hstate]
      · exact if_pos (.inl hstate)
      · exact if_pos (.inr hstate)
    rw [start, hprepare]
    simp only [ne_eq, not_true_eq_false, if_false]
    rcases hp : DPEProject.fromFile env fs jobPath with _ | p
    · exact .prepare rfl hidle hscheduler
    · have hcases := DPECompiler.start_cases extension compilers p started
      simp only at hcases ⊢
      generalize ({} : DPECompiler).startCompile extension compilers (some p) started = s
        at hcases ⊢
      rcases hcases with ⟨hcourse, hstarted⟩ | ⟨hnot, hidle⟩
      · exact .compiling (if_pos (decide_eq_true hstarted)) (hlaunched p hp) rfl rfl
          (.inr hcourse) rfl hscheduler
      · refine .failed (if_neg (by simpa using hnot)) (fun s hs => ?_) hscheduler
        rw [← Option.mem_some.1 hs]
        exact hidle
  have hsnoc : ¬ c.Free → Phase extension compilers env (as ++ [.start fs jobPath started]) c :=
    fun hnot => h.snoc hrun hnot rfl rfl
  rcases h with ⟨hs, hc, hsch⟩ | ⟨hs, -, -, -, -, -, -⟩ | ⟨hs, -, -, -, -, -, -, -⟩ |
    ⟨hs, -, -, hc, hsch, -, -, -⟩ | ⟨hs, hc, hsch⟩
  · exact hfree (.inl hs) hc hsch
  · rw [hbusy (.inl hs)]
    exact hsnoc (by simp [Free, hs])
  · rw [hbusy (.inr hs)]
    exact hsnoc (by simp [Free, hs])
  · exact hfree (.inr (.inr hs)) (idle_of_none hc) hsch
  · exact hfree (.inr (.inl hs)) hc hsch

theorem toCompiler_ne_start {ca : DPECompiler.Action} (hca : a.toCompiler = some ca)
    (project : Option DPEProject) (started : Bool) : ca ≠ .start project started := by
  rintro rfl
  rcases a with _ | _ | _ | _ | _ | _ | _ | _ <;> simp [Action.toCompiler] at hca

theorem Idle.step {s : DPECompiler} (h : Idle s) {ca : DPECompiler.Action}
    (hca : ∀ project started, ca ≠ .start project started) :
    DPECompiler.step extension compilers s ca = none := by
  obtain ⟨hjob, hposted, hsafe⟩ := h
  rcases ca with ⟨project, started⟩ | ⟨exitCode, exitReason⟩ | started
  · exact absurd rfl (hca project started)
  · simp [DPECompiler.step, hjob]
  · simp [DPECompiler.step, hposted]

theorem Phase.of_compile (h : Phase extension compilers env as c)
    (hrun : (step extension compilers env).run {} as = some c) {ca : DPECompiler.Action}
    (hca : a.toCompiler = some ca) (ha : c.Lasting a) (hjob : a.toJob = none)
    (hservers : (c.servers.map (·.serverAddress)).Nodup) (sourceStarts : Bool)
    (hstep : c.compile extension compilers ca sourceStarts = some c') :
    Phase extension compilers env (as ++ [a]) c' := by
  obtain ⟨s, hs, hstep⟩ := Option.bind_eq_some_iff.1 hstep
  obtain ⟨t, ht, rfl⟩ := Option.map_eq_some_iff.1 hstep
  have hnot := toCompiler_ne_start hca
  have hbusy : ¬Idle s := fun hidle => absurd ht (by simp [hidle.step hnot])
  rcases h with ⟨-, hc, -⟩ | @⟨since, p, s', hstate, hl, hp, hc, hcourse, hj, hsch⟩ |
    ⟨-, -, -, hc, -, -, -, -⟩ | ⟨-, -, -, hc, -, -, -, -⟩ | ⟨-, hc, -⟩
  · exact absurd (hc s hs) hbusy
  · obtain rfl := Option.some_inj.1 (hs.symm.trans hc)
    have hsafe : s.nullCall = false := by
      rw [Bool.eq_false_iff]
      intro hnull
      rcases ca with _ | _ | _ <;> simp [DPECompiler.step, hnull] at ht
    have hcourse := hcourse.resolve_left (by simp [hsafe])
    have hcalls : (since ++ [a]).filterMap Action.toCompiler =
        since.filterMap Action.toCompiler ++ [ca] := by
      rw [filterMap_snoc, hca, Option.toList_some]
    have hevents : (since ++ [a]).filterMap Action.toJob = [] := by
      rw [filterMap_snoc, hjob, hj]
      rfl
    rw [compilerCalls, hcourse.host, List.length_nil, List.drop_zero]
    rcases hcourse.step hnot ht with hgoes | ⟨hnull, hhost⟩ | hhost | ⟨hhost, hcompiled⟩
    · rw [hgoes.host, List.foldl_nil]
      exact .compiling hstate (hl.snoc hrun ha) hp rfl (.inr (hcalls ▸ hgoes)) hevents hsch
    · rw [hhost, List.foldl_nil]
      exact .compiling hstate (hl.snoc hrun ha) hp rfl (.inl hnull) hevents hsch
    · rw [hhost, List.foldl_cons, List.foldl_nil, if_neg (by decide), onCompileError, if_pos hstate]
      exact .failed rfl (idle_of_none rfl) hsch
    · rw [hhost, List.foldl_cons, List.foldl_nil, if_pos rfl, onCompileSuccess,
        if_neg (not_not.2 hstate)]
      split
      · refine .running rfl (hl.snoc hrun ha) (by rwa [AllCompiled, hcalls]) rfl rfl ?_ rfl ?_
        · rw [hevents]
          exact congrArg some (congrArg JobRun.start (by rw [hp]; rfl))
        · exact ScheduledJob.fits_start _ hservers
      · exact .failed rfl (idle_of_none rfl) rfl
  · exact absurd (hs.symm.trans hc) (by simp)
  · exact absurd (hs.symm.trans hc) (by simp)
  · exact absurd (hc s hs) hbusy

/-- The sink of a job that has succeeded has ended well. -/
theorem sink_of_success {e : Option JobRun.Event} {run run' : JobRun}
    (hrun : (JobRun.step env).run run e.toList = some run') (hended : run.ended = none)
    (hsuccess : run'.ended = some true) : run'.sink = .stopped .exit 0 := by
  rcases e with _ | e
  · rw [Option.toList_none, Machine.run_nil, Option.some_inj] at hrun
    rw [← hrun, hended] at hsuccess
    exact absurd hsuccess (by simp)
  · obtain ⟨t, ht, hrun⟩ := Machine.run_cons.1 hrun
    obtain rfl := Option.some_inj.1 hrun
    obtain ⟨rfl, hsink⟩ := JobRun.sinkStop_of_success ht hsuccess
    rw [JobRun.sinkStop_eq ht hsink]

theorem Phase.of_scheduler (h : Phase extension compilers env as c)
    (hrun : (step extension compilers env).run {} as = some c) (ha : c.Lasting a)
    (hcompiler : a.toCompiler = none) {job job' : ScheduledJob} (hjob : c.dpeScheduler = some job)
    (hjobs : (JobRun.step env).run job.run a.toJob.toList = some job'.run)
    (hfits : job.Fits c.servers → job'.Fits c.servers) :
    Phase extension compilers env (as ++ [a]) (c.schedulerCall job') := by
  have hnone : c.dpeScheduler ≠ none := by simp [hjob]
  rcases h with ⟨-, -, hsch⟩ | ⟨-, -, -, -, -, -, hsch⟩ |
    @⟨since, p, job₀, hstate, hl, hcompiled, hc, hsch, hrun₀, hended, hfits₀⟩ |
    ⟨-, -, -, -, hsch, -, -, -⟩ | ⟨-, -, hsch⟩
  · exact absurd hsch hnone
  · exact absurd hsch hnone
  · obtain rfl := Option.some_inj.1 (hjob.symm.trans hsch)
    have hall : (JobRun.step env).run (.start p) ((since ++ [a]).filterMap Action.toJob) =
        some job'.run := by
      rw [filterMap_snoc, Machine.run_append]
      exact ⟨job.run, hrun₀, hjobs⟩
    have hcompiled' : AllCompiled extension compilers p (since ++ [a]) := by
      rwa [AllCompiled, filterMap_snoc, hcompiler, Option.toList_none, List.append_nil]
    rw [schedulerCall]
    rcases hend : job'.run.ended with _ | _ | _ <;> simp only
    · exact .running hstate (hl.snoc hrun ha) hcompiled' hc rfl hall hend (hfits hfits₀)
    · rw [onRunningError, if_pos hstate]
      exact .failed rfl (idle_of_none rfl) rfl
    · rw [onRunningSuccess, if_pos hstate]
      exact .finish rfl (hl.snoc hrun ha) hcompiled' rfl rfl hall hend
        (sink_of_success hjobs hended hend)
  · exact absurd hsch hnone
  · exact absurd hsch hnone

/-! ### The services stay as they are -/

theorem start_servers (fs : FileSystem) (jobPath : String) (started : Bool) (c : DPEController) :
    (c.start extension compilers env fs jobPath started).2.servers = c.servers := by
  rw [start]
  by_cases hover : c.jobState = .failed ∨ c.jobState = .finish <;>
    simp only [hover, if_true, if_false] <;> split <;> try rfl
  all_goals split <;> rfl

theorem compilerCalls_servers (sourceStarts : Bool) (before after : DPECompiler)
    (c : DPEController) : (c.compilerCalls sourceStarts before after).servers = c.servers := by
  have hfold : ∀ (calls : List Bool) (c : DPEController), (calls.foldl (fun c success =>
      if success then c.onCompileSuccess sourceStarts else c.onCompileError) c).servers =
        c.servers := by
    intro calls
    induction calls with
    | nil => exact fun _ => rfl
    | cons success calls ih =>
      intro c
      rw [List.foldl_cons, ih]
      rcases success with _ | _
      · rw [if_neg (by decide), onCompileError]
        split <;> rfl
      · rw [if_pos rfl, onCompileSuccess]
        split
        · rfl
        · split <;> rfl
  exact hfold _ _

theorem schedulerCall_servers (job : ScheduledJob) (c : DPEController) :
    (c.schedulerCall job).servers = c.servers := by
  rw [schedulerCall]
  rcases job.run.ended with _ | _ | _
  · rfl
  · simp only [onRunningError]
    split <;> rfl
  · simp only [onRunningSuccess]
    split <;> rfl

theorem compile_servers {ca : DPECompiler.Action} {sourceStarts : Bool}
    (hstep : c.compile extension compilers ca sourceStarts = some c') : c'.servers = c.servers := by
  obtain ⟨s, hs, hstep⟩ := Option.bind_eq_some_iff.1 hstep
  obtain ⟨t, ht, rfl⟩ := Option.map_eq_some_iff.1 hstep
  exact compilerCalls_servers sourceStarts s t c

/-- A refresh is no call of the scheduler. -/
theorem Phase.schedulerCall_eq (h : Phase extension compilers env as c) {job job' : ScheduledJob}
    (hjob : c.dpeScheduler = some job) (hrun : job'.run = job.run) :
    c.schedulerCall job' = { c with dpeScheduler := some job' } := by
  have hnone : c.dpeScheduler ≠ none := by simp [hjob]
  rcases h with ⟨-, -, hsch⟩ | ⟨-, -, -, -, -, -, hsch⟩ | ⟨-, -, -, -, hsch, -, hended, -⟩ |
    ⟨-, -, -, -, hsch, -, -, -⟩ | ⟨-, -, hsch⟩
  · exact absurd hsch hnone
  · exact absurd hsch hnone
  · obtain rfl := Option.some_inj.1 (hjob.symm.trans hsch)
    rw [schedulerCall, hrun, hended]
  · exact absurd hsch hnone
  · exact absurd hsch hnone

theorem response_run {job job' : ScheduledJob} {i : Nat} {rep : CreateDeviceReply} {starts : Bool}
    {pa : String} {args : Option InitJobArgs}
    (hstep : job.response env i rep starts pa args = some job') :
    (JobRun.step env).run job.run (Action.response i rep starts pa args).toJob.toList =
      some job'.run := by
  obtain ⟨fleet, -, hstep⟩ := Option.bind_eq_some_iff.1 hstep
  rw [Action.toJob]
  rcases hdevice : rep.device starts with _ | address <;> simp only [hdevice] at hstep
  · rw [← Option.some_inj.1 hstep]
    rfl
  · obtain ⟨run, hrun, rfl⟩ := Option.map_eq_some_iff.1 hstep
    exact Machine.run_cons.2 ⟨run, hrun, rfl⟩

theorem inv_step (as : List Action) (c : DPEController) (a : Action) (c' : DPEController)
    (h : Inv extension compilers env as c) (hstep : step extension compilers env c a = some c') :
    Inv extension compilers env (as ++ [a]) c' := by
  have hservers := h.servers
  have hrun : (step extension compilers env).run {} (as ++ [a]) = some c' :=
    Machine.run_append.2 ⟨c, h.run, Machine.run_cons.2 ⟨c', hstep, rfl⟩⟩
  have hcall : ∀ job, Phase extension compilers env (as ++ [a]) (c.schedulerCall job) →
      ((c.schedulerCall job).servers.map (·.serverAddress)).Nodup ∧
        Phase extension compilers env (as ++ [a]) (c.schedulerCall job) := fun job hphase =>
    ⟨by rwa [schedulerCall_servers], hphase⟩
  suffices hboth : (c'.servers.map (·.serverAddress)).Nodup ∧
      Phase extension compilers env (as ++ [a]) c' from ⟨hrun, hboth.1, hboth.2⟩
  clear hrun
  have hstart := hstep
  simp only [step] at hstep
  split at hstep
  · exact absurd hstep (by simp)
  · rcases a with ⟨isLocal, address⟩ | ⟨fs, jobPath, started⟩ | _ | ⟨exitCode, exitReason⟩ |
      ⟨started, sourceStarts⟩ | outcome | ⟨i, rep, starts, pa, args⟩ | e
    · rw [← Option.some_inj.1 hstep]
      exact h.add isLocal address
    · rw [← Option.some_inj.1 hstep]
      rw [← Option.some_inj.1 hstep] at hstart
      exact ⟨by rwa [start_servers], h.phase.of_start h.run hstart⟩
    · rw [← Option.some_inj.1 hstep]
      exact ⟨hservers, .prepare rfl (idle_of_none rfl) rfl⟩
    · exact ⟨by rwa [compile_servers hstep],
        h.phase.of_compile h.run rfl trivial rfl hservers true hstep⟩
    · exact ⟨by rwa [compile_servers hstep],
        h.phase.of_compile h.run rfl trivial rfl hservers sourceStarts hstep⟩
    · obtain ⟨job, hjob, rfl⟩ := Option.map_eq_some_iff.1 hstep
      have hrun : ({ job with fleet := job.fleet.refreshDeviceState outcome } : ScheduledJob).run =
          job.run := rfl
      rw [← h.phase.schedulerCall_eq hjob hrun]
      exact hcall _ (h.phase.of_scheduler (a := .refresh outcome) h.run trivial rfl hjob rfl
        fun hfits => hfits.refresh outcome)
    · obtain ⟨job, hjob, hstep⟩ := Option.bind_eq_some_iff.1 hstep
      obtain ⟨job', hjob', rfl⟩ := Option.map_eq_some_iff.1 hstep
      exact hcall job' (h.phase.of_scheduler (a := .response i rep starts pa args) h.run trivial
        rfl hjob (response_run hjob') fun hfits => hfits.response hjob')
    · have hevent : (∀ pa session args, e ≠ .addDevice pa session args) →
          (c.dpeScheduler.bind fun job => (job.event env e).map fun job => c.schedulerCall job) =
            some c' → (c'.servers.map (·.serverAddress)).Nodup ∧
              Phase extension compilers env (as ++ [.job e]) c' := by
        intro he hstep
        obtain ⟨job, hjob, hstep⟩ := Option.bind_eq_some_iff.1 hstep
        obtain ⟨job', hjob', rfl⟩ := Option.map_eq_some_iff.1 hstep
        refine hcall job' (h.phase.of_scheduler (a := .job e) h.run trivial rfl hjob ?_
          fun hfits => hfits.event he hjob')
        obtain ⟨run, hrun, rfl⟩ := Option.map_eq_some_iff.1 hjob'
        exact Machine.run_cons.2 ⟨run, hrun, rfl⟩
      rcases e with _ | _ | _ | _ | _ | _ | _ | _ | _ | _
      case addDevice => exact absurd hstep (by simp)
      all_goals exact hevent (fun _ _ _ => JobRun.Event.noConfusion) hstep

theorem inv_empty : Inv extension compilers env [] {} :=
  ⟨rfl, List.nodup_nil, .prepare rfl (idle_of_none rfl) rfl⟩

theorem inv_run (hrun : (step extension compilers env).run {} as = some c) :
    Inv extension compilers env as c := by
  have hempty : Inv extension compilers env [] {} := inv_empty
  have hinv := Machine.run_history inv_step hempty hrun
  rwa [List.nil_append] at hinv

/-! ## What the phases say -/

/-- What reads every job file as that of a project of three Python programs. -/
def pythonEnv : ProjectEnv :=
  { JobRun.sampleEnv with
    jsonRead := fun _ => some fun key =>
      if key = "source" ∨ key = "worker" ∨ key = "sink" then some (key ++ ".py") else none }

def pythonCompilers : List CompilerConfiguration :=
  [{ type := "interpreter", languageDetail := [{ language := "python" }] }]

/-- A service, and a job of one task from `Start` to its end. -/
def oneTaskJob : List Action :=
  [.addRemoteDPEService false "tcp://10.0.0.2:5678", .start (fun _ => some []) "job" true,
    .compileFinished 0 .exit, .scheduleNextStep true true, .compileFinished 0 .exit,
    .scheduleNextStep true true, .compileFinished 0 .exit, .scheduleNextStep true true,
    .refresh fun _ => .sent,
    .response 0
      { errorCode := 0
        getString := some fun key =>
          ([("type", "rsc"), ("src", ""), ("dest", ""), ("reply", "CreateDPEDeviceResponse"),
            ("error_code", "0"), ("receive_address", "tcp://10.0.0.2:9"),
            ("send_address", "tcp://10.0.0.2:10"), ("session", "1")] :
              List (String × String)).lookup key }
      true "pa" (some JobRun.sampleArgs),
    .job (.sourceOutput true (Decimal.bytes "1:x\n".toList)),
    .job (.sourceStop .exit 0 (fun _ => none) true), .job (.doAction 0 1),
    .job (.reply 0 (.initJob "0")), .job (.reply 0 (.doTask "0" (some "1") (some [88]))),
    .job (.reduce none), .job (.sinkExit .exit 0), .job .sinkStop]

theorem oneTaskJob_finishes : ((step (fun _ => ".py") pythonCompilers pythonEnv).run {}
    oneTaskJob).map (·.jobState) = some .finish := by decide +kernel

/-- **A job that is finished was done**: the last `Start` that took effect loaded a project, all
three programs of which were then compiled, and what has come since is a whole run of the job, up
to the good end of its sink. -/
theorem finish_earned (hrun : (step extension compilers env).run {} as = some c)
    (hfinish : c.jobState = .finish) :
    ∃ since p run, Launched extension compilers env as since p ∧
      AllCompiled extension compilers p since ∧
      (JobRun.step env).run (.start p) (since.filterMap Action.toJob) = some run ∧
      run.ended = some true ∧ run.sink = .stopped .exit 0 := by
  rcases (inv_run hrun).phase with ⟨hs, -, -⟩ | ⟨hs, -, -, -, -, -, -⟩ |
    ⟨hs, -, -, -, -, -, -, -⟩ | ⟨-, hl, hcompiled, -, -, hjob, hended, hsink⟩ | ⟨hs, -, -⟩
  · exact absurd (hs.symm.trans hfinish) (by decide)
  · exact absurd (hs.symm.trans hfinish) (by decide)
  · exact absurd (hs.symm.trans hfinish) (by decide)
  · exact ⟨_, _, _, hl, hcompiled, hjob, hended, hsink⟩
  · exact absurd (hs.symm.trans hfinish) (by decide)

theorem finish_earned_oneTaskJob :
    ∃ c since p run, (step (fun _ => ".py") pythonCompilers pythonEnv).run {} oneTaskJob = some c ∧
      c.jobState = .finish ∧
      Launched (fun _ => ".py") pythonCompilers pythonEnv oneTaskJob since p ∧
      AllCompiled (fun _ => ".py") pythonCompilers p since ∧
      (JobRun.step pythonEnv).run (.start p) (since.filterMap Action.toJob) = some run ∧
      run.ended = some true ∧ run.sink = .stopped .exit 0 := by
  obtain ⟨c, hrun, hfinish⟩ := Option.map_eq_some_iff.1 oneTaskJob_finishes
  obtain ⟨since, p, run, hjob⟩ := finish_earned hrun hfinish
  exact ⟨c, since, p, run, hrun, hfinish, hjob⟩

/-- A compiler that is at work has a compilation to wait for, or its next step is posted, and was
called back less than six times. -/
theorem busy_of_course {s : DPECompiler} {calls : List DPECompiler.Action}
    (h : DPECompiler.Course extension compilers p calls s) :
    s.host = [] ∧ (s.compiling.isSome = true ∨ s.posted = true) ∧ calls.length < 6 := by
  have hlen : ∀ {files : List String} {done : List DPECompiler.Action},
      DPECompiler.Compiled extension compilers files done → done.length = 2 * files.length := by
    intro files done hdone
    induction hdone with
    | nil => rfl
    | snoc _ _ _ ih =>
      rw [List.length_append, List.length_append, ih, Nat.mul_add]
      rfl
  have hfiles : (DPECompiler.filesBefore p s.state).length ≤ 2 := by
    rcases h.state with hstate | hstate | hstate <;> rw [hstate] <;> simp [DPECompiler.filesBefore]
  refine ⟨h.host, ?_⟩
  rcases h.place with ⟨hdone, -, hjob, -⟩ | ⟨hdone, hposted, -, -⟩ <;> have hdone := hlen hdone
  · exact ⟨.inl (by rw [hjob]; rfl), by omega⟩
  · refine ⟨.inr hposted, ?_⟩
    rw [List.length_append, List.length_singleton]
    omega

/-- **In each phase there is what it needs.**  While the job runs there is a scheduler that has not
reported, whose manager has one creator for each service and no more devices than services; there is
none otherwise.  While the programs are compiled the compiler waits for one of its six callbacks, or
has crashed, and in no other phase does it make a step.  So whenever one of the two calls the
controller, `job_state_` is what the callback asks for. -/
theorem phases (hrun : (step extension compilers env).run {} as = some c) :
    (c.servers.map (·.serverAddress)).Nodup ∧
      (c.dpeScheduler.isSome = true ↔ c.jobState = .running) ∧
      (∀ job ∈ c.dpeScheduler, job.run.ended = none ∧
        job.fleet.dpeList.map (·.service) = c.servers ∧
        job.run.scheduler.deviceList.length ≤ c.servers.length) ∧
      (c.jobState = .compiling → ∃ s ∈ c.dpeCompiler, s.nullCall = true ∨
        s.host = [] ∧ (s.compiling.isSome = true ∨ s.posted = true) ∧
          ∃ since p, Launched extension compilers env as since p ∧
            (since.filterMap Action.toCompiler).length < 6) ∧
      (∀ s ∈ c.dpeCompiler, ∀ ca t, (∀ project started, ca ≠ .start project started) →
        DPECompiler.step extension compilers s ca = some t → c.jobState = .compiling) ∧
      c.jobState ≠ .compiled ∧ c.jobState ≠ .compileError := by
  have hinv := inv_run hrun
  refine ⟨hinv.servers, ?_⟩
  rcases hinv.phase with ⟨hs, hc, hsch⟩ | @⟨since, p, s, hs, hl, -, hc, hcourse, -, hsch⟩ |
    @⟨-, -, job, hs, -, -, hc, hsch, -, hended, hfits⟩ | ⟨hs, -, -, hc, hsch, -, -, -⟩ |
    ⟨hs, hc, hsch⟩ <;> rw [hs, hsch]
  · refine ⟨by simp, by simp, by simp, fun s hcs ca t hca ht => ?_, by simp, by simp⟩
    rw [(hc s hcs).step hca] at ht
    exact absurd ht (by simp)
  · refine ⟨by simp, by simp, fun _ => ⟨s, hc, ?_⟩, by simp, by simp, by simp⟩
    rcases hcourse with hnull | hcourse
    · exact .inl hnull
    · obtain ⟨hhost, hwaits, hlen⟩ := busy_of_course hcourse
      exact .inr ⟨hhost, hwaits, since, p, hl, hlen⟩
  · refine ⟨by simp, fun job' hjob' => ?_, by simp, by simp [hc], by simp, by simp⟩
    rw [← Option.mem_some.1 hjob']
    exact ⟨hended, hfits.services, hfits.length_le⟩
  · exact ⟨by simp, by simp, by simp, by simp [hc], by simp, by simp⟩
  · refine ⟨by simp, by simp, by simp, fun s hcs ca t hca ht => ?_, by simp, by simp⟩
    rw [(hc s hcs).step hca] at ht
    exact absurd ht (by simp)

/-- The same job, up to the moment its task has been given to the device. -/
theorem phases_oneTaskJob :
    ∃ c, (step (fun _ => ".py") pythonCompilers pythonEnv).run {} (oneTaskJob.take 14) = some c ∧
      c.jobState = .running ∧ c.dpeScheduler.isSome = true ∧
      ∀ job ∈ c.dpeScheduler, job.run.scheduler.deviceList.length ≤ c.servers.length := by
  have heval : ((step (fun _ => ".py") pythonCompilers pythonEnv).run {}
      (oneTaskJob.take 14)).map (·.jobState) = some .running := by decide +kernel
  obtain ⟨c, hrun, hstate⟩ := Option.map_eq_some_iff.1 heval
  obtain ⟨-, hscheduler, hjob, -⟩ := phases hrun
  exact ⟨c, hrun, hstate, hscheduler.2 hstate, fun job hmem => (hjob job hmem).2.2⟩

end Phase

end DPEController

end Dcfpe

import Dcfpe.Lib.Machine
import Dcfpe.Process.Run
import Dcfpe.Service.DeviceList
import Dcfpe.Service.Project

/-!
# The scheduler of a job

A `DPEScheduler` runs a project: its source prints the tasks, the devices run them, and when all are
finished the results go to the sink.  A task that is to be run is in `task_queue_`, one that is
running in `running_queue_`, and its state is kept with the task.

The functions are those of `dpe_scheduler.cc`, with the part of `RemoteDPEDeviceManager` that stands
between the scheduler and its devices.  They return what they do outside: `ReduceResult` is posted,
the sink is started and written to, the host is called.  What they send to the devices and save to
files is left out.  `JobRun` is the run of a job, up to the call of its host.
-/

set_option autoImplicit false

namespace Dcfpe

/-- A device in `device_list_`.  `unanswered` is not in the code: the task last sent to the device
has not been answered. -/
structure Listed where
  device : RemoteDPEDevice
  unanswered : Bool := false
  deriving DecidableEq, Repr

namespace Listed

/-- The calls of the last event are done. -/
def ready (w : Listed) : RemoteDPEDevice := { w.device with calls := [] }

/-- `CheckHeartBeatImpl` is going to call `OnDeviceLose`. -/
def lost (expired : Bool) (w : Listed) : Bool := !w.device.hasReply && expired

/-- The reply answers the task last sent to the device. -/
def AnsweredBy (w : Listed) : RscReply → Prop
  | .doTask _ taskId _ => taskId = some w.device.currTaskId
  | _ => False

instance (w : Listed) : DecidablePred w.AnsweredBy
  | .doTask _ taskId _ => inferInstanceAs (Decidable (taskId = some w.device.currTaskId))
  | .initJob _ | .heartBeat _ => inferInstanceAs (Decidable False)

end Listed

structure DPEScheduler where
  project : DPEProject := {}
  projectState : DPEProjectState := {}
  inputData : Bytes := []
  taskQueue : List (Int × Int) := []
  runningQueue : Std.TreeMap Int Int := ∅
  /-- `device_list_` of `dpe_worker_manager_`. -/
  deviceList : List Listed := []
  outputData : Bytes := []

inductive SchedulerDeed where
  /-- `ReduceResult` is posted to the UI thread. -/
  | willReduceResult
  | startSink
  | writeSink (data : Bytes)
  | onRunningError
  | onRunningSuccess
  deriving DecidableEq, Repr

namespace DPEScheduler

/-! ## Handing out tasks -/

/-- `GetWorker`, which is not null exactly if `AvailableWorkerCount` is positive. -/
def getWorker (s : DPEScheduler) : Option Nat :=
  s.deviceList.findIdx? (·.device.deviceState = .runningIdle)

/-- One round of the loop of `OnDeviceAvailable`, `none` when the loop ends. -/
def availableStep (s : DPEScheduler) : Option DPEScheduler :=
  match s.taskQueue with
  | [] => none
  | (id, idx) :: queue =>
    match s.getWorker with
    | none => none
    | some k =>
      match s.projectState.getTask id idx with
      | none => some { s with taskQueue := queue }
      | some i =>
        match s.deviceList[k]?, s.projectState.taskData[i]? with
        | some worker, some task =>
          match worker.device.doTask id idx
            (String.ofList (Decimal.chars (task.input ++ [10]))) with
          | some (device, _) =>
            some
              { s with
                taskQueue := queue
                projectState := s.projectState.setTask i fun task => { task with state := .running }
                runningQueue := s.runningQueue.insertIfNew id idx
                deviceList := s.deviceList.set k { device := device, unanswered := true } }
          | none => some s
        | _, _ => none

def availableLoop : Nat → DPEScheduler → DPEScheduler
  | 0, s => s
  | n + 1, s =>
    match s.availableStep with
    | none => s
    | some s => availableLoop n s

/-- `OnDeviceAvailable`: each round takes the front off the queue. -/
def onDeviceAvailable (s : DPEScheduler) : DPEScheduler := availableLoop s.taskQueue.length s

/-! ## What the manager is told -/

def onTaskSucceed (device : RemoteDPEDevice) (s : DPEScheduler) :
    DPEScheduler × List SchedulerDeed :=
  let id := atoi device.currTaskId
  let s :=
    { s with
      projectState :=
        match s.projectState.getTask id device.currTaskIdx with
        | some i =>
          s.projectState.setTask i fun task =>
            { task with result := device.currTaskOutput, state := .finish }
        | none => s.projectState
      runningQueue := s.runningQueue.erase id }
  if s.taskQueue = [] ∧ s.runningQueue.isEmpty then (s, [.willReduceResult])
  else if device.deviceState = .runningIdle then (s.onDeviceAvailable, [])
  else (s, [])

def onTaskFailed (device : RemoteDPEDevice) (s : DPEScheduler) :
    DPEScheduler × List SchedulerDeed :=
  let id := atoi device.currTaskId
  ({ s with
      projectState :=
        match s.projectState.getTask id device.currTaskIdx with
        | some i => s.projectState.setTask i fun task => { task with state := .error }
        | none => s.projectState
      runningQueue := s.runningQueue.erase id }, [.onRunningError])

/-- `OnDeviceLose`; `state` is that of the device before it was lost. -/
def onDeviceLose (device : RemoteDPEDevice) (state : RemoteDeviceState) (s : DPEScheduler) :
    DPEScheduler :=
  if state = .running then
    let id := atoi device.currTaskId
    let idx := device.currTaskIdx
    { s with
      projectState :=
        match s.projectState.getTask id idx with
        | some i => s.projectState.setTask i fun task => { task with state := .pending }
        | none => s.projectState
      runningQueue := s.runningQueue.erase id
      taskQueue := s.taskQueue ++ [(id, idx)] }
  else s

/-- The manager is called by the device at place `k`, which is in the list as it is now. -/
def managerCall (k : Nat) (device : RemoteDPEDevice) (s : DPEScheduler) :
    ManagerCall → DPEScheduler × List SchedulerDeed
  | .onInitJobFinish =>
    if device.deviceState = .runningIdle then (s.onDeviceAvailable, []) else (s, [])
  | .onTaskSucceed => s.onTaskSucceed device
  | .onTaskFailed => s.onTaskFailed device
  | .onDeviceLose state =>
    let s := s.onDeviceLose device state
    ({ s with deviceList := s.deviceList.eraseIdx k }, [])

/-- The calls that a device has made are carried out. -/
def managerCalls (k : Nat) (device : RemoteDPEDevice) :
    List ManagerCall → DPEScheduler → DPEScheduler × List SchedulerDeed
  | [], s => (s, [])
  | call :: calls, s =>
    let (s, deeds) := s.managerCall k device call
    let (s, more) := managerCalls k device calls s
    (s, deeds ++ more)

def setDevice (k : Nat) (worker : Listed) (s : DPEScheduler) : DPEScheduler :=
  { s with deviceList := s.deviceList.set k worker }

/-- The device at place `k` has become `worker`, which has made its calls. -/
def putDevice (k : Nat) (worker : Listed) (s : DPEScheduler) : DPEScheduler × List SchedulerDeed :=
  (s.setDevice k worker).managerCalls k worker.device worker.device.calls

/-! ## The processes -/

/-- What tells the sink the number of the tasks. -/
def countLine (n : Nat) : Bytes := Decimal.bytes (toString (n : Int)).toList ++ [10]

/-- What tells the sink the result of a task. -/
def resultLine (task : DPETask) : Bytes := task.result ++ [10]

/-- `OnStop` of the source, which looks neither at the exit code nor at the exit reason. -/
def onSourceStop (env : ProjectEnv) (fs : FileSystem) (sinkStarts : Bool) (s : DPEScheduler) :
    DPEScheduler × List SchedulerDeed :=
  let projectState := s.projectState.addInputData s.inputData
  let projectState := (DPEProject.loadSavedState env fs s.project projectState).2
  let s :=
    { s with
      projectState := projectState
      runningQueue := ∅
      taskQueue := projectState.makeTaskQueue }
  if !sinkStarts then (s, [.onRunningError])
  else
    let count := countLine projectState.taskData.length
    let s := { s with outputData := [] }
    if s.taskQueue = [] then (s, [.startSink, .writeSink count, .willReduceResult])
    else (s.onDeviceAvailable, [.startSink, .writeSink count])

def onSinkStop (exitReason : ExitReason) (exitCode : Int) : List SchedulerDeed :=
  if exitCode ≠ 0 ∨ exitReason ≠ .exit then [.onRunningError] else [.onRunningSuccess]

/-- `ReduceResultImpl`, `none` when it returns at once. -/
def reduceResultImpl (s : DPEScheduler) : Option (List Bytes) :=
  if s.taskQueue ≠ [] ∨ !s.runningQueue.isEmpty then none
  else some (s.projectState.taskData.map resultLine)

end DPEScheduler

/-! ## The run of a job -/

inductive SinkState where
  | prepared
  | running
  /-- The process has ended, and its `OnStop` is still to come. -/
  | ended (exitReason : ExitReason) (exitCode : Int)
  | stopped (exitReason : ExitReason) (exitCode : Int)
  deriving DecidableEq, Repr

/-- One pass of `ReduceResultImpl` over the tasks, and how many of their results were written while
there was a process to read them. -/
structure Reduction where
  tasks : List DPETask
  taken : Nat
  deriving DecidableEq, Repr

structure JobRun where
  scheduler : DPEScheduler
  /-- How the source has ended. -/
  source : Option (ExitReason × Int) := none
  sink : SinkState := .prepared
  /-- What was written to the standard input of the sink. -/
  sinkInput : List Bytes := []
  /-- The `ReduceResult` tasks that are posted. -/
  reduces : Nat := 0
  reductions : List Reduction := []
  /-- The host was called, with success or with an error; the scheduler is gone. -/
  ended : Option Bool := none

namespace JobRun

def start (project : DPEProject) : JobRun := { scheduler := { project := project } }

inductive Event where
  | sourceOutput (isStdOut : Bool) (data : Bytes)
  | sourceStop (exitReason : ExitReason) (exitCode : Int) (fs : FileSystem) (sinkStarts : Bool)
  | sinkOutput (isStdOut : Bool) (data : Bytes)
  /-- The process of the sink ends. -/
  | sinkExit (exitReason : ExitReason) (exitCode : Int)
  | sinkStop
  /-- A posted `ReduceResult` runs.  The process of the sink may end when it has got some of the
  results. -/
  | reduce (exit : Option (Nat × ExitReason × Int))
  /-- A device was created, and is told its job if the worker program can be read. -/
  | addDevice (pa session : String) (args : Option InitJobArgs)
  | doAction (k : Nat) (cookie : Int)
  | checkHeartBeat (k : Nat) (expired : Bool)
  | reply (k : Nat) (reply : RscReply)

/-- What the scheduler did outside. -/
def perform (s : JobRun) : SchedulerDeed → JobRun
  | .willReduceResult => { s with reduces := s.reduces + 1 }
  | .startSink => { s with sink := .running }
  | .writeSink data => { s with sinkInput := s.sinkInput ++ [data] }
  | .onRunningError => { s with ended := some false }
  | .onRunningSuccess => { s with ended := some true }

def put (s : JobRun) (r : DPEScheduler × List SchedulerDeed) : JobRun :=
  r.2.foldl perform { s with scheduler := r.1 }

/-- A posted `ReduceResult` is run. -/
def reduce (exit : Option (Nat × ExitReason × Int)) (s : JobRun) : JobRun :=
  let s := { s with reduces := s.reduces - 1 }
  match s.scheduler.reduceResultImpl with
  | none => s
  | some results =>
    let tasks := s.scheduler.projectState.taskData
    let s := { s with sinkInput := s.sinkInput ++ results }
    if s.sink ≠ .running then { s with reductions := s.reductions ++ [⟨tasks, 0⟩] }
    else
      match exit with
      | none => { s with reductions := s.reductions ++ [⟨tasks, tasks.length⟩] }
      | some (n, exitReason, exitCode) =>
        { s with
          reductions := s.reductions ++ [⟨tasks, min n tasks.length⟩]
          sink := .ended exitReason exitCode }

def step (env : ProjectEnv) : Machine JobRun Event
  | s, e =>
    if s.ended.isSome then none
    else
      match e with
      | .sourceOutput isStdOut data =>
        if s.source.isSome then none
        else
          some
            { s with
              scheduler :=
                { s.scheduler with
                  inputData :=
                    if isStdOut then s.scheduler.inputData ++ data else s.scheduler.inputData } }
      | .sourceStop exitReason exitCode fs sinkStarts =>
        if s.source.isSome then none
        else
          some ({ s with source := some (exitReason, exitCode) }.put
            (s.scheduler.onSourceStop env fs sinkStarts))
      | .sinkOutput isStdOut data =>
        match s.sink with
        | .running | .ended _ _ =>
          some
            { s with
              scheduler :=
                { s.scheduler with
                  outputData :=
                    if isStdOut then s.scheduler.outputData ++ data else s.scheduler.outputData } }
        | _ => none
      | .sinkExit exitReason exitCode =>
        if s.sink = .running then some { s with sink := .ended exitReason exitCode } else none
      | .sinkStop =>
        match s.sink with
        | .ended exitReason exitCode =>
          some ({ s with sink := .stopped exitReason exitCode }.put
            (s.scheduler, DPEScheduler.onSinkStop exitReason exitCode))
        | _ => none
      | .reduce exit => if s.reduces = 0 then none else some (s.reduce exit)
      | .addDevice pa session args =>
        let device : RemoteDPEDevice := { pa := pa, session := session }
        let device := (args.bind device.initJob).getD device
        some
          { s with
            scheduler :=
              { s.scheduler with deviceList := s.scheduler.deviceList ++ [{ device := device }] } }
      | .doAction k cookie =>
        s.scheduler.deviceList[k]?.bind fun worker =>
          (worker.ready.doAction cookie).map fun r =>
            s.put (s.scheduler.putDevice k { worker with device := r.1 })
      | .checkHeartBeat k expired =>
        s.scheduler.deviceList[k]?.bind fun worker =>
          -- a device is lost behind another one: `OnDeviceLose` does not come back (`loseLoop`)
          if worker.lost expired ∧ k ≠ 0 then none
          else
            some (s.put (s.scheduler.putDevice k
              { worker with device := (worker.ready.checkHeartBeat expired).1 }))
      | .reply k reply =>
        s.scheduler.deviceList[k]?.map fun worker =>
          s.put (s.scheduler.putDevice k
            { device := worker.ready.handleMessage reply
              unanswered := worker.unanswered && !decide (worker.AnsweredBy reply) })

/-! ## Samples -/

def sampleEnv : ProjectEnv where
  jsonWrite _ := none
  jsonRead _ := none
  md5String _ := ""
  dirName path := path
  append path name := path ++ name

def sampleArgs : InitJobArgs := { jobName := "sample", workerName := "worker.py", data := "pass" }

end JobRun

end Dcfpe

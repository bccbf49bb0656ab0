import Dcfpe.Service.DeviceImpl
import Dcfpe.Service.Scheduler

/-!
# The output of a task on its way to the scheduler

A scheduler with one of its devices, and the two one-way channels between them, over which messages
arrive in the order they were sent, or not at all.  The device is sent one task after the other; a
worker process is started for each, its output is collected in `task_output_data_`, and a reply
takes it back, which the scheduler's side matches with its `curr_task_id_`.

To say whose output is stored for a task, each `DoTask` has a number, and goes with its request, the
worker process and the replies to it.  The scheduler is one of the source, and its device list has
the other devices: what it does with these is a `schedule`, and the tasks that `OnDeviceAvailable`
gives to this device are those of `handOut`.
-/

set_option autoImplicit false

namespace Dcfpe

/-- What is read from a text that was written into a message, if the message can be read. -/
abbrev Transport := Bytes → Option Bytes

namespace RscReply

/-- The reply as `JSONReader` gives it back. -/
def read (transport : Transport) : RscReply → Option RscReply
  | .doTask errorCode taskId (some output) =>
    (transport output).map fun output => .doTask errorCode taskId (some output)
  | reply => some reply

end RscReply

/-- A message on its way, and the number of the `DoTask` that it is or answers. -/
structure Posted (α : Type) where
  message : α
  task : Option Nat := none
  deriving DecidableEq, Repr

/-- A worker process: the number of its `DoTask`, and the chunks of its stdout that `OnOutput` was
given. -/
structure WorkerRun where
  task : Nat
  chunks : List Bytes := []
  deriving DecidableEq, Repr

structure FinishedRun extends WorkerRun where
  exitCode : Int
  exitReason : ExitReason
  deriving DecidableEq, Repr

/-- An output that `OnTaskSucceed` has stored: the place of the task, and the number of the `DoTask`
it was sent with. -/
structure StoredOutput where
  place : Nat
  output : Bytes
  task : Nat
  deriving DecidableEq, Repr

structure TaskLink where
  scheduler : DPEScheduler
  remote : RemoteDPEDevice
  device : DPEDeviceImpl
  requests : List (Posted RscRequest) := []
  replies : List (Posted RscReply) := []
  /-- The place in `task_data_` of the task of each `DoTask`. -/
  sent : List Nat := []
  /-- The worker process whose `OnStop` is still to come. -/
  worker : Option WorkerRun := none
  finished : List FinishedRun := []
  stored : List StoredOutput := []

namespace TaskLink

def start (scheduler : DPEScheduler) (pa session : String) : TaskLink :=
  { scheduler := scheduler
    remote := { pa := pa, session := session }
    device := { session := session } }

inductive Action where
  | initJob (args : InitJobArgs)
  | doAction (cookie : Int)
  /-- The task at place `i` is given to the device. -/
  | handOut (i : Nat)
  /-- The scheduler does something else, with its other devices. -/
  | schedule (scheduler : DPEScheduler)
  | checkHeartBeat (expired : Bool)
  | stop
  | loseRequest (i : Nat)
  | recvRequest (env : DPEDeviceImpl.Env)
  | compileFinished (exitCode : Int) (exitReason : ExitReason)
  | taskOutput (isStdOut : Bool) (data : Bytes)
  | taskStop (exitCode : Int) (exitReason : ExitReason)
  /-- The heart beat check of the device. -/
  | checkDevice (expired : Bool)
  | loseReply (i : Nat)
  | recvReply

/-! ## The scheduler's side -/

def putRemote (task : Option Nat) (r : RemoteDPEDevice × List RscRequest) (l : TaskLink) :
    TaskLink :=
  { l with
    remote := r.1
    requests := l.requests ++ r.2.map fun request => { message := request, task := task } }

def taskIds (s : DPEScheduler) : List Int := s.projectState.taskData.map (·.id)

/-- What `OnDeviceAvailable` does when it takes a task off the queue for this device. -/
def handOut (i : Nat) (l : TaskLink) : Option TaskLink :=
  match l.scheduler.projectState.taskData[i]? with
  | none => none
  | some task =>
    if (task.id, (i : Int)) ∉ l.scheduler.taskQueue then none
    else
      (l.remote.doTask task.id i (String.ofList (Decimal.chars (task.input ++ [10])))).map fun r =>
        { l.putRemote (some l.sent.length) r with
          sent := l.sent ++ [i]
          scheduler :=
            { l.scheduler with
              taskQueue := l.scheduler.taskQueue.erase (task.id, i)
              projectState :=
                l.scheduler.projectState.setTask i fun task => { task with state := .running }
              runningQueue := l.scheduler.runningQueue.insertIfNew task.id i } }

/-- The place of the task whose output `OnTaskSucceed` stores. -/
def storePlace (l : TaskLink) : Option Nat :=
  l.scheduler.projectState.getTask (atoi l.remote.currTaskId) l.remote.currTaskIdx

def onTaskSucceed (l : TaskLink) : TaskLink :=
  { l with
    scheduler := (l.scheduler.onTaskSucceed l.remote).1
    stored := l.stored ++ (l.storePlace.map fun place =>
      { place := place, output := l.remote.currTaskOutput, task := l.sent.length - 1 }).toList }

/-- The device has called its manager. -/
def managerCall (l : TaskLink) : ManagerCall → TaskLink
  | .onInitJobFinish => l
  | .onTaskSucceed => l.onTaskSucceed
  | .onTaskFailed => { l with scheduler := (l.scheduler.onTaskFailed l.remote).1 }
  | .onDeviceLose state => { l with scheduler := l.scheduler.onDeviceLose l.remote state }

def managerCalls (l : TaskLink) : TaskLink := l.remote.calls.foldl managerCall l

/-- The calls of the last event are done. -/
def ready (l : TaskLink) : RemoteDPEDevice := { l.remote with calls := [] }

def recvReply (transport : Transport) (reply : RscReply) (l : TaskLink) : TaskLink :=
  match reply.read transport with
  | none => l
  | some reply => { l with remote := l.ready.handleMessage reply }.managerCalls

/-! ## The device -/

def putDevice (task : Option Nat) (d : DPEDeviceImpl × List RscReply) (l : TaskLink) : TaskLink :=
  { l with
    device := d.1
    replies := l.replies ++ d.2.map fun reply => { message := reply, task := task } }

def recvRequest (env : DPEDeviceImpl.Env) (request : Posted RscRequest) (l : TaskLink) : TaskLink :=
  let d := l.device.handleMessage env request.message
  if d.1.working && !l.device.working then
    { l.putDevice request.task d with worker := request.task.map fun task => { task := task } }
  else l.putDevice request.task d

def taskOutput (isStdOut : Bool) (data : Bytes) (worker : WorkerRun) (l : TaskLink) : TaskLink :=
  { l with
    device := l.device.onOutput isStdOut data
    worker :=
      some (if isStdOut then { worker with chunks := worker.chunks ++ [data] } else worker) }

def taskStop (exitCode : Int) (exitReason : ExitReason) (worker : WorkerRun) (l : TaskLink) :
    TaskLink :=
  { l.putDevice (some worker.task) (l.device.onStop exitCode exitReason) with
    worker := none
    finished :=
      l.finished ++ [{ worker with exitCode := exitCode, exitReason := exitReason }] }

def step (transport : Transport) : Machine TaskLink Action
  | l, .initJob args => (l.remote.initJob args).map fun r => { l with remote := r }
  | l, .doAction cookie => (l.remote.doAction cookie).map (l.putRemote none)
  | l, .handOut i => l.handOut i
  | l, .schedule s =>
    if taskIds s = taskIds l.scheduler then some { l with scheduler := s } else none
  | l, .checkHeartBeat expired =>
    if l.remote.registered then
      some (l.putRemote none (l.ready.checkHeartBeat expired)).managerCalls
    else none
  | l, .stop => some (l.putRemote none l.remote.stop)
  | l, .loseRequest i => some { l with requests := l.requests.eraseIdx i }
  | l, .recvRequest env =>
    match l.requests with
    | [] => none
    | request :: requests =>
      if l.device.registered then some ({ l with requests := requests }.recvRequest env request)
      else none
  | l, .compileFinished exitCode exitReason =>
    if l.device.compiling then
      some (l.putDevice none (l.device.onCompileFinished exitCode exitReason))
    else none
  | l, .taskOutput isStdOut data => l.worker.map fun worker => l.taskOutput isStdOut data worker
  | l, .taskStop exitCode exitReason =>
    l.worker.map fun worker => l.taskStop exitCode exitReason worker
  | l, .checkDevice expired => some { l with device := l.device.checkHeartBeat expired }
  | l, .loseReply i => some { l with replies := l.replies.eraseIdx i }
  | l, .recvReply =>
    match l.replies with
    | [] => none
    | reply :: replies =>
      if l.remote.registered then
        some ({ l with replies := replies }.recvReply transport reply.message)
      else none

end TaskLink

end Dcfpe

import Dcfpe.Process.Run
import Dcfpe.Service.Rsc

/-!
# A device

A `DPEDeviceImpl` is given one job: it writes the source, compiles it unless that was done before,
and from then on runs the compiled program once for each task.  The compilation and the tasks are
child processes, whose ends come back as callbacks on the UI thread.

What the file system and the compiler say is given to `handleInitJobMessage` as an `InitJobEnv`.
Replies are sent while the channels of the device are registered; a device whose channels are
removed handles no more messages.
-/

set_option autoImplicit false

namespace Dcfpe

inductive DPEDeviceState where
  | idle
  | waiting
  | initializing
  | runningIdle
  | running
  | failed
  | closed
  deriving DecidableEq, Repr

/-- What `HandleInitJobMessage` finds: whether there is a compiler, whether the image and the job
description exist, and whether the compilation starts. -/
structure InitJobEnv where
  compilerMade : Bool := true
  alreadyCompiled : Bool := false
  compileStarted : Bool := true
  deriving DecidableEq, Repr

structure DPEDeviceImpl where
  deviceState : DPEDeviceState := .waiting
  session : String
  /-- The channels and the message handler are registered. -/
  registered : Bool := true
  /-- `OnCompileFinished` is still to come. -/
  compiling : Bool := false
  /-- The `OnStop` of the worker process is still to come. -/
  working : Bool := false
  taskId : String := ""
  taskOutputData : List UInt8 := []
  deriving DecidableEq, Repr

namespace DPEDeviceImpl

/-- `SendMessage` on `send_channel_`. -/
def sendMessage (reply : RscReply) (d : DPEDeviceImpl) : DPEDeviceImpl × List RscReply :=
  (d, if d.registered then [reply] else [])

def closeDevice (d : DPEDeviceImpl) : DPEDeviceImpl :=
  if d.deviceState = .idle ∨ d.deviceState = .closed then d
  else { d with registered := false, deviceState := .closed }

/-- `CheckHeartBeatImpl`; `expired` says that the last heart beat is more than two minutes ago. -/
def checkHeartBeat (expired : Bool) (d : DPEDeviceImpl) : DPEDeviceImpl :=
  if expired then d.closeDevice else d

/-! ## Messages -/

def handleHeartBeatMessage (cookie : Int) (d : DPEDeviceImpl) : DPEDeviceImpl × List RscReply :=
  d.sendMessage (.heartBeat cookie)

def handleInitJobMessage (env : InitJobEnv) (pa : String) (args : InitJobArgs)
    (d : DPEDeviceImpl) : DPEDeviceImpl × List RscReply :=
  let quitWithState (state : DPEDeviceState) :=
    { d with deviceState := state }.sendMessage (.initJob "-1")
  if d.deviceState ≠ .waiting then quitWithState d.deviceState
  else if pa.isEmpty ∨ args.jobName.isEmpty ∨ args.workerName.isEmpty ∨ args.data.isEmpty then
    quitWithState d.deviceState
  else if !env.compilerMade then quitWithState d.deviceState
  else if env.alreadyCompiled then
    { d with deviceState := .runningIdle }.sendMessage (.initJob "0")
  else if !env.compileStarted then quitWithState d.deviceState
  else ({ d with deviceState := .initializing, compiling := true }, [])

/-- `started` says whether the worker process starts. -/
def handleDoTaskMessage (started : Bool) (taskId : String) (d : DPEDeviceImpl) :
    DPEDeviceImpl × List RscReply :=
  let quitWithState (state : DPEDeviceState) (d : DPEDeviceImpl) :=
    { d with deviceState := state }.sendMessage (.doTask "-1" none none)
  if d.deviceState ≠ .runningIdle then quitWithState d.deviceState d
  else
    let d := { d with taskOutputData := [] }
    if !started then quitWithState d.deviceState d
    else ({ d with taskId := taskId, deviceState := .running, working := true }, [])

/-- What a message finds when it is handled. -/
structure Env where
  initJob : InitJobEnv := {}
  taskStarted : Bool := true
  deriving DecidableEq, Repr

def handleMessage (env : Env) (req : RscRequest) (d : DPEDeviceImpl) :
    DPEDeviceImpl × List RscReply :=
  if !d.registered then (d, [])
  else if req.session ≠ d.session then (d, [])
  else
    match req.message with
    | .heartBeat cookie => d.handleHeartBeatMessage cookie
    | .initJob args => d.handleInitJobMessage env.initJob req.pa args
    | .doTask taskId _ => d.handleDoTaskMessage env.taskStarted taskId
    | .closeDevice => (d.closeDevice, [])

/-! ## Callbacks -/

def onCompileFinished (exitCode : Int) (exitReason : ExitReason) (d : DPEDeviceImpl) :
    DPEDeviceImpl × List RscReply :=
  let d := { d with compiling := false }
  if exitCode ≠ 0 ∨ exitReason ≠ .exit then
    { d with deviceState := .failed }.sendMessage (.initJob "-1")
  else { d with deviceState := .runningIdle }.sendMessage (.initJob "0")

def onOutput (isStdOut : Bool) (data : List UInt8) (d : DPEDeviceImpl) : DPEDeviceImpl :=
  if isStdOut then { d with taskOutputData := d.taskOutputData ++ data } else d

def onStop (exitCode : Int) (exitReason : ExitReason) (d : DPEDeviceImpl) :
    DPEDeviceImpl × List RscReply :=
  let d := { d with deviceState := .runningIdle, working := false }
  if exitCode ≠ 0 ∨ exitReason ≠ .exit then d.sendMessage (.doTask "-1" (some d.taskId) none)
  else d.sendMessage (.doTask "0" (some d.taskId) (some d.taskOutputData))

end DPEDeviceImpl

end Dcfpe

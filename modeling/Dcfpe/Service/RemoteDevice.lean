import Dcfpe.Service.Rsc

/-!
# The scheduler's side of a device

A `RemoteDPEDevice` stands for a device in the scheduler.  `InitJob` sends its message again and
again, every 100 ms and later every 10 s, until a reply comes or the tries are used up; the
repetition is a `RepeatedAction`, which posts itself as a delayed task each time it has acted.  Any
task that is posted may be the next to run, so the delays themselves do not appear.
-/

set_option autoImplicit false

namespace Dcfpe

/-- A `RepeatedAction` whose closure is bound to some arguments. -/
structure RepeatedAction where
  isRunning : Bool := false
  currentCookie : Int := 0
  action : InitJobArgs
  repeatedTime : Int := -1
  /-- In milliseconds. -/
  interval : Int := 0
  /-- The cookies of the `DoAction` tasks that are posted. -/
  posted : List Int := []
  deriving DecidableEq, Repr

namespace RepeatedAction

/-- What `DoActionImpl` does for its owner. -/
inductive Outcome where
  | nothing
  | run
  | finish
  deriving DecidableEq, Repr

def start (action : InitJobArgs) (interval repeatedTime : Int) (ra : RepeatedAction) :
    RepeatedAction :=
  { isRunning := true
    currentCookie := ra.currentCookie + 1
    action := action
    repeatedTime := repeatedTime
    interval := interval
    posted := ra.posted ++ [ra.currentCookie + 1] }

def restart (interval repeatedTime : Int) (ra : RepeatedAction) : RepeatedAction :=
  if !ra.isRunning then ra
  else
    { ra with
      currentCookie := ra.currentCookie + 1
      repeatedTime := repeatedTime
      interval := interval
      posted := ra.posted ++ [ra.currentCookie + 1] }

def doAction (cookie : Int) (ra : RepeatedAction) : RepeatedAction × Outcome :=
  let ra := { ra with posted := ra.posted.erase cookie }
  if ra.isRunning && cookie == ra.currentCookie then
    if ra.repeatedTime = 0 then (ra, .finish)
    else
      ({ ra with
          repeatedTime := if ra.repeatedTime < 0 then ra.repeatedTime else ra.repeatedTime - 1
          posted := ra.posted ++ [ra.currentCookie] }, .run)
  else (ra, .nothing)

end RepeatedAction

inductive RemoteDeviceState where
  | idle
  | ready
  | initializing
  | runningIdle
  | running
  | failed
  deriving DecidableEq, Repr

/-- What a device calls on its manager; the loss of the device comes with the state before it. -/
inductive ManagerCall where
  | onInitJobFinish
  | onTaskSucceed
  | onTaskFailed
  | onDeviceLose (state : RemoteDeviceState)
  deriving DecidableEq, Repr

structure RemoteDPEDevice where
  deviceState : RemoteDeviceState := .ready
  pa : String
  session : String
  /-- The channels and the message handler are registered. -/
  registered : Bool := true
  currTaskId : String := ""
  currTaskIdx : Int := 0
  currTaskInput : String := ""
  currTaskOutput : List UInt8 := []
  heartBeatId : Int := 0
  hasReply : Bool := true
  doInitJob : Option RepeatedAction := none
  calls : List ManagerCall := []
  deriving DecidableEq, Repr

namespace RemoteDPEDevice

/-- `SendMessage` on `send_channel_`. -/
def sendMessage (message : RscMessage) (r : RemoteDPEDevice) : List RscRequest :=
  if r.registered then [{ pa := r.pa, session := r.session, message := message }] else []

def call (c : ManagerCall) (r : RemoteDPEDevice) : RemoteDPEDevice :=
  { r with calls := r.calls ++ [c] }

def stop (r : RemoteDPEDevice) : RemoteDPEDevice × List RscRequest :=
  ({ r with registered := false, deviceState := .idle }, r.sendMessage .closeDevice)

/-! ## Initializing the job -/

/-- `InitJob`; `args` has the name of the source and what was read from it. -/
def initJob (args : InitJobArgs) (r : RemoteDPEDevice) : Option RemoteDPEDevice :=
  if r.deviceState ≠ .ready then none
  else
    let ra : RepeatedAction := { action := args }
    some
      { r with
        deviceState := .initializing
        doInitJob := some (ra.start args 100 15) }

def trySendInitJobMessage (args : InitJobArgs) (r : RemoteDPEDevice) : List RscRequest :=
  if r.deviceState ≠ .initializing then [] else r.sendMessage (.initJob args)

/-- `OnRepeatedActionFinish`. -/
def onRepeatedActionFinish (ra : RepeatedAction) (r : RemoteDPEDevice) : RemoteDPEDevice :=
  if ra.interval < 1000 then { r with doInitJob := some (ra.restart 10000 6) }
  else { r with doInitJob := none }

/-- A posted `DoAction` of `do_init_job_` runs. -/
def doAction (cookie : Int) (r : RemoteDPEDevice) : Option (RemoteDPEDevice × List RscRequest) :=
  match r.doInitJob with
  | none => none
  | some ra =>
    if cookie ∉ ra.posted then none
    else
      match ra.doAction cookie with
      | (ra, .nothing) => some ({ r with doInitJob := some ra }, [])
      | (ra, .run) => some ({ r with doInitJob := some ra }, r.trySendInitJobMessage ra.action)
      | (ra, .finish) => some (r.onRepeatedActionFinish ra, [])

/-! ## Tasks and heart beats -/

def doTask (taskId taskIdx : Int) (data : String) (r : RemoteDPEDevice) :
    Option (RemoteDPEDevice × List RscRequest) :=
  if r.deviceState ≠ .runningIdle then none
  else some
    ({ r with
        currTaskId := toString taskId
        currTaskIdx := taskIdx
        currTaskInput := data
        currTaskOutput := []
        deviceState := .running }, r.sendMessage (.doTask (toString taskId) data))

/-- `CheckHeartBeatImpl`; `expired` says that the last heart beat was sent more than a minute ago.
When the device is lost, the manager stops it. -/
def checkHeartBeat (expired : Bool) (r : RemoteDPEDevice) : RemoteDPEDevice × List RscRequest :=
  if r.hasReply then
    ({ r with heartBeatId := r.heartBeatId + 1, hasReply := false },
      r.sendMessage (.heartBeat (r.heartBeatId + 1)))
  else if expired then
    ({ r with deviceState := .failed }.call (.onDeviceLose r.deviceState)).stop
  else (r, [])

/-! ## Replies -/

def handleInitJob (errorCode : String) (r : RemoteDPEDevice) : RemoteDPEDevice :=
  if errorCode ≠ "0" then { r with deviceState := .failed }.call .onInitJobFinish
  else { r with deviceState := .runningIdle, doInitJob := none }.call .onInitJobFinish

def handleDoTask (errorCode : String) (taskId : Option String) (taskOutput : Option (List UInt8))
    (r : RemoteDPEDevice) : RemoteDPEDevice :=
  let r := { r with deviceState := .runningIdle }
  if errorCode ≠ "0" then r.call .onTaskFailed
  else if taskId ≠ some r.currTaskId then r.call .onTaskFailed
  else
    match taskOutput with
    | none => r.call .onTaskFailed
    | some output => { r with currTaskOutput := output }.call .onTaskSucceed

def handleMessage (reply : RscReply) (r : RemoteDPEDevice) : RemoteDPEDevice :=
  if r.deviceState = .failed ∨ r.deviceState = .idle then r
  else
    match reply with
    | .initJob errorCode => r.handleInitJob errorCode
    | .doTask errorCode taskId taskOutput => r.handleDoTask errorCode taskId taskOutput
    | .heartBeat cookie => if cookie = r.heartBeatId then { r with hasReply := true } else r

/-- What a device makes of a reply. -/
inductive Heard (r : RemoteDPEDevice) : RscReply → RemoteDPEDevice → Prop where
  | dead {reply : RscReply} (hdead : r.deviceState = .failed ∨ r.deviceState = .idle) :
      Heard r reply r
  | heartBeat {cookie : Int} (halive : ¬ (r.deviceState = .failed ∨ r.deviceState = .idle)) :
      Heard r (.heartBeat cookie) { r with hasReply := cookie = r.heartBeatId || r.hasReply }
  | initJobFailed {errorCode : String}
      (halive : ¬ (r.deviceState = .failed ∨ r.deviceState = .idle)) (hcode : errorCode ≠ "0") :
      Heard r (.initJob errorCode) ({ r with deviceState := .failed }.call .onInitJobFinish)
  | initJobDone (halive : ¬ (r.deviceState = .failed ∨ r.deviceState = .idle)) :
      Heard r (.initJob "0")
        ({ r with deviceState := .runningIdle, doInitJob := none }.call .onInitJobFinish)
  | taskFailed {errorCode : String} {taskId : Option String} {taskOutput : Option (List UInt8)}
      (halive : ¬ (r.deviceState = .failed ∨ r.deviceState = .idle))
      (hbad : errorCode ≠ "0" ∨ taskId ≠ some r.currTaskId ∨ taskOutput = none) :
      Heard r (.doTask errorCode taskId taskOutput)
        ({ r with deviceState := .runningIdle }.call .onTaskFailed)
  | taskSucceeded {output : List UInt8}
      (halive : ¬ (r.deviceState = .failed ∨ r.deviceState = .idle)) :
      Heard r (.doTask "0" (some r.currTaskId) (some output))
        ({ r with deviceState := .runningIdle, currTaskOutput := output }.call .onTaskSucceed)

theorem heard (r : RemoteDPEDevice) (reply : RscReply) : r.Heard reply (r.handleMessage reply) := by
  rw [handleMessage.eq_def]
  split
  · next hdead => exact .dead hdead
  next halive =>
  cases reply with
  | initJob errorCode =>
    simp only [handleInitJob]
    split
    · next hcode => exact .initJobFailed halive hcode
    · next hcode =>
      rw [not_not.1 hcode]
      exact .initJobDone halive
  | heartBeat cookie =>
    have hheard : r.Heard (.heartBeat cookie) _ := .heartBeat halive
    simp only
    split
    · next hcookie => simpa [hcookie] using hheard
    · next hcookie => simpa [hcookie] using hheard
  | doTask errorCode taskId taskOutput =>
    simp only [handleDoTask]
    split
    · next hcode => exact .taskFailed halive (.inl hcode)
    next hcode =>
    split
    · next hid => exact .taskFailed halive (.inr (.inl hid))
    next hid =>
    rw [not_not.1 hcode, not_not.1 hid]
    cases taskOutput with
    | none => exact .taskFailed halive (.inr (.inr rfl))
    | some output => exact .taskSucceeded halive

end RemoteDPEDevice

end Dcfpe

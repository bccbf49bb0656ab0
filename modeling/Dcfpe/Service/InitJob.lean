import Dcfpe.Lib.Machine
import Dcfpe.Service.DeviceImpl
import Dcfpe.Service.RemoteDevice

/-!
# Initializing a job over lossy channels

A scheduler's `RemoteDPEDevice` and the `DPEDeviceImpl` it stands for, with the two one-way channels
between them.  Messages arrive in the order they were sent, or not at all.

The scheduler resends `InitJob` until a reply comes, but the device takes only the first copy it
receives and answers every other one with an error.  The copies are numbered as the device receives
them, and a reply goes with the number of the copy it answers: the reply to copy 0 is the success,
and all the others are errors (`Inv`).
-/

set_option autoImplicit false

namespace Dcfpe

/-- A reply on its way; for a reply to `InitJob`, the copy it answers. -/
structure Answer where
  reply : RscReply
  copy : Option Nat := none
  deriving DecidableEq, Repr

structure DeviceLink where
  remote : RemoteDPEDevice
  device : DPEDeviceImpl
  requests : List RscRequest := []
  replies : List Answer := []
  /-- The copies of `InitJob` the device has received. -/
  copies : Nat := 0
  /-- The copy that has started the compilation. -/
  compileCopy : Nat := 0
  deriving DecidableEq, Repr

namespace DeviceLink

/-- A device that was opened, and the scheduler's side of it, started with its session. -/
def start (pa session : String) : DeviceLink :=
  { remote := { pa := pa, session := session }, device := { session := session } }

inductive Action where
  | initJob (args : InitJobArgs)
  | doAction (cookie : Int)
  | doTask (taskId taskIdx : Int) (data : String)
  | checkHeartBeat (expired : Bool)
  | stop
  | loseRequest (i : Nat)
  | recvRequest (env : DPEDeviceImpl.Env)
  | compileFinished (exitCode : Int) (exitReason : ExitReason)
  | taskOutput (isStdOut : Bool) (data : List UInt8)
  | taskStop (exitCode : Int) (exitReason : ExitReason)
  /-- The heart beat check of the device. -/
  | checkDevice (expired : Bool)
  | loseReply (i : Nat)
  | recvReply
  deriving DecidableEq, Repr

def putRemote (r : RemoteDPEDevice × List RscRequest) (l : DeviceLink) : DeviceLink :=
  { l with remote := r.1, requests := l.requests ++ r.2 }

def putDevice (copy : Option Nat) (d : DPEDeviceImpl × List RscReply) (l : DeviceLink) :
    DeviceLink :=
  { l with
    device := d.1
    replies := l.replies ++ d.2.map fun reply => { reply := reply, copy := copy } }

/-- The request is a copy of `InitJob` that the device takes note of. -/
def IsCopy (l : DeviceLink) (req : RscRequest) : Prop :=
  req.session = l.device.session ∧ ∃ args, req.message = .initJob args

instance (l : DeviceLink) (req : RscRequest) : Decidable (l.IsCopy req) :=
  match h : req.message with
  | .initJob args => decidable_of_iff (req.session = l.device.session)
      ⟨fun hs => ⟨hs, args, h⟩, fun hc => hc.1⟩
  | .heartBeat _ | .doTask _ _ | .closeDevice =>
    isFalse fun hc => by obtain ⟨-, args, heq⟩ := hc; rw [h] at heq; cases heq

def recvRequest (env : DPEDeviceImpl.Env) (req : RscRequest) (l : DeviceLink) : DeviceLink :=
  let d := l.device.handleMessage env req
  if l.IsCopy req then
    { l.putDevice (some l.copies) d with
      copies := l.copies + 1
      compileCopy := if d.1.compiling && !l.device.compiling then l.copies else l.compileCopy }
  else l.putDevice none d

def step : Machine DeviceLink Action
  | l, .initJob args => (l.remote.initJob args).map fun r => { l with remote := r }
  | l, .doAction cookie => (l.remote.doAction cookie).map l.putRemote
  | l, .doTask taskId taskIdx data => (l.remote.doTask taskId taskIdx data).map l.putRemote
  | l, .checkHeartBeat expired =>
    if l.remote.registered then some (l.putRemote (l.remote.checkHeartBeat expired)) else none
  | l, .stop => some (l.putRemote l.remote.stop)
  | l, .loseRequest i => some { l with requests := l.requests.eraseIdx i }
  | l, .recvRequest env =>
    match l.requests with
    | [] => none
    | req :: requests =>
      if l.device.registered then some ({ l with requests := requests }.recvRequest env req)
      else none
  | l, .compileFinished exitCode exitReason =>
    if l.device.compiling then
      some (l.putDevice (some l.compileCopy) (l.device.onCompileFinished exitCode exitReason))
    else none
  | l, .taskOutput isStdOut data =>
    if l.device.working then some { l with device := l.device.onOutput isStdOut data } else none
  | l, .taskStop exitCode exitReason =>
    if l.device.working then some (l.putDevice none (l.device.onStop exitCode exitReason)) else none
  | l, .checkDevice expired => some { l with device := l.device.checkHeartBeat expired }
  | l, .loseReply i => some { l with replies := l.replies.eraseIdx i }
  | l, .recvReply =>
    match l.replies with
    | [] => none
    | answer :: replies =>
      if l.remote.registered then
        some { l with remote := l.remote.handleMessage answer.reply, replies := replies }
      else none

end DeviceLink

end Dcfpe

import Mathlib.Data.List.Basic

/-!
# Messages between a scheduler and its devices

A scheduler and a device exchange JSON dictionaries of type "rsc" over a pair of one-way channels.
A message has the fields its receiver reads; `error_code` and the task output are there or not, as
the sender has set them.
-/

set_option autoImplicit false

namespace Dcfpe

/-- What `InitJob` binds to the closure that sends its message. -/
structure InitJobArgs where
  jobName : String
  workerName : String
  data : String
  deriving DecidableEq, Repr

/-- The "message" of a request, with its own fields. -/
inductive RscMessage where
  | heartBeat (cookie : Int)
  | initJob (args : InitJobArgs)
  | doTask (taskId taskInput : String)
  | closeDevice
  deriving DecidableEq, Repr

structure RscRequest where
  pa : String
  session : String
  message : RscMessage
  deriving DecidableEq, Repr

inductive RscReply where
  | heartBeat (cookie : Int)
  | initJob (errorCode : String)
  | doTask (errorCode : String) (taskId : Option String) (taskOutput : Option (List UInt8))
  deriving DecidableEq, Repr

end Dcfpe

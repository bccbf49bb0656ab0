import Mathlib.Data.Int.Notation

/-!
# The messages of `dpe.proto`

A scalar field of a proto2 message is represented by what its accessor returns: an optional field
that was never set reads as its default, which is what the structure defaults below are.  Presence
is kept only for the two sub-messages of `Request` (and the one of `Response`) because the code
asks for it, with `has_get_task` and `has_finish_compute`.

`int64` values are integers here: ids, results and times are copied and compared, never computed
with, except for the latency sum and the request counter of a worker.
-/

set_option autoImplicit false

namespace Dcfpe

/-- `TaskItem.TaskStatus`; the first one is the default of an unset field. -/
inductive TaskStatus where
  | pending
  | running
  | done
  deriving DecidableEq, Repr, Inhabited

structure TaskItem where
  taskId : Int := 0
  status : TaskStatus := .pending
  result : Int := 0
  timeUsage : Int := 0
  deriving DecidableEq, Repr, Inhabited

structure WorkerStatus where
  workerId : String := ""
  runningTask : List Int := []
  finishedTask : List Int := []
  /-- One way latency, summed over the requests. -/
  latencySum : Int := 0
  requestCount : Int := 0
  updatedTime : Int := 0
  deriving DecidableEq, Repr, Inhabited

/-- What `SaveState` prints to the state file. -/
structure MasterState where
  taskItem : List TaskItem := []
  workerStatus : List WorkerStatus := []
  deriving DecidableEq, Repr, Inhabited

structure GetTaskRequest where
  maxTaskCount : Int := 0
  deriving DecidableEq, Repr

structure GetTaskResponse where
  taskId : List Int := []
  deriving DecidableEq, Repr

structure FinishComputeRequest where
  taskItem : List TaskItem := []
  totalTimeUsage : Int := 0
  deriving DecidableEq, Repr

structure Request where
  name : String := ""
  workerId : String := ""
  requestTimestamp : Int := 0
  getTask : Option GetTaskRequest := none
  finishCompute : Option FinishComputeRequest := none
  deriving DecidableEq, Repr

structure Response where
  name : String := ""
  errorCode : Int := 0
  responseTimestamp : Int := 0
  requestTimestamp : Int := 0
  getTask : Option GetTaskResponse := none
  deriving DecidableEq, Repr

end Dcfpe

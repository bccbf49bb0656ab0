import Dcfpe.Dpe.Proto
import Std.Data.TreeMap
import Std.Data.TreeSet

/-!
# The master node

`DPEMasterNode` keeps the tasks of one job in four containers: the generated order
(`task_queue_`), the ids nobody has taken (`task_pending_queue_`), the ids some worker has taken
(`task_running_queue_`), and a record per id (`task_map_`).  `Start` fills them, `LoadState` marks
what an earlier run finished, and `HandleRequest` serves the two requests of a worker.

The functions here are translations of the ones in `dpe_master_node.cc`.  A `std::map` is a
`TreeMap` and a `std::set` a `TreeSet`, both in key order, as iteration needs them.  What a
function does to the world outside the node — calls of the `Solver`, the post of the teardown, the
write of the state file — it returns as a list of `Effect`s, in the order it does them.

Two things are parameters: `TextFormat`, which is protobuf's printer and parser of the state file,
and the readings of the clock.
-/

set_option autoImplicit false

namespace Dcfpe

open Std

/-- protobuf's `TextFormat` for `MasterState`. -/
structure TextFormat where
  print : MasterState → String
  parse : String → Option MasterState

/-- What `LoadState` finds at `state.txtproto`. -/
inductive StateFile where
  | absent
  | unreadable
  | text (data : String)
  deriving DecidableEq, Repr

/-- What the master does outside its own fields. -/
inductive Effect where
  /-- `Solver::SetResult(size, taskId, result, time_usage, total_time_usage)`; the size is the
  length of the arrays. -/
  | setResult (taskId result timeUsage : List Int) (totalTimeUsage : Int)
  /-- `Solver::Finish()`. -/
  | finish
  /-- `WillExitDpe()`, which posts the teardown to the UI thread. -/
  | willExitDpe
  /-- `base::WriteFile` of the state file. -/
  | writeFile (data : String)
  deriving DecidableEq, Repr

/-- The three readings of the clock a request may take: in `HandleRequest`, in `GetWorker` when it
makes a new record, and in `SaveState`. -/
structure Clock where
  now : Int := 0
  worker : Int := 0
  save : Int := 0
  deriving DecidableEq, Repr

structure MasterNode where
  taskQueue : List Int := []
  taskPendingQueue : List Int := []
  taskRunningQueue : TreeSet Int := ∅
  taskMap : TreeMap Int TaskItem := ∅
  workerMap : TreeMap String WorkerStatus := ∅
  lastSaveTime : Int := 0

namespace MasterNode

variable (tf : TextFormat)

/-! ## Start and LoadState -/

/-- One round of the loop of `Start`: the id is filed as PENDING and queued. -/
def enqueueTask (n : MasterNode) (id : Int) : MasterNode :=
  { n with
    taskMap := n.taskMap.insert id { taskId := id, status := .pending }
    taskPendingQueue := n.taskPendingQueue ++ [id] }

/-- The local `cached_status_` of `LoadState`: of two items with one id the later one stays. -/
def cachedStatus (items : List TaskItem) : TreeMap Int TaskItem :=
  items.foldl (fun m item => m.insert item.taskId item) ∅

/-- The locals of `LoadState` that its loop over `task_queue_` fills, with `task_map_`. -/
structure Loading where
  taskMap : TreeMap Int TaskItem
  taskId : List Int := []
  result : List Int := []
  timeUsage : List Int := []
  newTaskPendingQueue : List Int := []

/-- One round of that loop. -/
def loadTask (cached : TreeMap Int TaskItem) (l : Loading) (id : Int) : Loading :=
  match cached[id]? with
  | some item =>
    if item.status = .done then
      { l with
        taskId := l.taskId ++ [id]
        result := l.result ++ [item.result]
        timeUsage := l.timeUsage ++ [item.timeUsage]
        taskMap := l.taskMap.insert id item }
    else { l with newTaskPendingQueue := l.newTaskPendingQueue ++ [id] }
  | none => { l with newTaskPendingQueue := l.newTaskPendingQueue ++ [id] }

/-- The loop of `LoadState` over the saved workers: a record is copied without its running tasks. -/
def loadWorkers (workers : List WorkerStatus) (m : TreeMap String WorkerStatus) :
    TreeMap String WorkerStatus :=
  workers.foldl (fun m w => m.insert w.workerId { w with runningTask := [] }) m

def loadState (file : StateFile) (n : MasterNode) : MasterNode × List Effect :=
  match file with
  | .absent => (n, [])
  | .unreadable => (n, [])
  | .text data =>
    match tf.parse data with
    | none => (n, [])
    | some masterState =>
      let cached := cachedStatus masterState.taskItem
      let l := n.taskQueue.foldl (loadTask cached) { taskMap := n.taskMap }
      ({ n with
          taskMap := l.taskMap
          workerMap := loadWorkers masterState.workerStatus n.workerMap
          taskPendingQueue := l.newTaskPendingQueue },
        [.setResult l.taskId l.result l.timeUsage 0])

/-- `Start`, in a master whose `ZServer` is up or not (`zserver`).  `tasks` is what
`Solver::GenerateTasks` writes, `readState` the flag, `file` the state file. -/
def start (zserver : Bool) (tasks : List Int) (readState : Bool) (file : StateFile) :
    Bool × MasterNode × List Effect :=
  if zserver then
    let n := tasks.foldl enqueueTask { taskQueue := tasks }
    if readState then
      let (n, effects) := loadState tf file n
      if n.taskPendingQueue.isEmpty && n.taskRunningQueue.isEmpty then
        (true, n, effects ++ [.finish, .willExitDpe])
      else (true, n, effects)
    else (true, n, [])
  else (false, {}, [])

/-! ## Workers and the state file -/

def getWorker (n : MasterNode) (now : Int) (workerId : String) : WorkerStatus :=
  match n.workerMap[workerId]? with
  | some w => w
  | none => { workerId := workerId, latencySum := 0, requestCount := 0, updatedTime := now }

/-- The message `SaveState` prints: every record, in key order. -/
def masterState (n : MasterNode) : MasterState :=
  { taskItem := n.taskMap.toList.map Prod.snd
    workerStatus := n.workerMap.toList.map Prod.snd }

/-- `SaveState`: forced, or the first time, or when the last time is more than three whole minutes
ago (`TimeDelta` counts microseconds and `InMinutes` truncates). -/
def saveState (now : Int) (forceSave : Bool) (n : MasterNode) : MasterNode × List Effect :=
  if forceSave ∨ n.lastSaveTime = 0 ∨ (now - n.lastSaveTime).tdiv 60000000 > 3 then
    ({ n with lastSaveTime := now }, [.writeFile (tf.print n.masterState)])
  else (n, [])

/-! ## HandleRequest -/

/-- `task_map_[id].set_status(status)`; `operator[]` makes a record that is not there. -/
def setStatus (m : TreeMap Int TaskItem) (id : Int) (status : TaskStatus) :
    TreeMap Int TaskItem :=
  m.insert id { m.getD id {} with status := status }

/-- `my_item` of a reported item: result, time and status are written to the record at its id. -/
def setDone (m : TreeMap Int TaskItem) (item : TaskItem) : TreeMap Int TaskItem :=
  m.insert item.taskId
    { m.getD item.taskId {} with
      result := item.result, timeUsage := item.timeUsage, status := .done }

/-- The `while` loop of a GetTask request, on the pending queue it pops from the front.  It carries
the node, the worker's record, the ids put in the response and their number. -/
def getTaskLoop (maxTaskCount : Int) :
    List Int → MasterNode → WorkerStatus → List Int → Int →
      MasterNode × WorkerStatus × List Int
  | [], n, worker, task, _ => (n, worker, task)
  | taskId :: pending, n, worker, task, added =>
    if added < maxTaskCount then
      getTaskLoop maxTaskCount pending
        { n with
          taskPendingQueue := pending
          taskRunningQueue := n.taskRunningQueue.insert taskId
          taskMap := setStatus n.taskMap taskId .running }
        { worker with runningTask := worker.runningTask ++ [taskId] }
        (task ++ [taskId]) (added + 1)
    else (n, worker, task)

/-- The locals of a FinishCompute request that its loop over the items fills, with the node. -/
structure Finishing where
  node : MasterNode
  removedTaskId : TreeSet Int := ∅
  taskId : List Int := []
  result : List Int := []
  timeUsage : List Int := []

/-- One round of that loop: an item counts only while its id is running. -/
def finishItem (f : Finishing) (item : TaskItem) : Finishing :=
  let f := { f with removedTaskId := f.removedTaskId.insert item.taskId }
  if item.taskId ∈ f.node.taskRunningQueue then
    { f with
      node := { f.node with
        taskMap := setDone f.node.taskMap item
        taskRunningQueue := f.node.taskRunningQueue.erase item.taskId }
      taskId := f.taskId ++ [item.taskId]
      result := f.result ++ [item.result]
      timeUsage := f.timeUsage ++ [item.timeUsage] }
  else f

/-- What a FinishCompute request does to the record of the worker that sent it. -/
def finishWorker (worker : WorkerStatus) (removedTaskId : TreeSet Int) : WorkerStatus :=
  { worker with
    runningTask := worker.runningTask.filter (· ∉ removedTaskId)
    finishedTask := worker.finishedTask ++ removedTaskId.toList }

/-- The record of the sender, with this request counted. -/
def touchWorker (clk : Clock) (n : MasterNode) (req : Request) : WorkerStatus :=
  let worker := n.getWorker clk.worker req.workerId
  { worker with
    requestCount := worker.requestCount + 1
    latencySum := worker.latencySum + clk.now - req.requestTimestamp
    updatedTime := clk.now }

/-- `worker` is a reference into `worker_map_`; writing it back is explicit here. -/
def putWorker (n : MasterNode) (workerId : String) (worker : WorkerStatus) : MasterNode :=
  { n with workerMap := n.workerMap.insert workerId worker }

def handleGetTask (n : MasterNode) (worker : WorkerStatus) (workerId : String)
    (getTask : GetTaskRequest) (reply : Response) : MasterNode × Response × List Effect :=
  let (n, worker, task) :=
    getTaskLoop (max getTask.maxTaskCount 1) n.taskPendingQueue n worker [] 0
  (n.putWorker workerId worker, { reply with getTask := some { taskId := task }, errorCode := 0 },
    [])

/-- What `HandleRequest` does after the loop over the items, when there was at least one. -/
def reportResult (clk : Clock) (f : Finishing) (n : MasterNode) (totalTimeUsage : Int) :
    MasterNode × List Effect :=
  let report := Effect.setResult f.taskId f.result f.timeUsage totalTimeUsage
  if n.taskPendingQueue.isEmpty && n.taskRunningQueue.isEmpty then
    let (n, save) := saveState tf clk.save true n
    (n, report :: save ++ [.finish, .willExitDpe])
  else
    let (n, save) := saveState tf clk.save false n
    (n, report :: save)

def handleFinishCompute (clk : Clock) (n : MasterNode) (worker : WorkerStatus) (workerId : String)
    (data : FinishComputeRequest) (reply : Response) : MasterNode × Response × List Effect :=
  let f := data.taskItem.foldl finishItem { node := n }
  let n := f.node.putWorker workerId (finishWorker worker f.removedTaskId)
  let (n, effects) :=
    if data.taskItem.length > 0 then reportResult tf clk f n data.totalTimeUsage else (n, [])
  (n, { reply with errorCode := 0 }, effects)

/-- `HandleRequest`: GetTask goes before FinishCompute, and a request with neither only counts. -/
def handleRequest (clk : Clock) (n : MasterNode) (req : Request) (reply : Response) :
    MasterNode × Response × List Effect :=
  let worker := touchWorker clk n req
  match req.getTask with
  | some getTask => handleGetTask n worker req.workerId getTask reply
  | none =>
    match req.finishCompute with
    | some data => handleFinishCompute tf clk n worker req.workerId data reply
    | none => (n.putWorker req.workerId worker, reply, [])

end MasterNode

/-! ## A run of the master -/

/-- The master and what it has done so far: the file on disk, the effects and the responses, each
oldest first. -/
structure Master where
  node : MasterNode := {}
  file : StateFile := .absent
  effects : List Effect := []
  responses : List Response := []

namespace Master

variable (tf : TextFormat)

/-- The state file after some effects. -/
def writeEffects (file : StateFile) (effects : List Effect) : StateFile :=
  effects.foldl (fun file e => match e with | .writeFile data => .text data | _ => file) file

/-- A master that has just started, its `ZServer` being up. -/
def init (tasks : List Int) (readState : Bool) (file : StateFile) : Master :=
  let (_, n, effects) := MasterNode.start tf true tasks readState file
  { node := n, file := writeEffects file effects, effects := effects }

/-- `ZServer::handle_request` on a request that parsed: the response it prepares, then
`HandleRequest`.  The second component is the time of the response. -/
def handleRequest (clk : Clock) (responseTime : Int) (m : Master) (req : Request) : Master :=
  let rep : Response :=
    { errorCode := -1, name := req.name, responseTimestamp := responseTime,
      requestTimestamp := req.requestTimestamp }
  let (n, rep, effects) := m.node.handleRequest tf clk req rep
  { node := n
    file := writeEffects m.file effects
    effects := m.effects ++ effects
    responses := m.responses ++ [rep] }

/-- One request as it is dispatched: the clock readings and the message. -/
structure Dispatch where
  clk : Clock := {}
  responseTime : Int := 0
  req : Request

/-- The state after a sequence of requests. -/
def serve (m : Master) (ds : List Dispatch) : Master :=
  ds.foldl (fun m d => m.handleRequest tf d.clk d.responseTime d.req) m

end Master

end Dcfpe

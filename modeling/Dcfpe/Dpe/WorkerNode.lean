import Dcfpe.Dpe.Proto
import Dcfpe.Lib.Machine

/-!
# The worker node

A `DPEWorkerNode` runs `thread_number` loops, each of which asks the master for tasks, has the
blocking pool compute them, reports the results, and asks again.  Everything but the computation
happens on the UI thread: the replies of the ZMQ client and the ends of the computations arrive
there as posted tasks, and it is their order that an interleaving chooses.

`Worker` is the process seen from that thread: the node, the requests its ZMQ client has in
`context_` (sent, not answered), the `ExecuteTask` closures in the blocking pool and the queue of
the UI thread.  The handlers are translations of the ones in `dpe_worker_node.cc`, and `run` and
`exitDpeImpl` of those in `dpe.cc`; `Worker.step` lets any unanswered request, any batch or the
front of the queue go next.

The callback of a request is bound to the node and keeps it, so it runs also after `ExitDpeImpl`.
The closures of a batch have a weak pointer, and do nothing when the last of those callbacks has
gone.  The process is left when the main loop, asked to quit, finds its queue empty.
-/

set_option autoImplicit false

namespace Dcfpe

/-- The part of `Flags` a worker reads. -/
structure Flags where
  threadNumber : Nat := 1
  batchSize : Int := 1
  parallelInfo : Int := 0
  deriving DecidableEq, Repr

/-- `ZMQResponse::error_code_`. -/
inductive ZMQRep where
  | errorUnknown
  | ok
  | timeOut
  | error
  deriving DecidableEq, Repr

/-- A `ZMQResponse`; `body` is what `Response::ParseFromString` makes of its data. -/
structure ZMQResponse where
  errorCode : ZMQRep := .ok
  body : Response := {}
  deriving DecidableEq, Repr

/-- The ids of a `GetTaskResponse`. -/
def ZMQResponse.taskIds (rep : ZMQResponse) : List Int :=
  match rep.body.getTask with
  | some task => task.taskId
  | none => []

/-- The two callbacks a worker binds to its requests. -/
inductive Callback where
  | handleGetTask
  | handleFinishCompute (suggestedSize : Int)
  deriving DecidableEq, Repr

/-- The handler of the request neither starts a batch nor sends another request on this reply: it is
an error, or brings no task. -/
def Callback.endsLoop (callback : Callback) (rep : ZMQResponse) : Bool :=
  rep.errorCode != .ok || callback == .handleGetTask && rep.taskIds.isEmpty

/-- The arguments of `FinishExecuteTask`: a batch that has been computed. -/
structure Batch where
  tasks : List Int
  result : List Int
  timeUsage : List Int
  totalTime : Int := 0
  deriving DecidableEq, Repr

/-- A request on its way to the master, from the socket made for it. -/
structure Outgoing where
  socket : Nat
  req : Request
  deriving DecidableEq, Repr

/-- The two computations of `FinishExecuteTaskImpl` in `double`, of the total time and the number of
tasks: whether a task took more than 10 ms, and how many fit in the expected time. -/
structure Timing where
  slow : Int → Nat → Bool := fun _ _ => false
  can : Int → Int → Nat → Int := fun _ _ _ => 0

/-- A closure in the queue of the UI thread. -/
inductive UITask where
  /-- `HandleResponse` with the callback of a request and what became of it. -/
  | handleResponse (callback : Callback) (rep : ZMQResponse)
  | finishExecuteTask (b : Batch)
  | exitDpeImpl
  | quitMainLoop
  deriving DecidableEq, Repr

@[simp] def UITask.batches : UITask → List Batch
  | .handleResponse _ _ => []
  | .finishExecuteTask b => [b]
  | .exitDpeImpl => []
  | .quitMainLoop => []

/-- The callback in the closure is bound to the node. -/
@[simp] def UITask.holdsNode : UITask → Bool
  | .handleResponse _ _ => true
  | .finishExecuteTask _ => false
  | .exitDpeImpl => false
  | .quitMainLoop => false

/-- The closure is a reply on which the handler sends a GetTask. -/
@[simp] def UITask.asks : UITask → Bool
  | .handleResponse callback rep => callback != .handleGetTask && !callback.endsLoop rep
  | .finishExecuteTask _ => false
  | .exitDpeImpl => false
  | .quitMainLoop => false

structure Worker where
  myIp : String := ""
  runningTaskCount : Int := 0
  /-- The ZMQ client's `context_`: sockets of unanswered requests, with their callbacks. -/
  context : List (Nat × Callback) := []
  nextSocket : Nat := 0
  /-- `ExecuteTask` closures posted to the blocking pool. -/
  pool : List (List Int) := []
  /-- The tasks posted to the UI thread, oldest first. -/
  uiTasks : List UITask := []
  /-- The calls of `Solver::Compute`, with what they wrote. -/
  computes : List Batch := []
  /-- How often `WillExitDpe` has been called. -/
  willExit : Nat := 0
  /-- `ExitDpeImpl` has reset `worker_node`. -/
  exited : Bool := false
  /-- `MessageLoop::Quit` has been called: the main loop ends when it is idle. -/
  quitting : Bool := false
  /-- The main loop has ended. -/
  ended : Bool := false
  deriving DecidableEq, Repr

namespace Worker

variable (flags : Flags) (timing : Timing)

/-- The node is there: `worker_node` refers to it, or a callback in `context_` or in the queue that
will still be run. -/
def alive (w : Worker) : Bool :=
  !w.ended && (!w.exited || !w.context.isEmpty || w.uiTasks.any UITask.holdsNode)

/-! ## The handlers -/

def willExitDpe (w : Worker) : Worker :=
  { w with willExit := w.willExit + 1, uiTasks := w.uiTasks ++ [.exitDpeImpl] }

/-- The worker's part of `ExitDpeImpl`. -/
def exitDpeImpl (w : Worker) : Worker :=
  { w with exited := true, uiTasks := w.uiTasks ++ [.quitMainLoop] }

/-- `SendRequest`.  `sent` is what `ZMQClient::SendRequest` returns: if it fails there is no request
and no callback, and the worker does not look. -/
def sendRequest (now : Int) (sent : Bool) (req : Request) (callback : Callback) (w : Worker) :
    Worker × List Outgoing :=
  let req := { req with workerId := w.myIp, requestTimestamp := now }
  if sent then
    ({ w with
        context := w.context ++ [(w.nextSocket, callback)]
        nextSocket := w.nextSocket + 1 },
      [{ socket := w.nextSocket, req := req }])
  else (w, [])

section SendRequest

variable (now : Int) (sent : Bool) (req : Request) (callback : Callback) (w : Worker)

@[simp] theorem sendRequest_runningTaskCount :
    (sendRequest now sent req callback w).1.runningTaskCount = w.runningTaskCount := by
  cases sent <;> rfl

@[simp] theorem sendRequest_pool : (sendRequest now sent req callback w).1.pool = w.pool := by
  cases sent <;> rfl

@[simp] theorem sendRequest_uiTasks :
    (sendRequest now sent req callback w).1.uiTasks = w.uiTasks := by
  cases sent <;> rfl

@[simp] theorem sendRequest_computes :
    (sendRequest now sent req callback w).1.computes = w.computes := by
  cases sent <;> rfl

@[simp] theorem sendRequest_willExit :
    (sendRequest now sent req callback w).1.willExit = w.willExit := by
  cases sent <;> rfl

@[simp] theorem sendRequest_exited :
    (sendRequest now sent req callback w).1.exited = w.exited := by
  cases sent <;> rfl

@[simp] theorem sendRequest_quitting :
    (sendRequest now sent req callback w).1.quitting = w.quitting := by
  cases sent <;> rfl

@[simp] theorem sendRequest_ended : (sendRequest now sent req callback w).1.ended = w.ended := by
  cases sent <;> rfl

/-- The callback of a request keeps the node. -/
theorem sendRequest_alive :
    (sendRequest now sent req callback w).1.alive = (w.alive || sent && !w.ended) := by
  rcases sent with _ | _
  · simp [sendRequest]
  · cases hended : w.ended <;> simp [sendRequest, alive, hended]

theorem mem_sendRequest_snd {o : Outgoing} (h : o ∈ (sendRequest now sent req callback w).2) :
    sent = true ∧ o = { socket := w.nextSocket
                        req := { req with workerId := w.myIp, requestTimestamp := now } } := by
  rcases sent with _ | _
  · simp [sendRequest] at h
  · simpa [sendRequest] using h

end SendRequest

def getNextTask (now : Int) (sent : Bool) (suggestedSize : Int) (w : Worker) :
    Worker × List Outgoing :=
  let getTask : GetTaskRequest :=
    { maxTaskCount := if flags.batchSize > 0 then flags.batchSize else suggestedSize }
  sendRequest now sent { name := "get_task", getTask := some getTask } .handleGetTask w

/-- The loop of `Start`: one request for each thread. -/
def startLoop (now : Int) (sent : Nat → Bool) : Nat → Worker → Worker × List Outgoing
  | 0, w => (w, [])
  | i + 1, w =>
    let (w, out) := startLoop now sent i w
    let (w, out') := getNextTask flags now (sent i) 1 w
    (w, out ++ out')

def start (now : Int) (sent : Nat → Bool) (w : Worker) : Worker × List Outgoing :=
  startLoop flags now sent flags.threadNumber w

/-- The flags that `run` looks at before it makes the node. -/
def beforeStart (myIp : String) : Worker :=
  let w : Worker := { myIp := myIp }
  let w := if flags.threadNumber ≤ 0 then w.willExitDpe else w
  if flags.batchSize = 0 then w.willExitDpe else w

/-- `run`, of a worker. -/
def run (myIp : String) (now : Int) (sent : Nat → Bool) : Worker × List Outgoing :=
  start flags now sent (beforeStart flags myIp)

def handleGetTask (rep : ZMQResponse) (w : Worker) : Worker :=
  if rep.errorCode ≠ .ok then
    if w.runningTaskCount = 0 then w.willExitDpe else w
  else if rep.taskIds.isEmpty then
    if w.runningTaskCount = 0 then w.willExitDpe else w
  else
    { w with
      runningTaskCount := w.runningTaskCount + 1
      pool := w.pool ++ [rep.taskIds] }

def handleFinishCompute (now : Int) (sent : Bool) (suggestedSize : Int) (rep : ZMQResponse)
    (w : Worker) : Worker × List Outgoing :=
  if rep.errorCode ≠ .ok then
    (if w.runningTaskCount = 0 then w.willExitDpe else w, [])
  else getNextTask flags now sent suggestedSize w

/-- How many tasks `FinishExecuteTaskImpl` will ask for next. -/
def suggestedSize (size : Nat) (totalTime : Int) : Int :=
  if size > 0 ∧ flags.batchSize < 0 then
    let suggested :=
      if timing.slow totalTime size then
        let can := timing.can (-flags.batchSize) totalTime size
        if can > 100 then 100 else if can ≤ 0 then 1 else can
      else (size : Int) + 1
    let suggested := if suggested > 100 then 100 else suggested
    if suggested ≤ 0 then 1 else suggested
  else 1

/-- The items of a FinishCompute request: the i-th id with the i-th result and time usage. -/
def finishItems (b : Batch) : List TaskItem :=
  (b.tasks.zip (b.result.zip b.timeUsage)).map fun p =>
    { taskId := p.1, result := p.2.1, timeUsage := p.2.2 }

def finishExecuteTaskImpl (now : Int) (sent : Bool) (b : Batch) (w : Worker) :
    Worker × List Outgoing :=
  let w := { w with runningTaskCount := w.runningTaskCount - 1 }
  let fr : FinishComputeRequest :=
    { taskItem := finishItems b, totalTimeUsage := b.totalTime }
  sendRequest now sent { name := "finish_compute", finishCompute := some fr }
    (.handleFinishCompute (suggestedSize flags timing b.tasks.length b.totalTime)) w

/-! ## The process -/

/-- What can happen next in a worker process. -/
inductive Action where
  /-- The network thread takes the `k`-th unanswered request out of `context_`, with its reply or
  because its time is up, and posts the callback. -/
  | answer (k : Nat) (rep : ZMQResponse)
  /-- A pool thread runs the `k`-th `ExecuteTask`: `Solver::Compute` writes the two arrays. -/
  | compute (k : Nat) (result timeUsage : List Int) (totalTime : Int)
  /-- The UI thread runs its next task. -/
  | ui (now : Int) (sent : Bool)
  /-- The main loop has been asked to quit and finds nothing to run.  The ZMQ client is destroyed,
  and `context_` with it. -/
  | endMainLoop
  deriving DecidableEq, Repr

def runCallback (callback : Callback) (rep : ZMQResponse) (now : Int) (sent : Bool) (w : Worker) :
    Worker × List Outgoing :=
  match callback with
  | .handleGetTask => (handleGetTask rep w, [])
  | .handleFinishCompute suggestedSize =>
    handleFinishCompute flags now sent suggestedSize rep w

/-- Run a task of the UI thread.  The callback of a request is bound to the node and finds it there;
`FinishExecuteTask` has a weak pointer. -/
def runUITask (task : UITask) (now : Int) (sent : Bool) (w : Worker) : Worker × List Outgoing :=
  match task with
  | .handleResponse callback rep => runCallback flags callback rep now sent w
  | .finishExecuteTask b =>
    if w.alive then finishExecuteTaskImpl flags timing now sent b w else (w, [])
  | .exitDpeImpl => (w.exitDpeImpl, [])
  | .quitMainLoop => ({ w with quitting := true }, [])

/-- One step, with the requests it sends. -/
def act (w : Worker) : Action → Option (Worker × List Outgoing)
  | .answer k rep =>
    match w.context[k]? with
    | none => none
    | some (_, callback) =>
      some ({ w with
        context := w.context.eraseIdx k
        uiTasks := w.uiTasks ++ [.handleResponse callback rep] }, [])
  | .compute k result timeUsage totalTime =>
    match w.pool[k]? with
    | none => none
    | some tasks =>
      -- the two arrays are allocated with the size of the batch
      if result.length = tasks.length ∧ timeUsage.length = tasks.length then
        let b : Batch :=
          { tasks := tasks, result := result, timeUsage := timeUsage, totalTime := totalTime }
        some ({ w with
          pool := w.pool.eraseIdx k
          uiTasks := w.uiTasks ++ [.finishExecuteTask b]
          computes := w.computes ++ [b] }, [])
      else none
  | .ui now sent =>
    match w.uiTasks with
    | [] => none
    | task :: tasks =>
      if w.ended then none
      else some (runUITask flags timing task now sent { w with uiTasks := tasks })
  | .endMainLoop =>
    if w.quitting = true ∧ w.uiTasks = [] ∧ w.ended = false then
      some ({ w with ended := true, context := [] }, [])
    else none

/-- A worker process on its own: the replies are any. -/
def step : Machine Worker Action := fun w a => (act flags timing w a).map Prod.fst

/-! ## What the handlers come down to -/

/-- The batches whose `FinishExecuteTask` has not run. -/
def posted (w : Worker) : List Batch := w.uiTasks.flatMap UITask.batches

theorem runCallback_of_endsLoop {callback : Callback} {rep : ZMQResponse}
    (h : callback.endsLoop rep = true) (now : Int) (sent : Bool) (w : Worker) :
    runCallback flags callback rep now sent w =
      (if w.runningTaskCount = 0 then w.willExitDpe else w, []) := by
  rcases callback with _ | size
  · by_cases he : rep.errorCode = .ok <;>
      simp_all [Callback.endsLoop, runCallback, handleGetTask]
  · simp_all [Callback.endsLoop, runCallback, handleFinishCompute]

/-- A GetTask reply with tasks puts a batch into the pool. -/
theorem runCallback_getTask {rep : ZMQResponse}
    (h : Callback.endsLoop .handleGetTask rep = false) (now : Int) (sent : Bool) (w : Worker) :
    runCallback flags .handleGetTask rep now sent w =
      ({ w with
          runningTaskCount := w.runningTaskCount + 1
          pool := w.pool ++ [rep.taskIds] }, []) := by
  simp_all [Callback.endsLoop, runCallback, handleGetTask]

/-- An acknowledged FinishCompute asks for the next tasks. -/
theorem runCallback_finishCompute {rep : ZMQResponse} {size : Int}
    (h : Callback.endsLoop (.handleFinishCompute size) rep = false) (now : Int) (sent : Bool)
    (w : Worker) :
    runCallback flags (.handleFinishCompute size) rep now sent w =
      getNextTask flags now sent size w := by
  simp_all [Callback.endsLoop, runCallback, handleFinishCompute]

/-- A process that has done nothing yet, but may have called `WillExitDpe`. -/
structure Fresh (w : Worker) : Prop where
  runningTaskCount : w.runningTaskCount = 0
  context : w.context = []
  nextSocket : w.nextSocket = 0
  pool : w.pool = []
  uiTasks : w.uiTasks = List.replicate w.willExit .exitDpeImpl
  computes : w.computes = []
  willExit : w.willExit ≤ 2
  exited : w.exited = false
  quitting : w.quitting = false
  ended : w.ended = false

theorem fresh_beforeStart (myIp : String) : (beforeStart flags myIp).Fresh := by
  rw [beforeStart]
  split <;> split <;> exact ⟨rfl, rfl, rfl, rfl, rfl, rfl, by simp [willExitDpe], rfl, rfl, rfl⟩

theorem Fresh.posted {w : Worker} (h : w.Fresh) : w.posted = [] := by
  rw [Worker.posted, h.uiTasks, List.flatMap_eq_nil_iff]
  intro task htask
  rw [List.eq_of_mem_replicate htask]
  rfl

/-- With flags that `run` accepts, the process starts as it is. -/
theorem beforeStart_eq {flags : Flags} (hthreads : 1 ≤ flags.threadNumber)
    (hbatch : flags.batchSize ≠ 0) (myIp : String) :
    beforeStart flags myIp = { myIp := myIp } := by
  rw [beforeStart, if_neg hbatch, if_neg (by omega)]

/-! ## What a step does -/

/-- All that a step can do, by the code that runs in it. -/
inductive Moved (w : Worker) : Action → Worker → List Outgoing → Prop where
  | answer {k : Nat} {rep : ZMQResponse} {socket : Nat} {callback : Callback}
      (hk : w.context[k]? = some (socket, callback)) :
      Moved w (.answer k rep)
        { w with
          context := w.context.eraseIdx k
          uiTasks := w.uiTasks ++ [.handleResponse callback rep] } []
  | compute {k : Nat} {result timeUsage : List Int} {totalTime : Int} {tasks : List Int}
      (hk : w.pool[k]? = some tasks) (hr : result.length = tasks.length)
      (ht : timeUsage.length = tasks.length) :
      Moved w (.compute k result timeUsage totalTime)
        { w with
          pool := w.pool.eraseIdx k
          uiTasks := w.uiTasks ++ [.finishExecuteTask ⟨tasks, result, timeUsage, totalTime⟩]
          computes := w.computes ++ [⟨tasks, result, timeUsage, totalTime⟩] } []
  /-- The results of a batch find the node gone. -/
  | gone {now : Int} {sent : Bool} {b : Batch} {rest : List UITask}
      (hq : w.uiTasks = .finishExecuteTask b :: rest) (hl : w.ended = false)
      (ha : alive { w with uiTasks := rest } = false) :
      Moved w (.ui now sent) { w with uiTasks := rest } []
  | exit {now : Int} {sent : Bool} {rest : List UITask}
      (hq : w.uiTasks = .exitDpeImpl :: rest) (hl : w.ended = false) :
      Moved w (.ui now sent) { w with uiTasks := rest ++ [.quitMainLoop], exited := true } []
  | quit {now : Int} {sent : Bool} {rest : List UITask}
      (hq : w.uiTasks = .quitMainLoop :: rest) (hl : w.ended = false) :
      Moved w (.ui now sent) { w with uiTasks := rest, quitting := true } []
  | ends {now : Int} {sent : Bool} {callback : Callback} {rep : ZMQResponse} {rest : List UITask}
      (hq : w.uiTasks = .handleResponse callback rep :: rest) (hl : w.ended = false)
      (he : callback.endsLoop rep = true) :
      Moved w (.ui now sent)
        (if w.runningTaskCount = 0 then willExitDpe { w with uiTasks := rest }
          else { w with uiTasks := rest }) []
  | take {now : Int} {sent : Bool} {rep : ZMQResponse} {rest : List UITask}
      (hq : w.uiTasks = .handleResponse .handleGetTask rep :: rest) (hl : w.ended = false)
      (he : Callback.endsLoop .handleGetTask rep = false) :
      Moved w (.ui now sent)
        { w with
          uiTasks := rest
          runningTaskCount := w.runningTaskCount + 1
          pool := w.pool ++ [rep.taskIds] } []
  | ask {now : Int} {sent : Bool} {size : Int} {rep : ZMQResponse} {rest : List UITask}
      (hq : w.uiTasks = .handleResponse (.handleFinishCompute size) rep :: rest)
      (hl : w.ended = false) (he : Callback.endsLoop (.handleFinishCompute size) rep = false) :
      Moved w (.ui now sent) (getNextTask flags now sent size { w with uiTasks := rest }).1
        (getNextTask flags now sent size { w with uiTasks := rest }).2
  | finish {now : Int} {sent : Bool} {b : Batch} {rest : List UITask}
      (hq : w.uiTasks = .finishExecuteTask b :: rest) (hl : w.ended = false)
      (ha : alive { w with uiTasks := rest } = true) :
      Moved w (.ui now sent)
        (finishExecuteTaskImpl flags timing now sent b { w with uiTasks := rest }).1
        (finishExecuteTaskImpl flags timing now sent b { w with uiTasks := rest }).2
  | endMainLoop (hq : w.uiTasks = []) (hquit : w.quitting = true) (hl : w.ended = false) :
      Moved w .endMainLoop { w with ended := true, context := [] } []

theorem moved_runCallback {w : Worker} {callback : Callback} {rep : ZMQResponse}
    {rest : List UITask} (hq : w.uiTasks = .handleResponse callback rep :: rest)
    (hl : w.ended = false) (now : Int) (sent : Bool) :
    Moved flags timing w (.ui now sent)
      (runCallback flags callback rep now sent { w with uiTasks := rest }).1
      (runCallback flags callback rep now sent { w with uiTasks := rest }).2 := by
  rcases he : callback.endsLoop rep
  · rcases callback with _ | size
    · rw [runCallback_getTask flags he]
      exact .take hq hl he
    · rw [runCallback_finishCompute flags he]
      exact .ask hq hl he
  · rw [runCallback_of_endsLoop flags he]
    exact .ends hq hl he

theorem moved_runUITask {w : Worker} {task : UITask} {rest : List UITask}
    (hq : w.uiTasks = task :: rest) (hl : w.ended = false) (now : Int) (sent : Bool) :
    Moved flags timing w (.ui now sent)
      (runUITask flags timing task now sent { w with uiTasks := rest }).1
      (runUITask flags timing task now sent { w with uiTasks := rest }).2 := by
  rcases task with ⟨callback, rep⟩ | b | _ | _
  · exact moved_runCallback flags timing hq hl now sent
  · rw [runUITask]
    split
    · next ha => exact .finish hq hl ha
    · next ha => exact .gone hq hl (Bool.eq_false_iff.2 ha)
  · exact .exit hq hl
  · exact .quit hq hl

theorem moved_of_act {w t : Worker} {a : Action} {out : List Outgoing}
    (h : act flags timing w a = some (t, out)) : Moved flags timing w a t out := by
  rcases a with ⟨k, rep⟩ | ⟨k, result, timeUsage, totalTime⟩ | ⟨now, sent⟩ | _
  · simp only [act] at h
    rcases hk : w.context[k]? with _ | ⟨socket, callback⟩
    · simp [hk] at h
    · simp only [hk, Option.some_inj, Prod.mk.injEq] at h
      obtain ⟨rfl, rfl⟩ := h
      exact .answer hk
  · simp only [act] at h
    rcases hk : w.pool[k]? with _ | tasks
    · simp [hk] at h
    · simp only [hk, Option.ite_none_right_eq_some, Option.some_inj, Prod.mk.injEq] at h
      obtain ⟨⟨hr, ht⟩, rfl, rfl⟩ := h
      exact .compute hk hr ht
  · simp only [act] at h
    rcases hq : w.uiTasks with _ | ⟨task, rest⟩
    · simp [hq] at h
    · simp only [hq, Option.ite_none_left_eq_some, Option.some_inj, Prod.ext_iff] at h
      obtain ⟨hl, rfl, rfl⟩ := h
      exact moved_runUITask flags timing hq (Bool.eq_false_iff.2 hl) now sent
  · simp only [act, Option.ite_none_right_eq_some, Option.some_inj, Prod.mk.injEq] at h
    obtain ⟨⟨hquit, hq, hl⟩, rfl, rfl⟩ := h
    exact .endMainLoop hq hquit hl

/-! ## When the node goes -/

/-- The next closure lets go of the node: `ExitDpeImpl` has run or runs now, and no other callback
is bound to the node, nor does this one send a request. -/
def releasesNode (w : Worker) (sent : Bool) : Bool :=
  match w.uiTasks with
  | [] => false
  | task :: rest =>
    w.alive && (w.exited || task = .exitDpeImpl) && w.context.isEmpty &&
      !rest.any UITask.holdsNode && !(sent && task.asks)

theorem releasesNode_of_context {w : Worker} (h : w.context ≠ []) (sent : Bool) :
    w.releasesNode sent = false := by
  rw [releasesNode]
  split
  · rfl
  · simp [h]

theorem alive_of_releasesNode {w : Worker} {sent : Bool} (h : w.releasesNode sent = true) :
    w.alive = true := by
  rw [releasesNode] at h
  split at h
  · cases h
  · simp only [Bool.and_eq_true] at h
    exact h.1.1.1.1

theorem alive_iff {w : Worker} : w.alive = true ↔ w.ended = false ∧
    (w.exited = false ∨ w.context ≠ [] ∨ ∃ task ∈ w.uiTasks, task.holdsNode = true) := by
  simp [alive, or_assoc]

variable {flags timing} {w t : Worker} {out : List Outgoing}

/-- A callback that is about to run has the node. -/
theorem alive_of_handleResponse {callback : Callback} {rep : ZMQResponse} {rest : List UITask}
    (hq : w.uiTasks = .handleResponse callback rep :: rest) (hl : w.ended = false) :
    w.alive = true := by
  simp [alive, hq, hl, UITask.holdsNode]

theorem alive_willExitDpe (w : Worker) : w.willExitDpe.alive = w.alive := by
  simp [willExitDpe, alive]

/-- A closure without a callback does not keep the node. -/
theorem alive_pop {task : UITask} {rest : List UITask} (hq : w.uiTasks = task :: rest)
    (htask : task.holdsNode = false) : alive { w with uiTasks := rest } = w.alive := by
  simp only [alive, hq, List.any_cons, htask, Bool.false_or]

/-- The node is there after a closure, unless that lets go of it. -/
theorem alive_ui {now : Int} {sent : Bool} (hm : Moved flags timing w (.ui now sent) t out)
    (ha : w.alive = true) : t.alive = !w.releasesNode sent := by
  have hreleases {task : UITask} {rest : List UITask} (hq : w.uiTasks = task :: rest) :
      releasesNode w sent = ((w.exited || task = .exitDpeImpl) && w.context.isEmpty &&
        !rest.any UITask.holdsNode && !(sent && task.asks)) := by
    simp [releasesNode, hq, ha]
  have halive (queue : List UITask) (hl : w.ended = false) : alive { w with uiTasks := queue } =
      !(w.exited && w.context.isEmpty && !queue.any UITask.holdsNode) := by
    simp [alive, hl]
  rcases hm with _ | _ | ⟨hq, hl, ha'⟩ | ⟨hq, hl⟩ | ⟨hq, hl⟩ |
    @⟨_, _, callback, rep, rest, hq, hl, he⟩ | ⟨hq, hl, he⟩ |
    @⟨_, _, size, rep, rest, hq, hl, he⟩ | @⟨_, _, b, rest, hq, hl, ha'⟩ <;>
    rw [hreleases hq]
  · rw [alive_pop hq rfl, ha] at ha'
    cases ha'
  · simp [alive, hl]
  · simp [alive, hl]
  · split <;> simp [alive_willExitDpe, halive _ hl, he]
  · simp [alive, hl]
  · rw [getNextTask, sendRequest_alive, halive _ hl]
    cases sent <;> simp [hl, he]
  · rw [finishExecuteTaskImpl, sendRequest_alive, show alive { w with
      uiTasks := rest, runningTaskCount := w.runningTaskCount - 1 } = _ from ha']
    rw [halive _ hl] at ha'
    simpa using ha'

/-- Only a closure or the end of the main loop lets go of the node. -/
theorem alive_moved {a : Action} (hm : Moved flags timing w a t out) (ha : w.alive = true)
    (hui : ∀ now sent, a = .ui now sent → w.releasesNode sent = false)
    (hend : a ≠ .endMainLoop) : t.alive = true := by
  rcases a with ⟨k, rep⟩ | ⟨k, result, timeUsage, totalTime⟩ | ⟨now, sent⟩ | _
  · have hl := (alive_iff.1 ha).1
    rcases hm with ⟨hk⟩
    simp [alive, hl]
  · rcases hm with _ | ⟨hk, hr, hu⟩
    simpa [alive] using ha
  · rw [alive_ui hm ha, hui now sent rfl]
    rfl
  · exact absurd rfl hend

end Worker

end Dcfpe

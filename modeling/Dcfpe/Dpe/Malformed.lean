import Dcfpe.Dpe.MasterRun

/-!
# Requests that do not parse

`ZServer::handle_request` parses the bytes it is given and does not look at the result: whatever
`ParseFromString` left in the message before it gave up goes on to `HandleRequest`.  protobuf is a
parameter here.  The node counts every request in the record of its sender, and an empty message
has a sender too, the one whose id is the empty string; so there is no request that leaves
`worker_map_` as it was, and nothing keeps a partial message from getting further than that.
-/

set_option autoImplicit false

namespace Dcfpe

open Std

/-- The generated code of `Request`: the message `ParseFromString` leaves behind, and whether it
succeeded. -/
structure RequestParser where
  parseFromString : List UInt8 → Request × Bool

/-- The effect is a call of a `Solver` method. -/
def Effect.isSolverCall : Effect → Bool
  | .setResult .. => true
  | .finish => true
  | .willExitDpe => false
  | .writeFile _ => false

namespace MasterNode

variable (tf : TextFormat)

/-- The three containers that hold tasks are as they were. -/
structure SameTasks (n n' : MasterNode) : Prop where
  pending : n'.taskPendingQueue = n.taskPendingQueue
  running : ∀ id, id ∈ n'.taskRunningQueue ↔ id ∈ n.taskRunningQueue
  item : ∀ id : Int, n'.taskMap[id]? = n.taskMap[id]?

/-! ## The record of the sender -/

theorem getTaskLoop_worker (maxTaskCount : Int) (pending : List Int) :
    ∀ (n : MasterNode) (worker : WorkerStatus) (task : List Int) (added : Int),
      (getTaskLoop maxTaskCount pending n worker task added).2.1.requestCount =
        worker.requestCount := by
  induction pending with
  | nil => exact fun _ _ _ _ => rfl
  | cons id pending ih =>
    intro n worker task added
    rw [getTaskLoop]
    split
    · rw [ih]
    · rfl

@[simp] theorem putWorker_workerMap (n : MasterNode) (workerId : String) (worker : WorkerStatus) :
    (n.putWorker workerId worker).workerMap[workerId]? = some worker := by
  simp [putWorker]

theorem handleFinishCompute_worker (clk : Clock) (n : MasterNode) (worker : WorkerStatus)
    (workerId : String) (data : FinishComputeRequest) (reply : Response) :
    ∃ w, (n.handleFinishCompute tf clk worker workerId data reply).1.workerMap[workerId]? =
        some w ∧ w.requestCount = worker.requestCount := by
  obtain ⟨t, hn⟩ := handleFinishCompute_node tf clk n worker workerId data reply rfl
  rw [hn]
  exact ⟨_, putWorker_workerMap _ _ _, rfl⟩

/-- Every request is counted in the record of its sender. -/
theorem handleRequest_counted (n : MasterNode) (clk : Clock) (req : Request) (reply : Response) :
    ∃ w, (n.handleRequest tf clk req reply).1.workerMap[req.workerId]? = some w ∧
      w.requestCount = (n.getWorker clk.worker req.workerId).requestCount + 1 := by
  rw [handleRequest]
  split
  · next getTask hget =>
    refine ⟨_, putWorker_workerMap _ _ _, ?_⟩
    rw [getTaskLoop_worker]
    rfl
  · split
    · exact handleFinishCompute_worker tf clk n _ _ _ _
    · exact ⟨_, putWorker_workerMap _ _ _, rfl⟩

/-- No request leaves `worker_map_` as it was. -/
theorem handleRequest_workerMap (n : MasterNode) (clk : Clock) (req : Request)
    (reply : Response) : ∃ workerId : String,
    (n.handleRequest tf clk req reply).1.workerMap[workerId]? ≠ n.workerMap[workerId]? := by
  obtain ⟨w, hw, hcount⟩ := handleRequest_counted tf n clk req reply
  refine ⟨req.workerId, fun hsame => ?_⟩
  have hget : n.getWorker clk.worker req.workerId = w := by
    rw [getWorker, ← hsame, hw]
  rw [hget] at hcount
  omega

/-! ## What a request is answered with -/

/-- The error code tells whether the message had one of the two sub-messages. -/
theorem handleRequest_errorCode (n : MasterNode) (clk : Clock) (req : Request)
    (reply : Response) : (n.handleRequest tf clk req reply).2.1.errorCode =
      if req.getTask.isSome ∨ req.finishCompute.isSome then 0 else reply.errorCode := by
  rw [handleRequest]
  cases hget : req.getTask with
  | some getTask => simp [handleGetTask]
  | none =>
    cases hfin : req.finishCompute with
    | some data => simp [handleFinishCompute]
    | none => simp

end MasterNode

namespace Master

variable (tf : TextFormat) (parser : RequestParser)

/-- `ZServer::handle_request`: the result of the parse is dropped. -/
def zserverHandleRequest (clk : Clock) (responseTime : Int) (m : Master) (data : List UInt8) :
    Master :=
  let (req, _) := parser.parseFromString data
  m.handleRequest tf clk responseTime req

/-- The tasks are as they were, no `Solver` method was called, and the new response has an error
code that is not 0. -/
structure Refused (m m' : Master) : Prop where
  tasks : MasterNode.SameTasks m.node m'.node
  solver : m'.effects.filter Effect.isSolverCall = m.effects.filter Effect.isSolverCall
  response : ∃ rep, m'.responses = m.responses ++ [rep] ∧ rep.errorCode ≠ 0

/-- A request changed nothing: it was refused, and the workers are as they were. -/
structure Unchanged (m m' : Master) : Prop extends Refused m m' where
  workers : ∀ workerId : String, m'.node.workerMap[workerId]? = m.node.workerMap[workerId]?

theorem handleRequest_response (clk : Clock) (responseTime : Int) (m : Master) (req : Request) :
    ∃ rep, (m.handleRequest tf clk responseTime req).responses = m.responses ++ [rep] ∧
      rep.errorCode = if req.getTask.isSome ∨ req.finishCompute.isSome then 0 else -1 :=
  ⟨_, rfl, MasterNode.handleRequest_errorCode tf m.node clk req _⟩

/-- A message is refused exactly if it has neither sub-message. -/
theorem handleRequest_refused_iff (clk : Clock) (responseTime : Int) (m : Master)
    (req : Request) : Refused m (m.handleRequest tf clk responseTime req) ↔
      req.getTask = none ∧ req.finishCompute = none := by
  constructor
  · rintro ⟨-, -, rep, hrep, hne⟩
    obtain ⟨rep', hrep', hcode⟩ := handleRequest_response tf clk responseTime m req
    obtain rfl : rep = rep' :=
      List.singleton_inj.1 (List.append_cancel_left (hrep.symm.trans hrep'))
    by_contra hsub
    refine hne (hcode.trans (if_pos ?_))
    rw [← Option.ne_none_iff_isSome, ← Option.ne_none_iff_isSome]
    exact not_and_or.1 hsub
  · rintro ⟨hget, hfin⟩
    have hreq : ∀ reply, m.node.handleRequest tf clk req reply =
        (m.node.putWorker req.workerId (m.node.touchWorker clk req), reply, []) := by
      intro reply
      rw [MasterNode.handleRequest, hget, hfin]
    obtain ⟨rep, hrep, hcode⟩ := handleRequest_response tf clk responseTime m req
    refine ⟨?_, ?_, rep, hrep, by simp [hcode, hget, hfin]⟩
    · simp only [handleRequest, hreq]
      exact ⟨rfl, fun _ => Iff.rfl, fun _ => rfl⟩
    · simp only [handleRequest, hreq, List.append_nil]

/-- **No malformed request leaves everything as it was.**  Whatever the state, the bytes and the
part of the message that was parsed, the sender is counted; and the rest of the node is spared only
if the parser did not get as far as one of the two sub-messages. -/
theorem malformed_not_unchanged (clk : Clock) (responseTime : Int) (m : Master)
    (data : List UInt8) :
    ¬ Unchanged m (m.zserverHandleRequest tf parser clk responseTime data) ∧
      (Refused m (m.zserverHandleRequest tf parser clk responseTime data) ↔
        (parser.parseFromString data).1.getTask = none ∧
          (parser.parseFromString data).1.finishCompute = none) := by
  refine ⟨fun h => ?_, handleRequest_refused_iff tf clk responseTime m _⟩
  obtain ⟨workerId, hne⟩ := MasterNode.handleRequest_workerMap tf m.node clk
    (parser.parseFromString data).1
    { errorCode := -1, name := (parser.parseFromString data).1.name,
      responseTimestamp := responseTime,
      requestTimestamp := (parser.parseFromString data).1.requestTimestamp }
  exact hne (h.workers workerId)

/-- An empty `get_task` (field 300) and the tag of a field that is cut off. -/
def truncatedGetTask : List UInt8 := [0xE2, 0x12, 0x00, 0x0A]

/-- protobuf on these bytes: `get_task` is set when the parser gives up. -/
def truncatedParser : RequestParser where
  parseFromString data :=
    if data = truncatedGetTask then ({ getTask := some {} }, false) else ({}, data.isEmpty)

/-- The task it takes is lost: no worker is going to compute it. -/
theorem malformed_takes_task :
    let m := init savedFormat [1] false .absent
    let m' := m.zserverHandleRequest savedFormat truncatedParser {} 0 truncatedGetTask
    (truncatedParser.parseFromString truncatedGetTask).2 = false ∧ ¬ Unchanged m m' ∧
      m'.node.taskPendingQueue = [] ∧ 1 ∈ m'.node.taskRunningQueue ∧
      m'.responses.map Response.errorCode = [0] := by
  refine ⟨rfl, fun h => ?_, by decide, by decide, by decide⟩
  exact absurd h.tasks.pending (by decide)

end Master

end Dcfpe

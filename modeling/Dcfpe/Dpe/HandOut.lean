import Dcfpe.Dpe.MasterRecords
import Dcfpe.Dpe.MasterRun

/-!
# The order in which tasks are handed out

`task_pending_queue_` is filled in generation order and popped from the front by the loop of a
GetTask, and nothing else touches it: not a FinishCompute, whatever it reports, and not the loading
of a state file, which leaves out the tasks that are DONE and keeps the order of the others.  So
what has been handed out, in the order of the responses, together with what is pending is always
the list `Start` left (`handedOut_serve`), and a GetTask gets a front part of the rest whose length
the request and the rest determine (`HandedOut.length`).
-/

set_option autoImplicit false

namespace Dcfpe

open Std

/-! ## One request -/

/-- The number of tasks a GetTask is given when `rest` of them are pending. -/
def GetTaskRequest.share (getTask : GetTaskRequest) (rest : Nat) : Nat :=
  min (max getTask.maxTaskCount 1).toNat rest

/-- What one request does to the pending queue: the response takes its ids from the front. -/
structure HandedOut (pending : List Int) (req : Request) (rep : Response) (pending' : List Int) :
    Prop where
  split : rep.taskIds ++ pending' = pending
  answer : ∀ getTask, req.getTask = some getTask →
    ∃ task, rep.getTask = some task ∧ task.taskId.length = getTask.share pending.length

namespace MasterNode

variable (tf : TextFormat)

/-- The `while` loop pops as many ids as it may, or all there are. -/
theorem getTaskLoop_handedOut (maxTaskCount : Int) (pending : List Int) :
    ∀ (n : MasterNode) (worker : WorkerStatus) (task : List Int) (added : Int),
      n.taskPendingQueue = pending →
      ∃ taken n' worker',
        getTaskLoop maxTaskCount pending n worker task added = (n', worker', task ++ taken) ∧
        taken ++ n'.taskPendingQueue = pending ∧
        taken.length = min (maxTaskCount - added).toNat pending.length := by
  induction pending with
  | nil => exact fun n worker task added hp => ⟨[], n, worker, by simp [getTaskLoop], by simp [hp],
      by simp⟩
  | cons id pending ih =>
    intro n worker task added hp
    rw [getTaskLoop]
    split
    · next hlt =>
      obtain ⟨taken, n', worker', hrun, happ, hlen⟩ := ih
        { n with
          taskPendingQueue := pending
          taskRunningQueue := n.taskRunningQueue.insert id
          taskMap := setStatus n.taskMap id .running }
        { worker with runningTask := worker.runningTask ++ [id] } (task ++ [id]) (added + 1) rfl
      refine ⟨id :: taken, n', worker', by rw [hrun, List.append_assoc]; rfl,
        by rw [List.cons_append, happ], ?_⟩
      rw [List.length_cons, List.length_cons, hlen]
      omega
    · next hge => exact ⟨[], n, worker, by simp, by simp [hp], by simp; omega⟩

theorem finishItem_pending (f : Finishing) (item : TaskItem) :
    (finishItem f item).node.taskPendingQueue = f.node.taskPendingQueue := by
  rw [finishItem]
  dsimp only
  split <;> rfl

theorem finishItems_pending (items : List TaskItem) (f : Finishing) :
    (items.foldl finishItem f).node.taskPendingQueue = f.node.taskPendingQueue := by
  induction items generalizing f with
  | nil => rfl
  | cons item items ih => rw [List.foldl_cons, ih, finishItem_pending]

/-- A FinishCompute leaves the pending queue alone. -/
theorem handleFinishCompute_pending (clk : Clock) (n : MasterNode) (worker : WorkerStatus)
    (workerId : String) (data : FinishComputeRequest) (reply : Response) :
    (n.handleFinishCompute tf clk worker workerId data reply).1.taskPendingQueue =
      n.taskPendingQueue := by
  obtain ⟨t, hn⟩ := handleFinishCompute_node tf clk n worker workerId data reply rfl
  rw [hn]
  exact finishItems_pending data.taskItem { node := n }

theorem handleRequest_handedOut (n : MasterNode) (clk : Clock) (req : Request) {reply : Response}
    (hreply : reply.getTask = none) :
    HandedOut n.taskPendingQueue req (n.handleRequest tf clk req reply).2.1
      (n.handleRequest tf clk req reply).1.taskPendingQueue := by
  cases hget : req.getTask with
  | some getTask =>
    obtain ⟨taken, n', worker', hrun, happ, hlen⟩ := getTaskLoop_handedOut
      (max getTask.maxTaskCount 1) _ n (touchWorker clk n req) [] 0 rfl
    rw [handleRequest, hget]
    simp only [handleGetTask, hrun, List.nil_append]
    refine ⟨happ, fun g hg => ⟨_, rfl, ?_⟩⟩
    obtain rfl : getTask = g := Option.some_inj.1 (hget.symm.trans hg)
    rw [hlen, Int.sub_zero]
    rfl
  | none =>
    refine ⟨?_, fun g hg => absurd (hget.symm.trans hg) (by simp)⟩
    rw [handleRequest_taskIds tf n clk hget hreply, List.nil_append, handleRequest, hget]
    cases hfin : req.finishCompute with
    | none => rfl
    | some data => exact handleFinishCompute_pending tf clk n _ _ data reply

end MasterNode

/-! ## A whole run -/

namespace Master

variable (tf : TextFormat)

/-- The ids handed out so far, in the order of the responses. -/
def handedOut (m : Master) : List Int := m.responses.flatMap Response.taskIds

/-- One dispatched request: the response it adds takes a front part of the pending queue. -/
theorem handedOut_step (m : Master) (d : Dispatch) :
    ∃ rep, (m.handleRequest tf d.clk d.responseTime d.req).responses = m.responses ++ [rep] ∧
      HandedOut m.node.taskPendingQueue d.req rep
        (m.handleRequest tf d.clk d.responseTime d.req).node.taskPendingQueue :=
  ⟨_, rfl, MasterNode.handleRequest_handedOut tf m.node d.clk d.req rfl⟩

/-- Handed out and pending together do not change. -/
theorem handedOut_serve (m : Master) (ds : List Dispatch) :
    (m.serve tf ds).handedOut ++ (m.serve tf ds).node.taskPendingQueue =
      m.handedOut ++ m.node.taskPendingQueue := by
  induction ds generalizing m with
  | nil => rfl
  | cons d ds ih =>
    obtain ⟨rep, hrep, hd⟩ := handedOut_step tf m d
    rw [serve, List.foldl_cons, ← serve, ih, handedOut, hrep, List.flatMap_append,
      List.append_assoc, List.flatMap_singleton, hd.split]
    rfl

theorem responses_serve (m : Master) (ds : List Dispatch) :
    ∃ reps, (m.serve tf ds).responses = m.responses ++ reps ∧ reps.length = ds.length := by
  induction ds generalizing m with
  | nil => exact ⟨[], by simp [serve], rfl⟩
  | cons d ds ih =>
    obtain ⟨reps, hreps, hlen⟩ := ih (m.handleRequest tf d.clk d.responseTime d.req)
    obtain ⟨rep, hrep, -⟩ := handedOut_step tf m d
    exact ⟨rep :: reps,
      by rw [serve, List.foldl_cons, ← serve, hreps, hrep, List.append_assoc]; rfl,
      by simp [hlen]⟩

/-- The pending order `Start` leaves: generation order without the ids loaded as DONE. -/
def pendingOrder (tasks : List Int) (readState : Bool) (file : StateFile) : List Int :=
  tasks.filter fun id => (MasterNode.savedItem tf readState file id).isNone

theorem init_pending (tasks : List Int) (readState : Bool) (file : StateFile) :
    (init tf tasks readState file).handedOut = [] ∧
      (init tf tasks readState file).node.taskPendingQueue =
        pendingOrder tf tasks readState file :=
  ⟨rfl, (MasterNode.start_started tf tasks readState file).pending⟩

/-- **Tasks are handed out first in, first out.**  After any sequence of requests the ids handed
out, response after response, are a front part of the pending order `Start` left; and the request
at any place of the sequence, if it is a GetTask, is answered with exactly as many ids as it may
have of those that were not handed out before it. -/
theorem fifo_hand_out (tasks : List Int) (readState : Bool) (file : StateFile)
    (ds : List Dispatch) :
    let m := (init tf tasks readState file).serve tf ds
    m.handedOut <+: pendingOrder tf tasks readState file ∧
    m.responses.length = ds.length ∧
    ∀ pre d post getTask, ds = pre ++ d :: post → d.req.getTask = some getTask →
      ∃ task, m.responses[pre.length]?.bind Response.getTask = some task ∧
        task.taskId.length = min (max getTask.maxTaskCount 1).toNat
          ((pendingOrder tf tasks readState file).length -
            ((init tf tasks readState file).serve tf pre).handedOut.length) := by
  intro m
  obtain ⟨hnone, hpending⟩ := init_pending tf tasks readState file
  have hsplit : ∀ ds', ((init tf tasks readState file).serve tf ds').handedOut ++
      ((init tf tasks readState file).serve tf ds').node.taskPendingQueue =
        pendingOrder tf tasks readState file := by
    intro ds'
    rw [handedOut_serve, hnone, hpending, List.nil_append]
  have hresponses : ∀ ds', ((init tf tasks readState file).serve tf ds').responses.length =
      ds'.length := by
    intro ds'
    obtain ⟨reps, hreps, hlen⟩ := responses_serve tf (init tf tasks readState file) ds'
    rw [hreps, ← hlen]
    rfl
  refine ⟨⟨_, hsplit ds⟩, hresponses ds, ?_⟩
  rintro pre d post getTask rfl hget
  -- the state in which `d` is served, and the response it adds to those before it
  obtain ⟨rep, hrep, hd⟩ := handedOut_step tf ((init tf tasks readState file).serve tf pre) d
  obtain ⟨task, htask, hlen⟩ := hd.answer getTask hget
  obtain ⟨reps, hreps, -⟩ := responses_serve tf
    (((init tf tasks readState file).serve tf pre).handleRequest tf d.clk d.responseTime d.req) post
  have hm : m.responses =
      ((init tf tasks readState file).serve tf pre).responses ++ rep :: reps := by
    rw [show m = (((init tf tasks readState file).serve tf pre).handleRequest tf d.clk
        d.responseTime d.req).serve tf post from serve_append tf _ pre (d :: post),
      hreps, hrep, List.append_assoc]
    rfl
  refine ⟨task, ?_, ?_⟩
  · rw [hm, ← hresponses pre, List.getElem?_append_right (Nat.le_refl _), Nat.sub_self]
    exact htask
  · have hrest := congrArg List.length (hsplit pre)
    rw [List.length_append] at hrest
    rw [hlen, GetTaskRequest.share]
    omega

end Master

end Dcfpe

import Dcfpe.Dpe.ComputedOnce
import Dcfpe.Dpe.HandOut

/-!
# Every run is finite

A loop of a worker asks for tasks, computes them, reports them and asks again, and it is only the
pending queue of the master that lets it go round: a GetTask that is given nothing ends the loop, as
every error does, and may have the worker quit.  `Cluster.workLeft` prices each message, request,
batch and closure by what can still come of it, and a pending task by what a loop can do for it;
every step but the start of a worker makes it fall, whatever is lost or times out (`spent_step`).
-/

set_option autoImplicit false

namespace Dcfpe

open Tokens

/-! ## How much can still happen -/

/-- What can still come of a reply: a batch, if it brings tasks. -/
def Response.worth (rep : Response) : Nat := if rep.taskIds = [] then 1 else 9

def Callback.worth : Callback → Nat
  | .handleGetTask => 4
  | .handleFinishCompute _ => 7

def UITask.worth : UITask → Nat
  | .handleResponse callback rep =>
    if callback.endsLoop rep then 3
    else match callback with
      | .handleGetTask => 12
      | .handleFinishCompute _ => 7
  | .finishExecuteTask _ => 10
  | .exitDpeImpl => 2
  | .quitMainLoop => 1

theorem Response.one_le_worth (rep : Response) : 1 ≤ rep.worth := by
  rw [Response.worth]
  split <;> decide

theorem UITask.one_le_worth (task : UITask) : 1 ≤ task.worth := by
  rcases task with ⟨callback, rep⟩ | b | _ | _
  · rcases callback with _ | size <;> simp only [UITask.worth] <;> split <;> decide
  · exact Nat.le_add_left 1 9
  · exact Nat.le_add_left 1 1
  · exact Nat.le_refl 1

namespace Worker

variable {flags : Flags} {timing : Timing}

def workLeft (w : Worker) : Nat :=
  weight (fun entry => entry.2.worth) w.context + 11 * w.pool.length +
    weight UITask.worth w.uiTasks + if w.ended then 0 else 1

/-- What an answer brings into the worker. -/
def Action.worth : Action → Nat
  | .answer _ rep => if rep.errorCode = .ok then rep.body.worth else 0
  | _ => 0

/-- An answer is worth less in the queue of the UI thread than it and its request were before. -/
theorem worth_handleResponse (callback : Callback) (rep : ZMQResponse) :
    (UITask.handleResponse callback rep).worth + 1 ≤
      callback.worth + (if rep.errorCode = .ok then rep.body.worth else 0) := by
  rcases he : callback.endsLoop rep with _ | _
  · have hok : rep.errorCode = .ok := by
      simp only [Callback.endsLoop, Bool.or_eq_false_iff, bne_eq_false_iff_eq] at he
      exact he.1
    have hbody := rep.body.one_le_worth
    rcases callback with _ | size
    · have htasks : rep.body.taskIds ≠ [] := by
        simp only [Callback.endsLoop, hok, bne_self_eq_false, Bool.false_or,
          Bool.and_eq_false_imp, beq_self_eq_true, forall_const] at he
        rintro hnil
        have : rep.taskIds = [] := hnil
        simp [this] at he
      simp [UITask.worth, he, hok, Callback.worth, Response.worth, htasks]
    · simp only [UITask.worth, he, hok, Callback.worth, if_true]
      simp only [Bool.false_eq_true, if_false]
      omega
  · have hcallback : 4 ≤ callback.worth := by
      rcases callback with _ | size
      · exact Nat.le_refl 4
      · exact Nat.le_add_left 4 3
    simp only [UITask.worth, he, if_true]
    omega

theorem workLeft_sendRequest (now : Int) (sent : Bool) (req : Request) (callback : Callback)
    (w : Worker) :
    (sendRequest now sent req callback w).1.workLeft +
        2 * (sendRequest now sent req callback w).2.length ≤
      w.workLeft + callback.worth + 2 := by
  rcases sent with _ | _
  · exact Nat.le_add_right_of_le (Nat.le_add_right _ _)
  · simp only [sendRequest, if_true, workLeft, weight_append, weight_cons, weight_nil,
      List.length_singleton]
    omega

theorem workLeft_pop {w : Worker} {task : UITask} {rest : List UITask}
    (hq : w.uiTasks = task :: rest) :
    workLeft { w with uiTasks := rest } + task.worth = w.workLeft := by
  simp only [workLeft, hq, weight_cons]
  omega

/-- **A step of a worker spends something**, the requests it sends included. -/
theorem workLeft_moved {w t : Worker} {a : Action} {out : List Outgoing}
    (hm : Moved flags timing w a t out) :
    t.workLeft + 2 * out.length + 1 ≤ w.workLeft + a.worth := by
  rcases hm with @⟨k, rep, socket, callback, hk⟩ | ⟨hk, hr, hu⟩ | ⟨hq, hl, ha⟩ |
    @⟨now, sent, rest, hq, hl⟩ | @⟨now, sent, rest, hq, hl⟩ |
    @⟨now, sent, callback, rep, rest, hq, hl, he⟩ | @⟨now, sent, rep, rest, hq, hl, he⟩ |
    @⟨now, sent, size, rep, rest, hq, hl, he⟩ | @⟨now, sent, b, rest, hq, hl, ha⟩ |
    ⟨hq, hquit, hl⟩
  · have hctx := weight_eraseIdx (fun entry : Nat × Callback => entry.2.worth) hk
    have hworth := worth_handleResponse callback rep
    simp only [workLeft, Action.worth, weight_append, weight_cons, weight_nil, List.length_nil]
      at hctx hworth ⊢
    omega
  · obtain ⟨hlt, -⟩ := List.getElem?_eq_some_iff.1 hk
    simp only [workLeft, Action.worth, weight_append, weight_cons, weight_nil, List.length_nil,
      UITask.worth, List.length_eraseIdx_of_lt hlt]
    omega
  · have hpop := workLeft_pop hq
    have hworth : (UITask.finishExecuteTask ‹_›).worth = 10 := rfl
    simp only [Action.worth, List.length_nil]
    omega
  · have hpop := workLeft_pop hq
    simp only [workLeft, Action.worth, List.length_nil, UITask.worth, weight_append, weight_cons,
      weight_nil] at hpop ⊢
    omega
  · have hpop := workLeft_pop hq
    simp only [workLeft, Action.worth, List.length_nil, UITask.worth] at hpop ⊢
    omega
  · have hpop := workLeft_pop hq
    have hworth : (UITask.handleResponse callback rep).worth = 3 := by simp [UITask.worth, he]
    have hexit : (willExitDpe { w with uiTasks := rest }).workLeft =
        workLeft { w with uiTasks := rest } + 2 := by
      simp only [willExitDpe, workLeft, hl, weight_append, weight_cons, weight_nil, UITask.worth]
      omega
    simp only [Action.worth, List.length_nil]
    split
    · omega
    · omega
  · have hpop := workLeft_pop hq
    have hworth : (UITask.handleResponse .handleGetTask rep).worth = 12 := by
      simp [UITask.worth, he]
    simp only [workLeft, Action.worth, List.length_nil, List.length_append,
      List.length_singleton] at hpop ⊢
    omega
  · have hpop := workLeft_pop hq
    have hworth : (UITask.handleResponse (.handleFinishCompute size) rep).worth = 7 := by
      simp [UITask.worth, he]
    have hsend : (getNextTask flags now sent size { w with uiTasks := rest }).1.workLeft +
        2 * (getNextTask flags now sent size { w with uiTasks := rest }).2.length ≤
          workLeft { w with uiTasks := rest } + 4 + 2 := workLeft_sendRequest _ _ _ _ _
    simp only [Action.worth]
    omega
  · have hpop := workLeft_pop hq
    have hworth : (UITask.finishExecuteTask b).worth = 10 := rfl
    have hsend :
        (finishExecuteTaskImpl flags timing now sent b { w with uiTasks := rest }).1.workLeft +
          2 * (finishExecuteTaskImpl flags timing now sent b
            { w with uiTasks := rest }).2.length ≤
          workLeft { w with uiTasks := rest } + 7 + 2 := workLeft_sendRequest _ _ _ _ _
    simp only [Action.worth]
    omega
  · simp only [workLeft, Action.worth, List.length_nil, hl, weight_nil]
    simp only [Bool.false_eq_true, if_false, if_true]
    omega

theorem workLeft_run (flags : Flags) (myIp : String) (now : Int) (sent : Nat → Bool) :
    (run flags myIp now sent).1.workLeft + 2 * (run flags myIp now sent).2.length ≤
      6 * flags.threadNumber + 5 := by
  have h : ∀ (i : Nat) (w : Worker),
      (startLoop flags now sent i w).1.workLeft + 2 * (startLoop flags now sent i w).2.length ≤
        w.workLeft + 6 * i := by
    intro i w
    induction i with
    | zero => exact Nat.le_refl _
    | succ i ih =>
      have hsend : (getNextTask flags now (sent i) 1 (startLoop flags now sent i w).1).1.workLeft +
          2 * (getNextTask flags now (sent i) 1 (startLoop flags now sent i w).1).2.length ≤
            (startLoop flags now sent i w).1.workLeft + 4 + 2 := workLeft_sendRequest _ _ _ _ _
      simp only [startLoop, List.length_append]
      omega
  have hfresh := fresh_beforeStart flags myIp
  have hbefore : (beforeStart flags myIp).workLeft =
      2 * (beforeStart flags myIp).willExit + 1 := by
    simp [workLeft, hfresh.context, hfresh.pool, hfresh.uiTasks, hfresh.ended, weight,
      UITask.worth, Nat.mul_comm]
  have hle := h flags.threadNumber (beforeStart flags myIp)
  have htwo := hfresh.willExit
  rw [run, start]
  omega

end Worker

namespace Cluster

variable (tf : TextFormat) (timing : Timing)

def workLeft (c : Cluster) : Nat :=
  8 * c.master.node.taskPendingQueue.length + 2 * c.toMaster.length +
    weight (fun r => r.rep.worth) c.toWorker + weight (fun site => site.node.workLeft) c.workers

/-- The start of a worker, the only step that brings work: its loops, and its start and end. -/
def Action.brings : Action → Nat
  | .launch flags _ _ _ => 6 * (flags.threadNumber + 1)
  | _ => 0

theorem length_eraseIdx_toMaster {c : Cluster} {k : Nat} {p : Packet}
    (hk : c.toMaster[k]? = some p) : (c.toMaster.eraseIdx k).length + 1 = c.toMaster.length := by
  obtain ⟨hlt, -⟩ := List.getElem?_eq_some_iff.1 hk
  rw [List.length_eraseIdx_of_lt hlt]
  omega

theorem weight_workers_set {c : Cluster} {i : Nat} {site : Site} (hi : c.workers[i]? = some site)
    (w : Worker) :
    weight (fun site => site.node.workLeft) (c.workers.set i { site with node := w }) +
        site.node.workLeft =
      weight (fun site => site.node.workLeft) c.workers + w.workLeft :=
  weight_set (fun site : Site => site.node.workLeft) hi { site with node := w }

/-- **Every step spends work**, whatever it is and whatever goes wrong in it. -/
theorem spent_step {c c' : Cluster} {a : Action} (h : step tf timing c a = some c') :
    c'.workLeft + 1 ≤ c.workLeft + a.brings := by
  rcases stepped_of_step tf timing h with ⟨flags, myIp, now, sent⟩ |
    @⟨k, clk, responseTime, p, rep, hk, hm, hget, hne⟩ | hk | hk | ⟨hk, hj⟩ |
    @⟨k, j, r, site, w, out, hk, hj, hi, hm⟩ | @⟨i, k, site, w, out, hi, hm⟩ |
    @⟨i, k, result, timeUsage, totalTime, site, w, out, hi, hm⟩ |
    @⟨i, now, sent, site, w, out, hi, hm⟩ | @⟨i, site, w, out, hi, hm⟩
  · have hstart := Worker.workLeft_run flags myIp now sent
    simp only [workLeft, Action.brings, List.length_append, weight_append, weight_cons,
      weight_nil, post, List.length_map] at hstart ⊢
    omega
  · have hlen := length_eraseIdx_toMaster hk
    have hpending := congrArg List.length hm.pending
    rw [List.length_append] at hpending
    have hworth : rep.worth ≤ 1 + 8 * rep.taskIds.length := by
      rw [Response.worth]
      split
      · omega
      · next hne => have := List.length_pos_of_ne_nil hne; omega
    simp only [workLeft, Action.brings, weight_append, weight_cons, weight_nil]
    omega
  · have hlen := length_eraseIdx_toMaster hk
    simp only [workLeft, Action.brings]
    omega
  · have hw := weight_eraseIdx (fun r : Reply => r.rep.worth) hk
    have hpos := Response.one_le_worth (Reply.rep ‹_›)
    simp only [workLeft, Action.brings]
    omega
  · have hw := weight_eraseIdx (fun r : Reply => r.rep.worth) hk
    have hpos := Response.one_le_worth (Reply.rep ‹_›)
    simp only [workLeft, Action.brings]
    omega
  · have hw := weight_eraseIdx (fun r : Reply => r.rep.worth) hk
    have hset := weight_workers_set hi w
    have hmoved := Worker.workLeft_moved hm
    simp only [workLeft, Action.brings, Worker.Action.worth, if_true, List.length_append, post,
      List.length_map] at hmoved ⊢
    omega
  · have hset := weight_workers_set hi w
    have hmoved := Worker.workLeft_moved hm
    simp only [workLeft, Action.brings, Worker.Action.worth, List.length_append, post,
      List.length_map] at hmoved ⊢
    simp only [reduceCtorEq, if_false] at hmoved
    omega
  · have hset := weight_workers_set hi w
    have hmoved := Worker.workLeft_moved hm
    simp only [workLeft, Action.brings, Worker.Action.worth, List.length_append, post,
      List.length_map] at hmoved ⊢
    omega
  · have hset := weight_workers_set hi w
    have hmoved := Worker.workLeft_moved hm
    simp only [workLeft, Action.brings, Worker.Action.worth, List.length_append, post,
      List.length_map] at hmoved ⊢
    omega
  · have hset := weight_workers_set hi w
    have hmoved := Worker.workLeft_moved hm
    simp only [workLeft, Action.brings, Worker.Action.worth, List.length_append, post,
      List.length_map] at hmoved ⊢
    omega

/-- **Every run is finite.**  However messages are ordered, lost or timed out, a run makes at most
eight steps for each task and, for each worker that is started, six for each of its loops and six
for its start and its end. -/
theorem run_bounded (tasks : List Int) (readState : Bool) (file : StateFile) {as : List Action}
    {c : Cluster} (hrun : (step tf timing).run (init tf tasks readState file) as = some c) :
    as.length ≤ 8 * tasks.length + weight Action.brings as := by
  have hlen : as.length + c.workLeft ≤
      (init tf tasks readState file).workLeft + weight Action.brings as :=
    Tokens.run_length_le (M := step tf timing) workLeft (fun s a t => spent_step tf timing) hrun
  have hpending : (init tf tasks readState file).master.node.taskPendingQueue.length ≤
      tasks.length := by
    rw [show (init tf tasks readState file).master = Master.init tf tasks readState file from rfl,
      (Master.init_pending tf tasks readState file).2]
    exact List.length_filter_le _ _
  have hinit : (init tf tasks readState file).workLeft =
      8 * (init tf tasks readState file).master.node.taskPendingQueue.length := by
    simp [workLeft, init]
  omega

theorem run_bounded_oneTask :
    ∃ c, (step { print := fun _ => "", parse := fun _ => none } {}).run
        (init { print := fun _ => "", parse := fun _ => none } [1] false .absent) oneTask = some c ∧
      oneTask.length ≤ 8 * [(1 : Int)].length + weight Action.brings oneTask := by
  have hsome : ((step { print := fun _ => "", parse := fun _ => none } {}).run
      (init { print := fun _ => "", parse := fun _ => none } [1] false .absent)
        oneTask).isSome := by
    decide
  obtain ⟨c, hrun⟩ := Option.isSome_iff_exists.1 hsome
  exact ⟨c, hrun, run_bounded _ _ [1] false .absent hrun⟩

end Cluster

end Dcfpe

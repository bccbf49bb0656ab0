import Dcfpe.Dpe.Stranded
import Dcfpe.Dpe.WorkerExit

/-!
# The accounts of a worker's loops

A worker starts `thread_number` loops, and each of them is at any time at one of three places: a
GetTask it waits for, a batch, a FinishCompute it waits for.  `Accounted` is what this comes to, in
terms of what went over the sockets: the counter, the number of loops, where the ids of every
response and the results of every batch are, and that the last loop to end calls `WillExitDpe`.

All of it holds as long as no batch is left behind when the node goes or the main loop ends
(`accounted`).  `WillExitDpe` is called when no batch is executing, but the other loops are not
stopped: one whose GetTask reply is handled before or after `ExitDpeImpl` still starts a batch.  If
nothing is bound to the node any more, it is gone when that batch is finished, and nobody reports it
(`batch_unreported`).

A failed `ZMQClient::SendRequest` never calls back and is left out here.
-/

set_option autoImplicit false

namespace Dcfpe

/-- The batch, as its FinishCompute reports it. -/
def Batch.report (b : Batch) : FinishComputeRequest :=
  { taskItem := Worker.finishItems b, totalTimeUsage := b.totalTime }

/-- The ids of an unhandled GetTask reply that brings some. -/
def UITask.response : UITask → List (List Int)
  | .handleResponse .handleGetTask rep =>
    if Callback.endsLoop .handleGetTask rep then [] else [rep.taskIds]
  | _ => []

/-- The largest batch a worker asks for. -/
def Flags.maxBatch (flags : Flags) : Int := if flags.batchSize > 0 then flags.batchSize else 100

namespace Worker

variable (flags : Flags) (timing : Timing)

/-- A worker with what it has sent and been answered. -/
structure Trace where
  worker : Worker
  sent : List Outgoing
  /-- The id lists of the GetTask responses that bring tasks. -/
  responses : List (List Int) := []
  deriving DecidableEq, Repr

/-- The id list of the GetTask response that arrives with this step, if it brings tasks. -/
def Action.response (w : Worker) : Action → List (List Int)
  | .answer k rep => ((w.context[k]?).map fun c => (UITask.handleResponse c.2 rep).response).getD []
  | _ => []

namespace Trace

def start (myIp : String) (now : Int) : Trace :=
  let r := Worker.run flags myIp now fun _ => true
  { worker := r.1, sent := r.2 }

/-- The steps of a worker in which every send succeeds. -/
def step : Machine Trace Action
  | _, .ui _ false => none
  | t, a =>
    (act flags timing t.worker a).map fun r =>
      { worker := r.1, sent := t.sent ++ r.2, responses := t.responses ++ a.response t.worker }

/-- The FinishCompute requests sent, in order. -/
def finishComputes (t : Trace) : List FinishComputeRequest :=
  t.sent.filterMap fun o => o.req.finishCompute

end Trace

/-- The id lists of the GetTask responses that are still to be handled. -/
def queued (w : Worker) : List (List Int) := w.uiTasks.flatMap UITask.response

/-- The id lists a worker holds: unhandled responses, and batches in the pool or computed. -/
def idLists (w : Worker) : List (List Int) :=
  w.queued ++ (w.pool ++ w.computes.map Batch.tasks)

/-- No batch is executing, and no reply that starts one is waiting. -/
def Idle (w : Worker) : Prop := w.pool = [] ∧ w.posted = [] ∧ w.queued = []

/-- The accounts of the loops. -/
structure Accounted (t : Trace) : Prop where
  /-- The counter counts the batches that were posted to the pool and are not finished. -/
  count : t.worker.runningTaskCount = t.worker.pool.length + t.worker.posted.length
  /-- Outstanding requests and batches together are no more than the threads. -/
  loops : t.worker.loops ≤ flags.threadNumber
  nonempty : ∀ tasks ∈ t.worker.pool ++ t.worker.computes.map Batch.tasks, tasks ≠ []
  /-- Each batch, in the pool or computed, is the id list of one response; the other responses wait
  to be handled. -/
  responses : t.responses.Perm t.worker.idLists
  /-- Each batch that was computed is reported by one FinishCompute, or is about to be. -/
  reports : t.worker.computes.map Batch.report =
    t.finishComputes ++ t.worker.posted.map Batch.report
  /-- A report has the ids of the batch, each with its result and its time. -/
  pairing : ∀ b ∈ t.worker.computes, b.report.taskItem.length = b.tasks.length ∧
    ∀ (i : Nat) (item : TaskItem), b.report.taskItem[i]? = some item →
      b.tasks[i]? = some item.taskId ∧
      b.result[i]? = some item.result ∧ b.timeUsage[i]? = some item.timeUsage
  /-- When no loop is left, `WillExitDpe` has been called. -/
  ended : t.worker.loops = 0 → 0 < t.worker.willExit

/-- The batches have no more ids than `batch_size` allows. -/
def Sized (t : Trace) : Prop :=
  ∀ tasks ∈ t.worker.pool ++ t.worker.computes.map Batch.tasks,
    (0 < flags.batchSize → (tasks.length : Int) ≤ flags.batchSize) ∧
      (flags.batchSize < 0 → tasks.length ≤ 100)

/-- The master honours `max_task_count`: the answer to a GetTask has no more ids than that. -/
def Trace.Honours (t : Trace) : Action → Prop
  | .answer k rep =>
    ∀ c ∈ t.worker.context[k]?, c.2 = .handleGetTask → ∀ o ∈ t.sent, o.socket = c.1 →
      ∀ getTask ∈ o.req.getTask, (rep.taskIds.length : Int) ≤ getTask.maxTaskCount
  | _ => True

/-- When the node goes, or the main loop that it runs in ends, no batch is left behind. -/
def Trace.QuitsIdle (t : Trace) : Action → Prop
  | .ui _ sent => t.worker.releasesNode sent = true → t.worker.Idle
  | .endMainLoop => t.worker.Leaves → t.worker.Idle
  | _ => True

instance (t : Trace) : (a : Action) → Decidable (t.Honours a)
  | .answer k rep => inferInstanceAs <| Decidable <|
    ∀ c ∈ t.worker.context[k]?, c.2 = .handleGetTask → ∀ o ∈ t.sent, o.socket = c.1 →
      ∀ getTask ∈ o.req.getTask, (rep.taskIds.length : Int) ≤ getTask.maxTaskCount
  | .compute _ _ _ _ => isTrue trivial
  | .ui _ _ => isTrue trivial
  | .endMainLoop => isTrue trivial

instance (w : Worker) : Decidable w.Idle :=
  inferInstanceAs <| Decidable <| w.pool = [] ∧ w.posted = [] ∧ w.queued = []

instance (w : Worker) : Decidable w.Leaves :=
  inferInstanceAs <| Decidable <| w.alive = true ∧ w.quitting = true ∧ w.uiTasks = []

instance (t : Trace) : (a : Action) → Decidable (t.QuitsIdle a)
  | .ui _ sent =>
    inferInstanceAs <| Decidable <| t.worker.releasesNode sent = true → t.worker.Idle
  | .endMainLoop => inferInstanceAs <| Decidable <| t.worker.Leaves → t.worker.Idle
  | .answer _ _ => isTrue trivial
  | .compute _ _ _ _ => isTrue trivial

/-! ## The reports -/

/-- A batch with two arrays of its size, as `ExecuteTask` makes them, is reported item by item. -/
theorem report_pairing {b : Batch} (hr : b.result.length = b.tasks.length)
    (hu : b.timeUsage.length = b.tasks.length) :
    b.report.taskItem.length = b.tasks.length ∧
      ∀ (i : Nat) (item : TaskItem), b.report.taskItem[i]? = some item →
        b.tasks[i]? = some item.taskId ∧ b.result[i]? = some item.result ∧
          b.timeUsage[i]? = some item.timeUsage := by
  refine ⟨by simp [Batch.report, finishItems, hr, hu], fun i item hitem => ?_⟩
  rw [Batch.report, finishItems, List.getElem?_map, Option.map_eq_some_iff] at hitem
  obtain ⟨⟨id, r, u⟩, hzip, rfl⟩ := hitem
  rw [List.getElem?_zip_eq_some, List.getElem?_zip_eq_some] at hzip
  exact ⟨hzip.1, hzip.2.1, hzip.2.2⟩

/-! ## The invariant -/

/-- What the accounts rest on: a node that is gone has left no batch behind. -/
structure Books (t : Trace) : Prop extends Accounted flags t where
  gone : t.worker.alive = false → ¬ t.worker.Executing
  queued : ∀ tasks ∈ t.worker.queued, tasks ≠ []

variable {flags timing} {w : Worker} {sent : List Outgoing} {responses : List (List Int)}

theorem count_eraseIdx {pool : List (List Int)} {k : Nat} {tasks : List Int}
    (hk : pool[k]? = some tasks) (x : List Int) :
    pool.count x = (pool.eraseIdx k).count x + [tasks].count x := by
  obtain ⟨hlt, rfl⟩ := List.getElem?_eq_some_iff.1 hk
  rw [← (List.getElem_cons_eraseIdx_perm hlt).count_eq x, ← List.singleton_append,
    List.count_append, Nat.add_comm]

theorem response_ne_nil {task : UITask} {tasks : List Int} (h : tasks ∈ task.response) :
    tasks ≠ [] := by
  rcases task with ⟨_ | size, rep⟩ | b | _ | _
  · simp only [UITask.response] at h
    split at h
    · cases h
    · next he =>
      rw [List.mem_singleton.1 h]
      intro hnil
      simp [Callback.endsLoop, hnil] at he
  all_goals cases h

/-- What the worker comes to hold is what has arrived. -/
theorem keeps_responses {w' : Worker} {responses' : List (List Int)}
    (h : responses.Perm w.idLists)
    (hcount : ∀ x,
      responses'.count x + w.idLists.count x = responses.count x + w'.idLists.count x) :
    responses'.Perm w'.idLists := by
  refine List.perm_iff_count.2 fun x => ?_
  have hx := h.count_eq x
  have hx' := hcount x
  omega

/-- Nothing is left behind when the node goes. -/
theorem not_executing_of_gone (h : Books flags ⟨w, sent, responses⟩) {a : Action} {w' : Worker}
    {out : List Outgoing} (hm : Moved flags timing w a w' out)
    (hquits : Trace.QuitsIdle ⟨w, sent, responses⟩ a) (ha' : w'.alive = false) :
    ¬ w'.Executing := by
  have hgone := h.gone
  -- a closure finds the node gone, or lets go of it
  have hui {now : Int} {s : Bool} (ha : a = .ui now s) : w.alive = false ∨ w.Idle := by
    subst ha
    rcases hw : w.alive with _ | _
    · exact .inl rfl
    · rw [alive_ui hm hw] at ha'
      exact .inr (hquits (by simpa using ha'))
  rcases hm with hk | ⟨hk, hr, hu⟩ | ⟨hq, hl, ha⟩ | ⟨hq, hl⟩ | ⟨hq, hl⟩ | ⟨hq, hl, he⟩ |
    ⟨hq, hl, he⟩ | ⟨hq, hl, he⟩ | ⟨hq, hl, ha⟩ | ⟨hq, hquit, hl⟩
  · have hended : w.ended = true := by simpa [alive] using ha'
    simpa [Executing, posted] using hgone (by simp [alive, hended])
  · have hw : w.alive = false := by
      rw [← ha']
      simp [alive]
    exact absurd (.inl (List.ne_nil_of_mem (List.mem_of_getElem? hk))) (hgone hw)
  · rw [alive_pop hq rfl] at ha
    have hnot := hgone ha
    simp [Executing, posted, hq] at hnot
  · rcases hui rfl with hw | ⟨hpool, hposted, -⟩
    · simpa [Executing, posted, hq] using hgone hw
    · simpa [Executing, posted, hq] using And.intro hpool hposted
  · rcases hui rfl with hw | ⟨hpool, hposted, -⟩
    · simpa [Executing, posted, hq] using hgone hw
    · simpa [Executing, posted, hq] using And.intro hpool hposted
  · rcases hui rfl with hw | ⟨hpool, hposted, -⟩
    · rw [alive_of_handleResponse hq hl] at hw
      cases hw
    · split <;> simpa [Executing, posted, hq, willExitDpe] using And.intro hpool hposted
  · rcases hui rfl with hw | ⟨-, -, hqueued⟩
    · rw [alive_of_handleResponse hq hl] at hw
      cases hw
    · simp [Worker.queued, hq, UITask.response, he] at hqueued
  · rcases hui rfl with hw | ⟨hpool, hposted, -⟩
    · rw [alive_of_handleResponse hq hl] at hw
      cases hw
    · simpa [Executing, posted, hq, getNextTask] using And.intro hpool hposted
  · rw [finishExecuteTaskImpl, sendRequest_alive, show alive { w with
      uiTasks := _, runningTaskCount := w.runningTaskCount - 1 } = true from ha] at ha'
    cases ha'
  · rcases hw : w.alive with _ | _
    · exact hgone hw
    · obtain ⟨hpool, hposted, -⟩ := hquits ⟨hw, hquit, hq⟩
      exact fun hx => hx.elim (absurd hpool) (absurd hposted)

theorem Books.answer (h : Books flags ⟨w, sent, responses⟩) {k socket : Nat} {rep : ZMQResponse}
    {callback : Callback} (hk : w.context[k]? = some (socket, callback))
    {w' : Worker} (hw' : w' = { w with
      context := w.context.eraseIdx k
      uiTasks := w.uiTasks ++ [.handleResponse callback rep] })
    (hgone : w'.alive = false → ¬ w'.Executing) :
    Books flags ⟨w', sent ++ [], responses ++ Action.response w (.answer k rep)⟩ := by
  subst hw'
  obtain ⟨hlt, -⟩ := List.getElem?_eq_some_iff.1 hk
  have hresponse : Action.response w (.answer k rep) =
      (UITask.handleResponse callback rep).response := by
    rw [Action.response, hk]; rfl
  have hloops : loops { w with
      context := w.context.eraseIdx k
      uiTasks := w.uiTasks ++ [.handleResponse callback rep] } = w.loops := by
    simp [loops, List.length_eraseIdx_of_lt hlt]
    omega
  refine ⟨⟨?_, hloops ▸ h.loops, h.nonempty, ?_, ?_, h.pairing, hloops ▸ h.ended⟩, hgone, ?_⟩
  · simpa [posted] using h.count
  · refine keeps_responses h.responses fun x => ?_
    simp only [idLists, Worker.queued, List.count_append, List.flatMap_append,
      List.flatMap_singleton,
      hresponse]
    omega
  · simpa [posted, Trace.finishComputes] using h.reports
  · intro tasks htasks
    simp only [Worker.queued, List.flatMap_append, List.flatMap_singleton,
      List.mem_append] at htasks
    exact htasks.elim (h.queued tasks) response_ne_nil

theorem Books.compute (h : Books flags ⟨w, sent, responses⟩) {k : Nat} {result timeUsage : List Int}
    {totalTime : Int} {tasks : List Int} (hk : w.pool[k]? = some tasks)
    (hr : result.length = tasks.length) (hu : timeUsage.length = tasks.length)
    {w' : Worker} (hw' : w' = { w with
      pool := w.pool.eraseIdx k
      uiTasks := w.uiTasks ++ [.finishExecuteTask ⟨tasks, result, timeUsage, totalTime⟩]
      computes := w.computes ++ [⟨tasks, result, timeUsage, totalTime⟩] })
    (hgone : w'.alive = false → ¬ w'.Executing) :
    Books flags ⟨w', sent ++ [], responses ++ []⟩ := by
  subst hw'
  obtain ⟨hlt, -⟩ := List.getElem?_eq_some_iff.1 hk
  have hloops : loops { w with
      pool := w.pool.eraseIdx k
      uiTasks := w.uiTasks ++ [.finishExecuteTask ⟨tasks, result, timeUsage, totalTime⟩]
      computes := w.computes ++ [⟨tasks, result, timeUsage, totalTime⟩] } =
        w.loops := by
    simp [loops, List.length_eraseIdx_of_lt hlt]
    omega
  refine ⟨⟨?_, hloops ▸ h.loops, ?_, ?_, ?_, ?_, hloops ▸ h.ended⟩, hgone, ?_⟩
  · have hcount := h.count
    simp [posted, List.length_eraseIdx_of_lt hlt] at hcount ⊢
    omega
  · intro x hx
    rw [List.map_append, List.mem_append, List.mem_append] at hx
    rcases hx with hx | hx | hx
    · exact h.nonempty x (List.mem_append_left _ (List.mem_of_mem_eraseIdx hx))
    · exact h.nonempty x (List.mem_append_right _ hx)
    · rw [List.mem_singleton.1 hx]
      exact h.nonempty tasks (List.mem_append_left _ (List.mem_of_getElem? hk))
  · refine keeps_responses h.responses fun x => ?_
    have hpool := count_eraseIdx hk x
    simp only [idLists, Worker.queued, List.count_append, List.flatMap_append,
      List.flatMap_singleton,
      List.map_append, List.map_cons, List.map_nil, UITask.response, List.count_nil]
    omega
  · have hreports := h.reports
    simp only [posted, Trace.finishComputes, List.append_nil, List.flatMap_append, List.map_append,
      List.flatMap_singleton, UITask.batches, List.map_cons, List.map_nil] at hreports ⊢
    rw [hreports, List.append_assoc]
  · intro b hb
    rcases List.mem_append.1 hb with hb | hb
    · exact h.pairing b hb
    · rw [List.mem_singleton.1 hb]
      exact report_pairing hr hu
  · simpa [Worker.queued, UITask.response] using h.queued

/-- `ExitDpeImpl`, and what it posts. -/
theorem Books.teardown (h : Books flags ⟨w, sent, responses⟩) {task : UITask}
    {rest posts : List UITask} (hq : w.uiTasks = task :: rest) (htask : task.isLoop = false)
    (hposts : ∀ task ∈ posts, task.isLoop = false) {exited quitting : Bool} {w' : Worker}
    (hw' : w' = { w with uiTasks := rest ++ posts, exited := exited, quitting := quitting })
    (hgone : w'.alive = false → ¬ w'.Executing) :
    Books flags ⟨w', sent ++ [], responses ++ []⟩ := by
  subst hw'
  have hnone {task : UITask} (h : task.isLoop = false) :
      task.batches = [] ∧ task.response = [] := by
    rcases task with _ | _ | _ | _ <;> first | exact ⟨rfl, rfl⟩ | cases h
  obtain ⟨htaskBatches, htaskResponse⟩ := hnone htask
  have hbatches : posts.flatMap UITask.batches = [] :=
    List.flatMap_eq_nil_iff.2 fun t ht => (hnone (hposts t ht)).1
  have hresponses : posts.flatMap UITask.response = [] :=
    List.flatMap_eq_nil_iff.2 fun t ht => (hnone (hposts t ht)).2
  have hcount : posts.countP UITask.isLoop = 0 :=
    List.countP_eq_zero.2 fun t ht => Bool.eq_false_iff.1 (hposts t ht)
  have hloops : loops { w with uiTasks := rest ++ posts, exited := exited, quitting := quitting } =
      w.loops := by
    rw [loops, loops, hq, List.countP_append, hcount,
      List.countP_cons_of_neg (Bool.eq_false_iff.1 htask)]
    rfl
  have hpost : posted { w with uiTasks := rest ++ posts, exited := exited, quitting := quitting } =
      w.posted := by
    rw [posted, posted, hq, List.flatMap_append, hbatches, List.flatMap_cons, htaskBatches,
      List.append_nil, List.nil_append]
  have hqueue : Worker.queued
      { w with uiTasks := rest ++ posts, exited := exited, quitting := quitting } = w.queued := by
    rw [Worker.queued, Worker.queued, hq, List.flatMap_append, hresponses, List.flatMap_cons,
      htaskResponse, List.append_nil, List.nil_append]
  refine ⟨⟨?_, hloops ▸ h.loops, h.nonempty, ?_, ?_, h.pairing, hloops ▸ h.ended⟩, hgone, ?_⟩
  · exact hpost ▸ h.count
  · refine keeps_responses h.responses fun x => ?_
    dsimp only
    rw [idLists, idLists, hqueue, List.append_nil]
  · rw [Trace.finishComputes, List.append_nil, hpost]
    exact h.reports
  · exact hqueue ▸ h.queued

/-- The end of the main loop. -/
theorem Books.endMainLoop (h : Books flags ⟨w, sent, responses⟩) (hquiet : w.Quiet)
    (hquit : w.quitting = true) {w' : Worker} (hw' : w' = { w with ended := true, context := [] })
    (hgone : w'.alive = false → ¬ w'.Executing) :
    Books flags ⟨w', sent ++ [], responses ++ []⟩ := by
  subst hw'
  refine ⟨⟨h.count, ?_, h.nonempty, ?_, ?_, h.pairing, fun _ => ?_⟩, hgone, h.queued⟩
  · refine Nat.le_trans ?_ h.loops
    simp only [loops, List.length_nil]
    omega
  · exact keeps_responses h.responses fun x => by simp [idLists, Worker.queued]
  · simpa [posted, Trace.finishComputes] using h.reports
  · refine Nat.pos_of_ne_zero fun h0 => ?_
    rw [(hquiet h0).2.1] at hquit
    cases hquit

/-- Each batch on its way back is one of the loops. -/
theorem posted_le (uiTasks : List UITask) :
    (uiTasks.flatMap UITask.batches).length ≤ uiTasks.countP UITask.isLoop := by
  induction uiTasks with
  | nil => exact Nat.le_refl 0
  | cons task rest ih =>
    have hone : task.batches.length ≤ if task.isLoop = true then 1 else 0 := by
      rcases task with _ | _ | _ | _ <;> simp
    rw [List.flatMap_cons, List.length_append, List.countP_cons, Nat.add_comm]
    exact Nat.add_le_add ih hone

theorem response_of_endsLoop {callback : Callback} {rep : ZMQResponse}
    (he : callback.endsLoop rep = true) : (UITask.handleResponse callback rep).response = [] := by
  rcases callback with _ | size
  · exact if_pos he
  · rfl

theorem Books.ends (h : Books flags ⟨w, sent, responses⟩) {callback : Callback} {rep : ZMQResponse}
    {rest : List UITask} (hq : w.uiTasks = .handleResponse callback rep :: rest)
    (he : callback.endsLoop rep = true) {w' : Worker}
    (hw' : w' = if w.runningTaskCount = 0 then willExitDpe { w with uiTasks := rest }
      else { w with uiTasks := rest }) (hgone : w'.alive = false → ¬ w'.Executing) :
    Books flags ⟨w', sent ++ [], responses ++ []⟩ := by
  have hpop := loops_pop hq rfl
  have hcount : w.runningTaskCount =
      w.pool.length + (rest.flatMap UITask.batches).length := by
    simpa [posted, hq] using h.count
  have hlists (x : List Int) : (responses ++ []).count x + w.idLists.count x =
      responses.count x + (idLists { w with uiTasks := rest }).count x := by
    simp [idLists, Worker.queued, hq, response_of_endsLoop he]
  have hreports : w.computes.map Batch.report =
      (⟨w, sent, responses⟩ : Trace).finishComputes ++
        (rest.flatMap UITask.batches).map Batch.report := by
    simpa [posted, hq] using h.reports
  have hqueued : ∀ tasks ∈ rest.flatMap UITask.response, tasks ≠ [] := by
    simpa [Worker.queued, hq, response_of_endsLoop he] using h.queued
  have hbound : loops { w with uiTasks := rest } ≤ flags.threadNumber := by
    have := h.loops
    dsimp only at this
    omega
  split at hw' <;> subst hw'
  · have hexit : loops (willExitDpe { w with uiTasks := rest }) =
        loops { w with uiTasks := rest } := loops_willExitDpe _
    refine ⟨⟨?_, Nat.le_trans (Nat.le_of_eq hexit) hbound, h.nonempty, ?_, ?_, h.pairing,
      fun _ => Nat.succ_pos _⟩, hgone, ?_⟩
    · simpa [posted, willExitDpe] using hcount
    · refine keeps_responses h.responses fun x => ?_
      simpa [idLists, Worker.queued, willExitDpe, UITask.response] using hlists x
    · simpa [posted, willExitDpe, Trace.finishComputes] using hreports
    · simpa [Worker.queued, willExitDpe, UITask.response] using hqueued
  · next hne =>
    have hle := posted_le rest
    refine ⟨⟨?_, hbound, h.nonempty, ?_, ?_, h.pairing, fun h0 => ?_⟩, hgone, ?_⟩
    · simpa [posted] using hcount
    · exact keeps_responses h.responses hlists
    · simpa [posted, Trace.finishComputes] using hreports
    · -- a batch is left, and it is a loop
      simp only [loops] at h0
      omega
    · simpa [Worker.queued] using hqueued

theorem Books.take (h : Books flags ⟨w, sent, responses⟩) {rep : ZMQResponse} {rest : List UITask}
    (hq : w.uiTasks = .handleResponse .handleGetTask rep :: rest)
    (he : Callback.endsLoop .handleGetTask rep = false) {w' : Worker}
    (hw' : w' = { w with
      uiTasks := rest
      runningTaskCount := w.runningTaskCount + 1
      pool := w.pool ++ [rep.taskIds] }) (hgone : w'.alive = false → ¬ w'.Executing) :
    Books flags ⟨w', sent ++ [], responses ++ []⟩ := by
  subst hw'
  have hpop := loops_pop hq rfl
  have hresponse : (UITask.handleResponse .handleGetTask rep).response = [rep.taskIds] := by
    simp [UITask.response, he]
  have hloops : loops
      { w with
        uiTasks := rest
        runningTaskCount := w.runningTaskCount + 1
        pool := w.pool ++ [rep.taskIds] } = w.loops := by
    simp only [loops, List.length_append, List.length_singleton] at hpop ⊢
    omega
  refine ⟨⟨?_, hloops ▸ h.loops, ?_, ?_, ?_, h.pairing, hloops ▸ h.ended⟩, hgone, ?_⟩
  · have hcount := h.count
    simp [posted, hq] at hcount ⊢
    omega
  · intro x hx
    rw [List.append_assoc, List.mem_append, List.mem_append, List.mem_singleton] at hx
    rcases hx with hx | rfl | hx
    · exact h.nonempty x (List.mem_append_left _ hx)
    · exact h.queued _ (by simp [Worker.queued, hq, hresponse])
    · exact h.nonempty x (List.mem_append_right _ hx)
  · refine keeps_responses h.responses fun x => ?_
    simp only [idLists, Worker.queued, hq, List.flatMap_cons, hresponse, List.count_append,
      List.count_nil]
    omega
  · simpa [posted, hq, Trace.finishComputes] using h.reports
  · exact fun x hx => h.queued x (by simp [Worker.queued, hq] at hx ⊢; exact .inr hx)

/-- A loop asks for the next tasks. -/
theorem Books.ask (h : Books flags ⟨w, sent, responses⟩) {size : Int} {rep : ZMQResponse}
    {rest : List UITask}
    (hq : w.uiTasks = .handleResponse (.handleFinishCompute size) rep :: rest) (now : Int)
    {w' : Worker} {out : List Outgoing}
    (hw' : (w', out) = getNextTask flags now true size { w with uiTasks := rest })
    (hgone : w'.alive = false → ¬ w'.Executing) :
    Books flags ⟨w', sent ++ out, responses ++ []⟩ := by
  obtain ⟨rfl, rfl⟩ := Prod.mk.inj hw'
  have hpop := loops_pop hq rfl
  have hloops : (getNextTask flags now true size { w with uiTasks := rest }).1.loops =
      w.loops := by
    simp only [getNextTask, sendRequest, if_true, loops, List.length_append,
      List.length_singleton] at hpop ⊢
    omega
  refine ⟨⟨?_, hloops ▸ h.loops, h.nonempty, ?_, ?_, h.pairing, hloops ▸ h.ended⟩, hgone, ?_⟩
  · simpa [posted, hq, getNextTask] using h.count
  · refine keeps_responses h.responses fun x => ?_
    simp [idLists, Worker.queued, hq, UITask.response]
  · simpa [posted, hq, getNextTask, sendRequest, Trace.finishComputes] using h.reports
  · simpa [Worker.queued, hq, getNextTask, UITask.response] using h.queued

/-- A loop reports its batch. -/
theorem Books.finish (h : Books flags ⟨w, sent, responses⟩) {b : Batch} {rest : List UITask}
    (hq : w.uiTasks = .finishExecuteTask b :: rest) (now : Int) {w' : Worker} {out : List Outgoing}
    (hw' : (w', out) = finishExecuteTaskImpl flags timing now true b { w with uiTasks := rest })
    (hgone : w'.alive = false → ¬ w'.Executing) :
    Books flags ⟨w', sent ++ out, responses ++ []⟩ := by
  obtain ⟨rfl, rfl⟩ := Prod.mk.inj hw'
  have hpop := loops_pop hq rfl
  have hloops : (finishExecuteTaskImpl flags timing now true b { w with uiTasks := rest }).1.loops =
      w.loops := by
    simp only [finishExecuteTaskImpl, sendRequest, if_true, loops, List.length_append,
      List.length_singleton] at hpop ⊢
    omega
  refine ⟨⟨?_, hloops ▸ h.loops, h.nonempty, ?_, ?_, h.pairing, hloops ▸ h.ended⟩, hgone, ?_⟩
  · have hcount := h.count
    simp [posted, hq] at hcount ⊢
    omega
  · refine keeps_responses h.responses fun x => ?_
    simp [idLists, Worker.queued, hq, UITask.response]
  · simpa [posted, hq, finishExecuteTaskImpl, sendRequest, Trace.finishComputes, Batch.report] using
      h.reports
  · simpa [Worker.queued, hq, finishExecuteTaskImpl, UITask.response] using h.queued

/-! ## The runs -/

/-- The loop of `Start` when every send succeeds: each round adds one loop, at its GetTask. -/
theorem startLoop_sent (flags : Flags) (now : Int) (i : Nat) (w : Worker) :
    let r := startLoop flags now (fun _ => true) i w
    r.1.loops = w.loops + i ∧ r.1.uiTasks = w.uiTasks ∧ r.1.computes = w.computes ∧
      r.2.filterMap (fun o => o.req.finishCompute) = [] := by
  induction i with
  | zero => exact ⟨rfl, rfl, rfl, rfl⟩
  | succ i ih =>
    obtain ⟨hloops, hui, hcomputes, hsent⟩ := ih
    refine ⟨?_, hui, hcomputes, ?_⟩
    · simp only [startLoop, getNextTask, sendRequest, if_true, loops, List.length_append,
        List.length_singleton] at hloops ⊢
      omega
    · simp [startLoop, getNextTask, sendRequest, hsent]

theorem books_run (hthreads : 1 ≤ flags.threadNumber) (myIp : String) (now : Int) :
    Books flags (Trace.start flags myIp now) := by
  have hfresh := fresh_beforeStart flags myIp
  obtain ⟨hcount, hpool, -⟩ := startLoop_fields flags now (fun _ => true) flags.threadNumber
    (beforeStart flags myIp)
  obtain ⟨hloops, hui, hcomputes, hsent⟩ :=
    startLoop_sent flags now flags.threadNumber (beforeStart flags myIp)
  have hle := loops_run flags myIp now fun _ => true
  have hposted : ((beforeStart flags myIp).uiTasks).flatMap UITask.batches = [] := hfresh.posted
  have hresponse : ((beforeStart flags myIp).uiTasks).flatMap UITask.response = [] := by
    simp [hfresh.uiTasks, List.flatMap_eq_nil_iff, UITask.response]
  refine ⟨⟨?_, hle, ?_, ?_, ?_, ?_, fun h0 => ?_⟩, fun _ => ?_, ?_⟩
  · simp [Trace.start, run, start, posted, hcount, hpool, hui, hposted, hfresh.runningTaskCount,
      hfresh.pool]
  · simp [Trace.start, run, start, hpool, hcomputes, hfresh.pool, hfresh.computes]
  · simp [Trace.start, run, start, idLists, Worker.queued, hpool, hui, hcomputes, hresponse,
      hfresh.pool, hfresh.computes]
  · simp [Trace.start, run, start, posted, Trace.finishComputes, hui, hcomputes, hsent, hposted,
      hfresh.computes]
  · simp [Trace.start, run, start, hcomputes, hfresh.computes]
  · exact absurd (hloops.symm.trans h0) (by omega)
  · simp [Executing, Trace.start, run, start, posted, hpool, hui, hposted, hfresh.pool]
  · simp [Trace.start, run, start, Worker.queued, hui, hresponse]

theorem books_act (h : Books flags ⟨w, sent, responses⟩) (hquiet : w.Quiet) {a : Action}
    {w' : Worker}
    {out : List Outgoing} (hsent : ∀ now, a ≠ .ui now false)
    (hquits : Trace.QuitsIdle ⟨w, sent, responses⟩ a) (hm : Moved flags timing w a w' out) :
    Books flags
      { worker := w', sent := sent ++ out, responses := responses ++ a.response w } := by
  have hgone := not_executing_of_gone h hm hquits
  rcases hm with hk | ⟨hk, hr, hu⟩ | ⟨hq, hl, ha⟩ | ⟨hq, hl⟩ | ⟨hq, hl⟩ | ⟨hq, hl, he⟩ |
    ⟨hq, hl, he⟩ | @⟨now, s, size, rep, rest, hq, hl, he⟩ | @⟨now, s, b, rest, hq, hl, ha⟩ |
    ⟨hq, hquit, hl⟩
  · exact h.answer hk rfl hgone
  · exact h.compute hk hr hu rfl hgone
  · -- the node is gone, and a batch was left behind
    have hnot := h.gone (alive_pop hq rfl ▸ ha)
    simp [Executing, posted, hq] at hnot
  · exact h.teardown hq rfl (by simp) rfl hgone
  · have hposts : ∀ task ∈ ([] : List UITask), task.isLoop = false := by simp
    exact h.teardown hq rfl hposts (by rw [List.append_nil]) hgone
  · exact h.ends hq he rfl hgone
  · exact h.take hq he rfl hgone
  · obtain rfl : s = true := by
      cases s with
      | false => exact absurd rfl (hsent now)
      | true => rfl
    exact h.ask hq now rfl hgone
  · obtain rfl : s = true := by
      cases s with
      | false => exact absurd rfl (hsent now)
      | true => rfl
    exact h.finish hq now rfl hgone
  · exact h.endMainLoop hquiet hquit rfl hgone

theorem moved_of_step {t t' : Trace} {a : Action} (hstep : Trace.step flags timing t a = some t') :
    (∀ now, a ≠ .ui now false) ∧ ∃ out, Moved flags timing t.worker a t'.worker out ∧
      t' = ⟨t'.worker, t.sent ++ out, t.responses ++ a.response t.worker⟩ := by
  have hsent : ∀ now, a ≠ .ui now false := by
    rintro now rfl
    cases hstep
  rw [Trace.step.eq_2 _ _ _ _ (fun now => hsent now)] at hstep
  obtain ⟨⟨w', out⟩, hact, rfl⟩ := Option.map_eq_some_iff.1 hstep
  exact ⟨hsent, out, moved_of_act flags timing hact, rfl⟩

theorem books_step {t t' : Trace} {a : Action} (h : Books flags t ∧ t.worker.Quiet)
    (hquits : t.QuitsIdle a) (hstep : Trace.step flags timing t a = some t') :
    Books flags t' ∧ t'.worker.Quiet := by
  obtain ⟨hsent, out, hm, ht'⟩ := moved_of_step hstep
  exact ⟨ht' ▸ books_act h.1 h.2 hsent hquits hm, quiet_moved flags timing h.2 hm⟩

/-! ## The sizes of the batches -/

theorem suggestedSize_le (size : Nat) (totalTime : Int) :
    suggestedSize flags timing size totalTime ≤ 100 := by
  simp only [suggestedSize]
  repeat' split
  all_goals omega

/-- Every GetTask asks for a batch of an allowed size, so every list is of one. -/
structure Bounded (flags : Flags) (t : Trace) : Prop where
  asked : ∀ socket, (socket, Callback.handleGetTask) ∈ t.worker.context →
    ∃ o ∈ t.sent, o.socket = socket ∧
      ∃ getTask, o.req.getTask = some getTask ∧ getTask.maxTaskCount ≤ flags.maxBatch
  suggested : ∀ size, (∃ socket, (socket, .handleFinishCompute size) ∈ t.worker.context) ∨
    (∃ rep, .handleResponse (.handleFinishCompute size) rep ∈ t.worker.uiTasks) → size ≤ 100
  lists : ∀ tasks ∈ t.worker.idLists, (tasks.length : Int) ≤ flags.maxBatch

theorem Bounded.sized {t : Trace} (h : Bounded flags t) : Sized flags t := by
  intro tasks htasks
  have hle := h.lists tasks (List.mem_append_right _ htasks)
  refine ⟨fun hpos => ?_, fun hneg => ?_⟩
  · rwa [Flags.maxBatch, if_pos hpos] at hle
  · rw [Flags.maxBatch, if_neg (by omega)] at hle
    exact_mod_cast hle

theorem mem_idLists {tasks : List Int} : tasks ∈ w.idLists ↔
    (∃ task ∈ w.uiTasks, tasks ∈ task.response) ∨ tasks ∈ w.pool ∨
      ∃ b ∈ w.computes, b.tasks = tasks := by
  simp [idLists, Worker.queued]

/-- The worker comes to hold no list but the ones that arrive. -/
theorem mem_idLists_moved {a : Action} {w' : Worker} {out : List Outgoing}
    (hm : Moved flags timing w a w' out) {tasks : List Int} (h : tasks ∈ w'.idLists) :
    tasks ∈ w.idLists ∨ tasks ∈ a.response w := by
  rw [mem_idLists] at h
  rw [mem_idLists]
  have hpop : ∀ {task : UITask} {queue : List UITask} {P : Prop}, w.uiTasks = task :: queue →
      (∃ t ∈ queue, tasks ∈ t.response) ∨ P → (∃ t ∈ w.uiTasks, tasks ∈ t.response) ∨ P := by
    intro task queue P hq h
    refine h.imp_left ?_
    rintro ⟨t, ht, h⟩
    exact ⟨t, hq ▸ List.mem_cons_of_mem _ ht, h⟩
  have happend : ∀ {task post : UITask} {queue : List UITask} {P : Prop},
      w.uiTasks = task :: queue → post.response = [] →
      (∃ t ∈ queue ++ [post], tasks ∈ t.response) ∨ P →
      (∃ t ∈ w.uiTasks, tasks ∈ t.response) ∨ P := by
    intro task post queue P hq hpost h
    refine hpop hq (h.imp_left ?_)
    rintro ⟨t, ht, h⟩
    rcases List.mem_append.1 ht with ht | ht
    · exact ⟨t, ht, h⟩
    · rw [List.mem_singleton.1 ht, hpost] at h
      cases h
  rcases hm with @⟨k, rep, socket, callback, hk⟩ | ⟨hk, hr, hu⟩ | ⟨hq, hl, ha⟩ | ⟨hq, hl⟩ |
    ⟨hq, hl⟩ | ⟨hq, hl, he⟩ | ⟨hq, hl, he⟩ | ⟨hq, hl, he⟩ | ⟨hq, hl, ha⟩ | ⟨hq, hquit, hl⟩
  · rcases h with ⟨task, htask, h⟩ | h
    · rcases List.mem_append.1 htask with htask | htask
      · exact .inl (.inl ⟨task, htask, h⟩)
      · rw [List.mem_singleton.1 htask] at h
        right
        simpa [Action.response, hk] using h
    · exact .inl (.inr h)
  · left
    rcases h with ⟨task, htask, h⟩ | h | ⟨b, hb, rfl⟩
    · rcases List.mem_append.1 htask with htask | htask
      · exact .inl ⟨task, htask, h⟩
      · rw [List.mem_singleton.1 htask] at h
        cases h
    · exact .inr (.inl (List.mem_of_mem_eraseIdx h))
    · rcases List.mem_append.1 hb with hb | hb
      · exact .inr (.inr ⟨b, hb, rfl⟩)
      · rw [List.mem_singleton.1 hb]
        exact .inr (.inl (List.mem_of_getElem? hk))
  · exact .inl (hpop hq h)
  · exact .inl (happend hq rfl h)
  · exact .inl (hpop hq h)
  · left
    split at h
    · exact happend hq rfl h
    · exact hpop hq h
  · left
    rcases h with ⟨task, htask, h⟩ | h | h
    · exact .inl ⟨task, hq ▸ List.mem_cons_of_mem _ htask, h⟩
    · rcases List.mem_append.1 h with h | h
      · exact .inr (.inl h)
      · refine .inl ⟨_, hq ▸ List.mem_cons_self, ?_⟩
        simpa [UITask.response, he] using h
    · exact .inr (.inr h)
  · left
    simp only [getNextTask, sendRequest_uiTasks, sendRequest_pool, sendRequest_computes] at h
    exact hpop hq h
  · left
    simp only [finishExecuteTaskImpl, sendRequest_uiTasks, sendRequest_pool,
      sendRequest_computes] at h
    exact hpop hq h
  · exact .inl h

/-- A GetTask asks for no more than the largest batch. -/
theorem asked_getNextTask {size : Int} (hsize : size ≤ 100) (now : Int) {socket : Nat}
    (hsocket : (socket, .handleGetTask) ∈ (getNextTask flags now true size w).1.context) :
    (socket, .handleGetTask) ∈ w.context ∨
      ∃ o ∈ (getNextTask flags now true size w).2, o.socket = socket ∧
        ∃ getTask, o.req.getTask = some getTask ∧ getTask.maxTaskCount ≤ flags.maxBatch := by
  rcases List.mem_append.1 hsocket with hc | hc
  · exact .inl hc
  · obtain ⟨rfl, -⟩ := Prod.mk.inj (List.mem_singleton.1 hc)
    refine .inr ⟨_, List.mem_singleton_self _, rfl, _, rfl, ?_⟩
    dsimp only [Flags.maxBatch]
    split
    · exact Int.le_refl _
    · exact hsize

theorem bounded_startLoop (flags : Flags) (now : Int) (i : Nat) (hw : w.context = []) :
    let r := startLoop flags now (fun _ => true) i w
    ∀ c ∈ r.1.context, c.2 = .handleGetTask ∧
      ∃ o ∈ r.2, o.socket = c.1 ∧
        ∃ getTask, o.req.getTask = some getTask ∧ getTask.maxTaskCount ≤ flags.maxBatch := by
  induction i with
  | zero => exact fun c hc => absurd (hw ▸ hc) List.not_mem_nil
  | succ i ih =>
    rintro r ⟨socket, callback⟩ hc
    have hcallback : callback = .handleGetTask := by
      rcases List.mem_append.1 hc with hc | hc
      · exact (ih _ hc).1
      · exact (Prod.mk.inj (List.mem_singleton.1 hc)).2
    subst hcallback
    refine ⟨rfl, ?_⟩
    rcases asked_getNextTask (show (1 : Int) ≤ 100 by decide) now hc with hc | ⟨o, ho, h⟩
    · obtain ⟨o, ho, h⟩ := (ih _ hc).2
      exact ⟨o, List.mem_append_left _ ho, h⟩
    · exact ⟨o, List.mem_append_right _ ho, h⟩

theorem bounded_run (myIp : String) (now : Int) :
    Bounded flags (Trace.start flags myIp now) := by
  have hfresh := fresh_beforeStart flags myIp
  have hcontext := bounded_startLoop flags now flags.threadNumber hfresh.context
  obtain ⟨-, hpool, -⟩ := startLoop_fields flags now (fun _ => true) flags.threadNumber
    (beforeStart flags myIp)
  obtain ⟨-, hui, hcomputes, -⟩ :=
    startLoop_sent flags now flags.threadNumber (beforeStart flags myIp)
  refine ⟨fun socket hs => (hcontext _ hs).2, fun size hsize => ?_, fun tasks htasks => ?_⟩
  · rcases hsize with ⟨socket, hs⟩ | ⟨rep, hrep⟩
    · cases (hcontext _ hs).1
    · rw [Trace.start, run, start, hui, hfresh.uiTasks] at hrep
      cases List.eq_of_mem_replicate hrep
  · rw [Trace.start, run, start, mem_idLists, hui, hpool, hcomputes, hfresh.uiTasks, hfresh.pool,
      hfresh.computes] at htasks
    simp [UITask.response] at htasks

theorem getTask_of_mem_response {task : UITask} {tasks : List Int} (h : tasks ∈ task.response) :
    ∃ rep, task = .handleResponse .handleGetTask rep ∧ tasks = rep.taskIds := by
  rcases task with ⟨_ | size, rep⟩ | b | _ | _
  · simp only [UITask.response] at h
    split at h
    · cases h
    · exact ⟨rep, rfl, List.mem_singleton.1 h⟩
  all_goals cases h

/-- A callback in the queue has been there, or its request is in `context_`. -/
theorem mem_uiTasks_moved {a : Action} {w' : Worker} {out : List Outgoing}
    (hm : Moved flags timing w a w' out) {callback : Callback} {rep : ZMQResponse}
    (h : .handleResponse callback rep ∈ w'.uiTasks) :
    .handleResponse callback rep ∈ w.uiTasks ∨ ∃ socket, (socket, callback) ∈ w.context := by
  rcases hm with hk | ⟨hk, hr, hu⟩ | ⟨hq, hl, ha⟩ | ⟨hq, hl⟩ | ⟨hq, hl⟩ | ⟨hq, hl, he⟩ |
    ⟨hq, hl, he⟩ | ⟨hq, hl, he⟩ | ⟨hq, hl, ha⟩ | ⟨hq, hquit, hl⟩
  · rcases List.mem_append.1 h with h | h
    · exact .inl h
    · obtain ⟨rfl, -⟩ := UITask.handleResponse.inj (List.mem_singleton.1 h)
      exact .inr ⟨_, List.mem_of_getElem? hk⟩
  · rcases List.mem_append.1 h with h | h
    · exact .inl h
    · cases List.mem_singleton.1 h
  · exact .inl (hq ▸ List.mem_cons_of_mem _ h)
  · rcases List.mem_append.1 h with h | h
    · exact .inl (hq ▸ List.mem_cons_of_mem _ h)
    · cases List.mem_singleton.1 h
  · exact .inl (hq ▸ List.mem_cons_of_mem _ h)
  · left
    split at h
    · rcases List.mem_append.1 h with h | h
      · exact hq ▸ List.mem_cons_of_mem _ h
      · cases List.mem_singleton.1 h
    · exact hq ▸ List.mem_cons_of_mem _ h
  · exact .inl (hq ▸ List.mem_cons_of_mem _ h)
  · rw [getNextTask, sendRequest_uiTasks] at h
    exact .inl (hq ▸ List.mem_cons_of_mem _ h)
  · rw [finishExecuteTaskImpl, sendRequest_uiTasks] at h
    exact .inl (hq ▸ List.mem_cons_of_mem _ h)
  · exact .inl h

/-- What a new request in `context_` asks for, now or after its acknowledgement. -/
theorem mem_context_moved (h : Bounded flags ⟨w, sent, responses⟩) {a : Action} {w' : Worker}
    {out : List Outgoing} (hsent : ∀ now, a ≠ .ui now false) (hm : Moved flags timing w a w' out)
    {socket : Nat} {callback : Callback} (hc : (socket, callback) ∈ w'.context) :
    (socket, callback) ∈ w.context ∨
      (callback = .handleGetTask ∧ ∃ o ∈ out, o.socket = socket ∧
        ∃ getTask, o.req.getTask = some getTask ∧ getTask.maxTaskCount ≤ flags.maxBatch) ∨
      ∃ size, callback = .handleFinishCompute size ∧ size ≤ 100 := by
  rcases hm with hk | ⟨hk, hr, hu⟩ | ⟨hq, hl, ha⟩ | ⟨hq, hl⟩ | ⟨hq, hl⟩ | ⟨hq, hl, he⟩ |
    ⟨hq, hl, he⟩ | @⟨now, s, size, rep, rest, hq, hl, he⟩ | @⟨now, s, b, rest, hq, hl, ha⟩ |
    ⟨hq, hquit, hl⟩
  · exact .inl (List.mem_of_mem_eraseIdx hc)
  · exact .inl hc
  · exact .inl hc
  · exact .inl hc
  · exact .inl hc
  · left
    split at hc <;> exact hc
  · exact .inl hc
  · obtain rfl : s = true := by
      cases s with
      | false => exact absurd rfl (hsent now)
      | true => rfl
    have hsize : size ≤ 100 := h.suggested size (.inr ⟨rep, hq ▸ List.mem_cons_self⟩)
    have hcallback : (socket, callback) ∈ w.context ∨ callback = .handleGetTask := by
      refine (List.mem_append.1 hc).imp_right fun hc => ?_
      exact (Prod.mk.inj (List.mem_singleton.1 hc)).2
    rcases hcallback with hc | rfl
    · exact .inl hc
    · exact (asked_getNextTask hsize now hc).imp_right fun ho => .inl ⟨rfl, ho⟩
  · obtain rfl : s = true := by
      cases s with
      | false => exact absurd rfl (hsent now)
      | true => rfl
    rcases List.mem_append.1 hc with hc | hc
    · exact .inl hc
    · obtain ⟨-, rfl⟩ := Prod.mk.inj (List.mem_singleton.1 hc)
      exact .inr (.inr ⟨_, rfl, suggestedSize_le _ _⟩)
  · cases hc

theorem bounded_act (h : Bounded flags ⟨w, sent, responses⟩) {a : Action} {w' : Worker}
    {out : List Outgoing} (hsent : ∀ now, a ≠ .ui now false)
    (hhonours : Trace.Honours ⟨w, sent, responses⟩ a) (hm : Moved flags timing w a w' out) :
    Bounded flags ⟨w', sent ++ out, responses ++ a.response w⟩ := by
  refine ⟨fun socket hs => ?_, fun size hsize => ?_, fun tasks htasks => ?_⟩
  · rcases mem_context_moved h hsent hm hs with hc | ⟨-, o, ho, hget⟩ | ⟨size, hf, -⟩
    · obtain ⟨o, ho, hget⟩ := h.asked socket hc
      exact ⟨o, List.mem_append_left _ ho, hget⟩
    · exact ⟨o, List.mem_append_right _ ho, hget⟩
    · cases hf
  · rcases hsize with ⟨socket, hs⟩ | ⟨rep, hrep⟩
    · rcases mem_context_moved h hsent hm hs with hc | ⟨hget, -⟩ | ⟨size', hf, hle⟩
      · exact h.suggested size (.inl ⟨socket, hc⟩)
      · cases hget
      · exact Callback.handleFinishCompute.inj hf ▸ hle
    · rcases mem_uiTasks_moved hm hrep with hq | hc
      · exact h.suggested size (.inr ⟨rep, hq⟩)
      · exact h.suggested size (.inl hc)
  · rcases mem_idLists_moved hm htasks with ht | ht
    · exact h.lists tasks ht
    · -- the ids have just arrived, for a GetTask that had asked for no more
      rcases hm with @⟨k, rep, socket, callback, hk⟩ | _
      all_goals try cases ht
      rw [Action.response, hk] at ht
      obtain ⟨rep', hcallback, rfl⟩ := getTask_of_mem_response ht
      obtain ⟨rfl, rfl⟩ := UITask.handleResponse.inj hcallback
      obtain ⟨o, ho, hsocket, getTask, hget, hle⟩ := h.asked socket (List.mem_of_getElem? hk)
      exact Int.le_trans (hhonours _ hk rfl o ho hsocket getTask hget) hle

theorem bounded_step {t t' : Trace} {a : Action} (h : Bounded flags t) (hhonours : t.Honours a)
    (hstep : Trace.step flags timing t a = some t') : Bounded flags t' := by
  obtain ⟨hsent, out, hm, ht'⟩ := moved_of_step hstep
  exact ht' ▸ bounded_act h hsent hhonours hm

/-- **The accounts of the loops hold** in every state of a run in which no batch is left behind when
the node goes or the main loop ends, and the batches are as large as `batch_size` allows if the
master honours `max_task_count`. -/
theorem accounted (hthreads : 1 ≤ flags.threadNumber) {myIp : String} {now : Int}
    {as : List Action} {t : Trace}
    (hrun : (Trace.step flags timing).run (Trace.start flags myIp now) as = some t)
    (hquits : (Trace.step flags timing).Meets Trace.QuitsIdle (Trace.start flags myIp now) as) :
    Accounted flags t ∧
      ((Trace.step flags timing).Meets Trace.Honours (Trace.start flags myIp now) as →
        Sized flags t) := by
  refine ⟨?_, fun hhonours => ?_⟩
  · have hbooks : Books flags t ∧ t.worker.Quiet := Machine.run_invariant_of_meets
      (fun _ _ _ => books_step) ⟨books_run hthreads myIp now, quiet_run flags myIp now _⟩ hquits
      hrun
    exact hbooks.1.toAccounted
  · have hbounded : Bounded flags t := Machine.run_invariant_of_meets
      (fun _ _ _ => bounded_step) (bounded_run myIp now) hhonours hrun
    exact hbounded.sized

/-- One loop gets a task, reports it, finds no more and quits. -/
theorem accounted_one_loop :
    let as : List Action := [.answer 0 (taskReply [7]), .ui 1 true, .compute 0 [70] [5] 5,
      .ui 2 true, .answer 0 {}, .ui 3 true, .answer 0 (taskReply []), .ui 4 true, .ui 5 true,
      .ui 6 true, .endMainLoop]
    ∃ t, (Trace.step {} {}).run (Trace.start {} "" 0) as = some t ∧ Accounted {} t ∧
      Sized {} t := by
  intro as
  have hrun : (Trace.step {} {}).run (Trace.start {} "" 0) as = some _ := rfl
  obtain ⟨haccounted, hsized⟩ := accounted (Nat.le_refl 1) hrun (by decide)
  exact ⟨_, hrun, haccounted, hsized (by decide)⟩

/-- The first loop of two finds no task, and the worker calls `WillExitDpe`; the second has already
been answered, and starts a batch.  The teardown comes before its end. -/
theorem batch_unreported :
    let as : List Action := [.answer 0 (taskReply []), .answer 0 (taskReply [7]), .ui 1 true,
      .ui 2 true, .ui 3 true, .compute 0 [70] [5] 5, .ui 4 true, .ui 5 true]
    ∃ t, (Trace.step { threadNumber := 2 } {}).run (Trace.start { threadNumber := 2 } "" 0) as =
        some t ∧
      t.worker.computes = [⟨[7], [70], [5], 5⟩] ∧ t.finishComputes = [] ∧
      t.worker.loops = 0 ∧ ¬ Accounted { threadNumber := 2 } t := by
  intro as
  refine ⟨_, rfl, rfl, rfl, rfl, fun h => ?_⟩
  cases h.reports

end Worker

end Dcfpe

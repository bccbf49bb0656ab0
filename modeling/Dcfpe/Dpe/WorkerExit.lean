import Dcfpe.Dpe.WorkerNode

/-!
# When a worker quits

A handler that finds nothing left for its loop calls `WillExitDpe` if `running_task_count_` is 0.
The counter is what `Counted` says: the batches in the pool and those posted back to the UI thread.
So a worker never quits over a batch.  It does not count the results that have been sent and not
acknowledged: `FinishExecuteTaskImpl` decrements it before it sends the request.  When the reply
that ends one loop is handled while another loop waits for its FinishCompute, and nothing is being
computed, the worker quits with that request unanswered (`quits_unacknowledged`).  Nothing else goes
wrong, which is `quits_acknowledged_iff`.  It is about the calls of the node, those after
`ExitDpeImpl` included; `run` may call `WillExitDpe` before there is a node.
-/

set_option autoImplicit false

namespace Dcfpe

def Callback.isFinishCompute : Callback → Bool
  | .handleGetTask => false
  | .handleFinishCompute _ => true

/-- The closure is one of a loop. -/
@[simp] def UITask.isLoop : UITask → Bool
  | .handleResponse _ _ => true
  | .finishExecuteTask _ => true
  | .exitDpeImpl => false
  | .quitMainLoop => false

namespace Worker

variable (flags : Flags) (timing : Timing)

/-- A batch is being computed, or its results are on the way to the UI thread. -/
def Executing (w : Worker) : Prop := w.pool ≠ [] ∨ w.posted ≠ []

/-- A FinishCompute request is in the client's `context_`. -/
def Unacknowledged (w : Worker) : Prop := ∃ c ∈ w.context, c.2.isFinishCompute = true

/-- The handler that runs next ends its loop. -/
def Ends (w : Worker) : Action → Prop
  | .ui _ _ =>
    match w.uiTasks with
    | .handleResponse callback rep :: _ => w.ended = false ∧ callback.endsLoop rep = true
    | _ => False
  | _ => False

/-- If the step calls `WillExitDpe`, no batch is executing and no result is unacknowledged. -/
def QuitsAcknowledged (w : Worker) (a : Action) : Prop :=
  ∀ t, step flags timing w a = some t → t.willExit ≠ w.willExit →
    ¬ t.Executing ∧ ¬ t.Unacknowledged

/-- The last reply of one loop crosses the result of another: the loop ends while nothing is being
computed and a result is unacknowledged. -/
def Crosses (w : Worker) (a : Action) : Prop := w.Ends a ∧ ¬ w.Executing ∧ w.Unacknowledged

/-! ## The counter -/

/-- `running_task_count_` counts the batches between `HandleGetTask` and `FinishExecuteTaskImpl`. -/
def Counted (w : Worker) : Prop :=
  w.alive = true → w.runningTaskCount = w.pool.length + w.posted.length

theorem Counted.eq_zero_iff {w : Worker} (h : w.Counted) (ha : w.alive = true) :
    w.runningTaskCount = 0 ↔ ¬ w.Executing := by
  have hc := h ha
  simp only [Executing, not_or, not_not, ← List.length_eq_zero_iff]
  omega

theorem startLoop_fields (now : Int) (sent : Nat → Bool) (i : Nat) (w : Worker) :
    let t := (startLoop flags now sent i w).1
    t.runningTaskCount = w.runningTaskCount ∧ t.pool = w.pool ∧ t.uiTasks = w.uiTasks := by
  induction i with
  | zero => exact ⟨rfl, rfl, rfl⟩
  | succ i ih => simpa [startLoop, getNextTask] using ih

theorem counted_run (myIp : String) (now : Int) (sent : Nat → Bool) :
    (run flags myIp now sent).1.Counted := by
  have hfresh := fresh_beforeStart flags myIp
  obtain ⟨hc, hp, hu⟩ :=
    startLoop_fields flags now sent flags.threadNumber (beforeStart flags myIp)
  intro _
  rw [run, start, posted, hc, hp, hu, hfresh.runningTaskCount, hfresh.pool]
  change (0 : Int) = ([] : List (List Int)).length + (beforeStart flags myIp).posted.length
  rw [hfresh.posted]
  rfl

theorem counted_moved {w t : Worker} {a : Action} {out : List Outgoing} (h : w.Counted)
    (hm : Moved flags timing w a t out) : t.Counted := by
  intro ht
  rcases hm with hk | ⟨hk, hr, hu⟩ | ⟨hq, hl, ha⟩ | ⟨hq, hl⟩ | ⟨hq, hl⟩ | ⟨hq, hl, he⟩ |
    ⟨hq, hl, he⟩ | ⟨hq, hl, he⟩ | ⟨hq, hl, ha⟩ | ⟨hq, hquit, hl⟩
  · have hl := (alive_iff.1 ht).1
    have hc := h (alive_iff.2 ⟨hl, .inr (.inl (List.ne_nil_of_mem (List.mem_of_getElem? hk)))⟩)
    simpa [posted] using hc
  · have ha : w.alive = true := by simpa [alive] using ht
    have hc := h ha
    obtain ⟨hlt, -⟩ := List.getElem?_eq_some_iff.1 hk
    simp only [posted, List.length_eraseIdx_of_lt hlt, List.flatMap_append, List.length_append,
      List.flatMap_cons, List.flatMap_nil, UITask.batches, List.length_cons,
      List.length_nil] at hc ⊢
    omega
  · rw [ha] at ht
    exact absurd ht (by decide)
  · -- a callback that is left was there before
    have ha : w.alive = true := by
      rw [alive_iff] at ht ⊢
      refine ⟨hl, .inr ?_⟩
      simpa [hq] using ht.2
    simpa [posted, hq] using h ha
  · have ha : w.alive = true := by
      rw [← alive_pop hq rfl]
      exact ht
    simpa [posted, hq] using h ha
  · have hc := h (alive_of_handleResponse hq hl)
    split <;> simpa [posted, hq, willExitDpe] using hc
  · have hc := h (alive_of_handleResponse hq hl)
    simp [posted, hq] at hc ⊢
    omega
  · have hc := h (alive_of_handleResponse hq hl)
    simpa [posted, hq, getNextTask] using hc
  · have hc := h (alive_pop hq rfl ▸ ha)
    simp [posted, hq, finishExecuteTaskImpl] at hc ⊢
    omega
  · simp [alive] at ht

/-- A step that calls `WillExitDpe` is the handler of an ended loop, with the counter at 0. -/
theorem willExit_moved {w t : Worker} {a : Action} {out : List Outgoing}
    (hm : Moved flags timing w a t out) (hne : t.willExit ≠ w.willExit) :
    w.Ends a ∧ w.alive = true ∧ w.runningTaskCount = 0 ∧
      t.pool = w.pool ∧ t.posted = w.posted ∧ t.context = w.context := by
  rcases hm with hk | ⟨hk, hr, hu⟩ | ⟨hq, hl, ha⟩ | ⟨hq, hl⟩ | ⟨hq, hl⟩ | ⟨hq, hl, he⟩ |
    ⟨hq, hl, he⟩ | ⟨hq, hl, he⟩ | ⟨hq, hl, ha⟩ | ⟨hq, hquit, hl⟩
  · exact absurd rfl hne
  · exact absurd rfl hne
  · exact absurd rfl hne
  · exact absurd rfl hne
  · exact absurd rfl hne
  · split at hne
    · rename_i h0
      rw [if_pos h0]
      exact ⟨by simp [Ends, hq, hl, he], alive_of_handleResponse hq hl, h0, rfl,
        by simp [posted, willExitDpe, hq], rfl⟩
    · exact absurd rfl hne
  · exact absurd rfl hne
  · simp [getNextTask] at hne
  · simp [finishExecuteTaskImpl] at hne
  · exact absurd rfl hne

/-- The handler of an ended loop with the counter at 0 does call it. -/
theorem quits_of_ends {w : Worker} {a : Action} (he : w.Ends a) (h0 : w.runningTaskCount = 0) :
    ∃ t, step flags timing w a = some t ∧ t.willExit = w.willExit + 1 ∧ t.context = w.context := by
  rcases a with _ | _ | ⟨now, sent⟩ | _
  · exact he.elim
  · exact he.elim
  · rcases hq : w.uiTasks with _ | ⟨⟨callback, rep⟩ | b | _ | _, rest⟩
    all_goals simp only [Ends, hq] at he
    obtain ⟨hl, he⟩ := he
    refine ⟨willExitDpe { w with uiTasks := rest }, ?_, rfl, rfl⟩
    simp [step, act, hq, hl, runUITask, runCallback_of_endsLoop flags he, h0]
  · exact he.elim

theorem Ends.alive {w : Worker} {a : Action} (h : w.Ends a) : w.alive = true := by
  rcases a with _ | _ | ⟨now, sent⟩ | _
  · exact h.elim
  · exact h.elim
  · rcases hq : w.uiTasks with _ | ⟨⟨callback, rep⟩ | b | _ | _, rest⟩
    all_goals simp only [Ends, hq] at h
    exact alive_of_handleResponse hq h.1
  · exact h.elim

theorem quitsAcknowledged_iff_not_crosses {w : Worker} (h : w.Counted) (a : Action) :
    QuitsAcknowledged flags timing w a ↔ ¬ w.Crosses a := by
  refine ⟨fun hq ⟨he, hx, hu⟩ => ?_, fun hc t ht hne => ?_⟩
  · obtain ⟨t, ht, hexit, hctx⟩ := quits_of_ends flags timing he ((h.eq_zero_iff he.alive).2 hx)
    refine (hq t ht (by omega)).2 ?_
    rwa [Unacknowledged, hctx]
  · obtain ⟨⟨t', out⟩, hact, rfl⟩ := Option.map_eq_some_iff.1 ht
    obtain ⟨he, ha, h0, hp, hb, hctx⟩ :=
      willExit_moved flags timing (moved_of_act flags timing hact) hne
    have hx : ¬ w.Executing := (h.eq_zero_iff ha).1 h0
    refine ⟨by rwa [Executing, hp, hb], fun hu => hc ⟨he, hx, ?_⟩⟩
    rwa [Unacknowledged, hctx] at hu

/-! ## The runs of a worker -/

theorem counted_step {w t : Worker} {a : Action} (h : w.Counted)
    (hstep : step flags timing w a = some t) : t.Counted := by
  obtain ⟨⟨t', out⟩, hact, rfl⟩ := Option.map_eq_some_iff.1 hstep
  exact counted_moved flags timing h (moved_of_act flags timing hact)

/-- **When a worker quits with nothing outstanding.**  In a run of a worker, with any number of
loops and any replies, every call of `WillExitDpe` finds no batch executing and no FinishCompute
unanswered if and only if the last reply of one loop never crosses the result of another. -/
theorem quits_acknowledged_iff (myIp : String) (now : Int) (sent : Nat → Bool)
    (as : List Action) :
    (step flags timing).Meets (QuitsAcknowledged flags timing) (run flags myIp now sent).1 as ↔
      (step flags timing).Meets (fun w a => ¬ w.Crosses a) (run flags myIp now sent).1 as :=
  Machine.meets_congr (fun _ _ _ h _ hstep => counted_step flags timing h hstep)
    (fun _ a h => quitsAcknowledged_iff_not_crosses flags timing h a)
    (counted_run flags myIp now sent)

/-- A GetTask reply. -/
def taskReply (ids : List Int) : ZMQResponse := { body := { getTask := some { taskId := ids } } }

/-- The order that loses a result, with two loops: the first gets task 1, computes it and sends the
result; before that is answered the second is told that there are no tasks left. -/
def crossing : List Action :=
  [.answer 0 (taskReply [1]), .ui 0 true, .compute 0 [10] [5] 5, .ui 0 true,
    .answer 0 (taskReply [])]

/-- The worker quits while the request with the result of task 1 is unanswered. -/
theorem quits_unacknowledged :
    ¬ (step { threadNumber := 2 } {}).Meets (QuitsAcknowledged { threadNumber := 2 } {})
      (run { threadNumber := 2 } "" 0 fun _ => true).1 (crossing ++ [.ui 0 true]) := by
  intro h
  have hrun : (step { threadNumber := 2 } {}).run
      (run { threadNumber := 2 } "" 0 fun _ => true).1 crossing =
    some {
      context := [(2, .handleFinishCompute 1)]
      nextSocket := 3
      uiTasks := [.handleResponse .handleGetTask (taskReply [])]
      computes := [⟨[1], [10], [5], 5⟩] } := rfl
  obtain ⟨-, hack⟩ := ((Machine.meets_append hrun).1 h).2.1 _ rfl (by decide)
  exact hack ⟨(2, .handleFinishCompute 1), by decide, rfl⟩

/-! ## Before the teardown -/

/-- A process in which `WillExitDpe` was not called is not being torn down. -/
def Quiet (w : Worker) : Prop :=
  w.willExit = 0 → w.exited = false ∧ w.quitting = false ∧ ∀ task ∈ w.uiTasks, task.isLoop = true

theorem quiet_moved {w t : Worker} {a : Action} {out : List Outgoing} (h : w.Quiet)
    (hm : Moved flags timing w a t out) : t.Quiet := by
  have hrest {task : UITask} {rest : List UITask} (hq : w.uiTasks = task :: rest)
      (h0 : w.willExit = 0) :
      w.exited = false ∧ w.quitting = false ∧ ∀ task ∈ rest, task.isLoop = true := by
    obtain ⟨hexit, hquit, htasks⟩ := h h0
    exact ⟨hexit, hquit, fun t ht => htasks t (hq ▸ List.mem_cons_of_mem _ ht)⟩
  have hhead {task : UITask} {rest : List UITask} (hq : w.uiTasks = task :: rest)
      (h0 : w.willExit = 0) : task.isLoop = true := (h h0).2.2 task (hq ▸ List.mem_cons_self)
  intro h0
  rcases hm with hk | ⟨hk, hr, hu⟩ | ⟨hq, hl, ha⟩ | ⟨hq, hl⟩ | ⟨hq, hl⟩ | ⟨hq, hl, he⟩ |
    ⟨hq, hl, he⟩ | ⟨hq, hl, he⟩ | ⟨hq, hl, ha⟩ | ⟨hq, hquit, hl⟩
  · obtain ⟨hexit, hquit, htasks⟩ := h h0
    exact ⟨hexit, hquit, by simpa [or_imp, forall_and] using htasks⟩
  · obtain ⟨hexit, hquit, htasks⟩ := h h0
    exact ⟨hexit, hquit, by simpa [or_imp, forall_and] using htasks⟩
  · exact hrest hq h0
  · cases hhead hq h0
  · cases hhead hq h0
  · split at h0
    · cases h0
    · next hne => exact if_neg hne ▸ hrest hq h0
  · exact hrest hq h0
  · simp only [getNextTask, sendRequest_willExit, sendRequest_exited, sendRequest_quitting,
      sendRequest_uiTasks] at h0 ⊢
    exact hrest hq h0
  · simp only [finishExecuteTaskImpl, sendRequest_willExit, sendRequest_exited,
      sendRequest_quitting, sendRequest_uiTasks] at h0 ⊢
    exact hrest hq h0
  · exact h h0

theorem quiet_run (myIp : String) (now : Int) (sent : Nat → Bool) :
    (run flags myIp now sent).1.Quiet := by
  have h : ∀ (i : Nat) (w : Worker), (startLoop flags now sent i w).1.exited = w.exited ∧
      (startLoop flags now sent i w).1.quitting = w.quitting ∧
      (startLoop flags now sent i w).1.uiTasks = w.uiTasks ∧
      (startLoop flags now sent i w).1.willExit = w.willExit := by
    intro i w
    induction i with
    | zero => exact ⟨rfl, rfl, rfl, rfl⟩
    | succ i ih => simpa [startLoop, getNextTask] using ih
  have hfresh := fresh_beforeStart flags myIp
  obtain ⟨hexited, hquit, hui, hexit⟩ := h flags.threadNumber (beforeStart flags myIp)
  intro h0
  rw [run, start] at h0 ⊢
  rw [hexited, hquit, hui, hfresh.exited, hfresh.quitting, hfresh.uiTasks, ← hexit, h0]
  exact ⟨rfl, rfl, by simp⟩

/-! ## One loop -/

/-- The loops of a worker that have not ended, each at its request, its batch or a closure. -/
def loops (w : Worker) : Nat :=
  w.context.length + w.pool.length + w.uiTasks.countP UITask.isLoop

theorem loops_sendRequest (now : Int) (sent : Bool) (req : Request) (callback : Callback)
    (w : Worker) : (sendRequest now sent req callback w).1.loops ≤ w.loops + 1 := by
  rcases sent with _ | _
  · exact Nat.le_succ _
  · simp only [sendRequest, if_true, loops, List.length_append, List.length_singleton]
    omega

theorem loops_pop {w : Worker} {task : UITask} {rest : List UITask}
    (hq : w.uiTasks = task :: rest) (htask : task.isLoop = true) :
    loops { w with uiTasks := rest } + 1 = w.loops := by
  simp only [loops, hq, List.countP_cons_of_pos htask]
  omega

theorem loops_willExitDpe (w : Worker) : w.willExitDpe.loops = w.loops := by
  simp [loops, willExitDpe]

theorem loops_run (myIp : String) (now : Int) (sent : Nat → Bool) :
    (run flags myIp now sent).1.loops ≤ flags.threadNumber := by
  have h : ∀ (i : Nat) (w : Worker), (startLoop flags now sent i w).1.loops ≤ w.loops + i := by
    intro i w
    induction i with
    | zero => exact Nat.le_refl _
    | succ i ih =>
      refine Nat.le_trans (loops_sendRequest _ _ _ _ _) ?_
      exact Nat.succ_le_succ ih
  have hfresh := fresh_beforeStart flags myIp
  have hzero : (beforeStart flags myIp).loops = 0 := by
    simp [loops, hfresh.context, hfresh.pool, hfresh.uiTasks, List.countP_replicate]
  have hle := h flags.threadNumber (beforeStart flags myIp)
  rwa [hzero, Nat.zero_add] at hle

/-- No step starts a loop. -/
theorem loops_moved {w t : Worker} {a : Action} {out : List Outgoing}
    (hm : Moved flags timing w a t out) : t.loops ≤ w.loops := by
  rcases hm with hk | ⟨hk, hr, hu⟩ | ⟨hq, hl, ha⟩ | ⟨hq, hl⟩ | ⟨hq, hl⟩ | ⟨hq, hl, he⟩ |
    ⟨hq, hl, he⟩ | ⟨hq, hl, he⟩ | ⟨hq, hl, ha⟩ | ⟨hq, hquit, hl⟩
  · obtain ⟨hlt, -⟩ := List.getElem?_eq_some_iff.1 hk
    simp [loops, List.length_eraseIdx_of_lt hlt]
    omega
  · obtain ⟨hlt, -⟩ := List.getElem?_eq_some_iff.1 hk
    simp [loops, List.length_eraseIdx_of_lt hlt]
    omega
  · have hp := loops_pop hq rfl
    omega
  · simp [loops, hq]
  · simp [loops, hq]
  · have hp := loops_pop hq rfl
    split
    · rw [loops_willExitDpe]
      omega
    · omega
  · have hp := loops_pop hq rfl
    simp only [loops, List.length_append, List.length_singleton] at hp ⊢
    omega
  · refine Nat.le_trans (loops_sendRequest _ _ _ _ _) (Nat.le_of_eq ?_)
    exact loops_pop hq rfl
  · refine Nat.le_trans (loops_sendRequest _ _ _ _ _) (Nat.le_of_eq ?_)
    exact loops_pop hq rfl
  · simp only [loops, List.length_nil]
    omega

theorem not_crosses_of_loops_le_one {w : Worker} (h : w.loops ≤ 1) (a : Action) :
    ¬ w.Crosses a := by
  rintro ⟨he, -, c, hc, -⟩
  have hctx : 0 < w.context.length := List.length_pos_of_mem hc
  rcases a with _ | _ | ⟨now, sent⟩ | _
  · exact he
  · exact he
  · rcases hq : w.uiTasks with _ | ⟨⟨callback, rep⟩ | b | _ | _, rest⟩
    all_goals simp only [Ends, hq] at he
    have hp := loops_pop hq rfl
    simp only [loops] at h hp
    omega
  · exact he

/-- A worker with one loop never quits on an unacknowledged result. -/
theorem single_loop_acknowledged (hone : flags.threadNumber ≤ 1) (myIp : String) (now : Int)
    (sent : Nat → Bool) (as : List Action) :
    (step flags timing).Meets (QuitsAcknowledged flags timing) (run flags myIp now sent).1
      as := by
  refine Machine.meets_of_invariant (P := fun w => w.Counted ∧ w.loops ≤ 1) ?_ ?_
    ⟨counted_run flags myIp now sent, Nat.le_trans (loops_run flags myIp now sent) hone⟩ as
  · rintro w a t ⟨hc, hl⟩ hstep
    obtain ⟨⟨t', out⟩, hact, rfl⟩ := Option.map_eq_some_iff.1 hstep
    have hm := moved_of_act flags timing hact
    exact ⟨counted_moved flags timing hc hm, Nat.le_trans (loops_moved flags timing hm) hl⟩
  · rintro w a ⟨hc, hl⟩
    exact (quitsAcknowledged_iff_not_crosses flags timing hc a).2
      (not_crosses_of_loops_le_one hl a)

end Worker

end Dcfpe

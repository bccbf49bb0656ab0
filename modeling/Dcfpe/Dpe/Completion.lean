import Dcfpe.Dpe.Stranded
import Dcfpe.Dpe.WorkLeft
import Dcfpe.Dpe.WorkerExit

/-!
# What is done when the cluster comes to rest

A run ends when nothing can happen any more, and `WorkLeft` says that it does.  What is done then
depends on the faults.  `Paired` says what holds without them: whoever waits has a message on the
wire, and while tasks are pending every message on the wire is awaited and no loop ends.  So a
cluster at rest has no task pending, and by `Stranded` none that is RUNNING.
-/

set_option autoImplicit false

namespace Dcfpe

open Tokens

/-! ## Loops that go on -/

/-- The closure neither ends a loop nor the worker. -/
def UITask.goesOn : UITask → Bool
  | .handleResponse callback rep => !callback.endsLoop rep
  | .finishExecuteTask _ => true
  | .exitDpeImpl => false
  | .quitMainLoop => false

namespace Worker

variable {flags : Flags} {timing : Timing}

/-- The worker is not being torn down, it has a loop, and no loop is about to end. -/
structure GoesOn (w : Worker) : Prop where
  exited : w.exited = false
  quitting : w.quitting = false
  ended : w.ended = false
  loops : 1 ≤ w.loops
  tasks : ∀ task ∈ w.uiTasks, task.goesOn = true

theorem GoesOn.alive {w : Worker} (h : w.GoesOn) : w.alive = true :=
  alive_iff.2 ⟨h.ended, .inl h.exited⟩

theorem loops_sendRequest_true (now : Int) (req : Request) (callback : Callback) (w : Worker) :
    (sendRequest now true req callback w).1.loops = w.loops + 1 := by
  simp only [sendRequest, if_true, loops, List.length_append, List.length_singleton]
  omega

/-- Without faults, and if the replies that come in end no loop, the loops go on. -/
theorem goesOn_moved {w t : Worker} {a : Action} {out : List Outgoing} (h : w.GoesOn)
    (hm : Moved flags timing w a t out) (hsent : ∀ now sent, a = .ui now sent → sent = true)
    (hanswer : ∀ k rep socket callback, a = .answer k rep →
      w.context[k]? = some (socket, callback) → callback.endsLoop rep = false) : t.GoesOn := by
  have hrest : ∀ {task rest}, w.uiTasks = task :: rest → ∀ task' ∈ rest, task'.goesOn = true :=
    fun hq task' hmem => h.tasks task' (by rw [hq]; exact List.mem_cons_of_mem _ hmem)
  have hhead : ∀ {task rest}, w.uiTasks = task :: rest → task.goesOn = true :=
    fun hq => h.tasks _ (by rw [hq]; exact List.mem_cons_self)
  rcases hm with @⟨k, rep, socket, callback, hk⟩ | ⟨hk, hr, hu⟩ | ⟨hq, hl, ha⟩ | ⟨hq, hl⟩ |
    ⟨hq, hl⟩ | ⟨hq, hl, he⟩ | ⟨hq, hl, he⟩ | @⟨now, sent, size, rep, rest, hq, hl, he⟩ |
    @⟨now, sent, b, rest, hq, hl, ha⟩ | ⟨hq, hquit, hl⟩
  · obtain ⟨hlt, -⟩ := List.getElem?_eq_some_iff.1 hk
    refine ⟨h.exited, h.quitting, h.ended, ?_, fun task htask => ?_⟩
    · have hloops := h.loops
      simp [loops, List.length_eraseIdx_of_lt hlt] at hloops ⊢
      omega
    · rcases List.mem_append.1 htask with htask | htask
      · exact h.tasks task htask
      · rw [List.mem_singleton.1 htask, UITask.goesOn, hanswer k rep socket callback rfl hk]
        rfl
  · obtain ⟨hlt, -⟩ := List.getElem?_eq_some_iff.1 hk
    refine ⟨h.exited, h.quitting, h.ended, ?_, fun task htask => ?_⟩
    · have hloops := h.loops
      simp [loops, List.length_eraseIdx_of_lt hlt] at hloops ⊢
      omega
    · rcases List.mem_append.1 htask with htask | htask
      · exact h.tasks task htask
      · rw [List.mem_singleton.1 htask]
        rfl
  · rw [alive_pop hq rfl, h.alive] at ha
    cases ha
  · cases hhead hq
  · cases hhead hq
  · have := hhead hq
    simp [UITask.goesOn, he] at this
  · have hp := loops_pop hq rfl
    refine ⟨h.exited, h.quitting, h.ended, ?_, hrest hq⟩
    have hloops := h.loops
    simp only [loops, List.length_append, List.length_singleton] at hloops hp ⊢
    omega
  · obtain rfl := hsent now sent rfl
    have hp := loops_pop hq rfl
    have hloops : (getNextTask flags now true size { w with uiTasks := rest }).1.loops =
        loops { w with uiTasks := rest } + 1 := loops_sendRequest_true _ _ _ _
    refine ⟨h.exited, h.quitting, h.ended, ?_, hrest hq⟩
    have := h.loops
    omega
  · obtain rfl := hsent now sent rfl
    have hp := loops_pop hq rfl
    have hloops : (finishExecuteTaskImpl flags timing now true b
        { w with uiTasks := rest }).1.loops = loops { w with uiTasks := rest } + 1 :=
      loops_sendRequest_true _ _ _ _
    refine ⟨h.exited, h.quitting, h.ended, ?_, hrest hq⟩
    have := h.loops
    omega
  · rw [h.quitting] at hquit
    cases hquit

/-- The entries of `context_` that `t` has more than `w` are those of the requests `out`, and the
callback tells a GetTask from a FinishCompute. -/
def Asks (w t : Worker) (out : List Outgoing) : Prop :=
  ∃ new, t.context = w.context ++ new ∧ List.Forall₂ (fun entry o =>
    entry.1 = o.socket ∧ (entry.2 = .handleGetTask ↔ o.req.getTask.isSome)) new out

theorem Asks.refl {w t : Worker} (hc : t.context = w.context) : Asks w t [] :=
  ⟨[], by simp [hc], .nil⟩

theorem Asks.trans {w t u : Worker} {out out' : List Outgoing} (h : Asks w t out)
    (h' : Asks t u out') : Asks w u (out ++ out') := by
  obtain ⟨new, hnew, hall⟩ := h
  obtain ⟨new', hnew', hall'⟩ := h'
  exact ⟨new ++ new', by rw [hnew', hnew, List.append_assoc], List.rel_append hall hall'⟩

theorem asks_sendRequest (now : Int) (sent : Bool) (req : Request) {callback : Callback}
    (hcallback : callback = .handleGetTask ↔ req.getTask.isSome) {w v : Worker}
    (hc : v.context = w.context) :
    Asks w (sendRequest now sent req callback v).1 (sendRequest now sent req callback v).2 := by
  rcases sent with _ | _
  · exact Asks.refl hc
  · exact ⟨[(v.nextSocket, callback)], by simp [sendRequest, hc], .cons ⟨rfl, hcallback⟩ .nil⟩

theorem asks_run (myIp : String) (now : Int) (sent : Nat → Bool) :
    Asks (beforeStart flags myIp) (run flags myIp now sent).1 (run flags myIp now sent).2 := by
  have h : ∀ (i : Nat) (w : Worker),
      Asks w (startLoop flags now sent i w).1 (startLoop flags now sent i w).2 := by
    intro i w
    induction i with
    | zero => exact Asks.refl rfl
    | succ i ih => exact ih.trans (asks_sendRequest _ _ _ (by simp) rfl)
  exact h flags.threadNumber _

/-- A step takes one entry out of `context_`, or all of them as the main loop ends, or puts in those
of the requests it sends. -/
theorem asks_moved {w t : Worker} {a : Action} {out : List Outgoing}
    (hm : Moved flags timing w a t out) :
    (∃ k rep, a = .answer k rep ∧ t.context = w.context.eraseIdx k ∧ out = []) ∨
      a = .endMainLoop ∨ Asks w t out := by
  rcases hm with hk | ⟨hk, hr, hu⟩ | ⟨hq, hl, ha⟩ | ⟨hq, hl⟩ | ⟨hq, hl⟩ | ⟨hq, hl, he⟩ |
    ⟨hq, hl, he⟩ | ⟨hq, hl, he⟩ | ⟨hq, hl, ha⟩ | ⟨hq, hquit, hl⟩
  · exact .inl ⟨_, _, rfl, rfl, rfl⟩
  · exact .inr (.inr (Asks.refl rfl))
  · exact .inr (.inr (Asks.refl rfl))
  · exact .inr (.inr (Asks.refl rfl))
  · exact .inr (.inr (Asks.refl rfl))
  · exact .inr (.inr (Asks.refl (by split <;> rfl)))
  · exact .inr (.inr (Asks.refl rfl))
  · exact .inr (.inr (asks_sendRequest _ _ _ (by simp) rfl))
  · exact .inr (.inr (asks_sendRequest _ _ _ (by simp) rfl))
  · exact .inr (.inl rfl)

theorem goesOn_run (hthreads : 1 ≤ flags.threadNumber) (hbatch : flags.batchSize ≠ 0)
    (myIp : String) (now : Int) {sent : Nat → Bool}
    (hsent : ∀ i < flags.threadNumber, sent i = true) :
    (run flags myIp now sent).1.GoesOn := by
  have h : ∀ i ≤ flags.threadNumber,
      let w := (startLoop flags now sent i { myIp := myIp }).1
      w.loops = i ∧ w.exited = false ∧ w.quitting = false ∧ w.ended = false ∧ w.uiTasks = [] := by
    intro i hi
    induction i with
    | zero => exact ⟨rfl, rfl, rfl, rfl, rfl⟩
    | succ i ih =>
      obtain ⟨hloops, hexited, hquit, hended, htasks⟩ := ih (by omega)
      simp only [startLoop, getNextTask, hsent i hi, sendRequest_exited, sendRequest_quitting,
        sendRequest_ended, sendRequest_uiTasks, loops_sendRequest_true]
      exact ⟨by omega, hexited, hquit, hended, htasks⟩
  obtain ⟨hloops, hexited, hquit, hended, htasks⟩ := h flags.threadNumber (Nat.le_refl _)
  rw [run, beforeStart_eq hthreads hbatch, start]
  refine ⟨hexited, hquit, hended, by omega, fun task htask => ?_⟩
  rw [htasks] at htask
  cases htask

end Worker

/-! ## One loop

A worker with one loop that is about to quit has nothing else to do, so it never quits too early. -/

namespace Worker

variable {flags : Flags} {timing : Timing}

/-- No more than one loop, and none once `WillExitDpe` has been called. -/
structure OneLoop (w : Worker) : Prop where
  loops : w.loops ≤ 1
  exits : 0 < w.willExit → w.loops = 0
  quiet : w.Quiet

theorem oneLoop_moved {w t : Worker} {a : Action} {out : List Outgoing} (h : w.OneLoop)
    (hm : Moved flags timing w a t out) : t.OneLoop := by
  have hle := loops_moved flags timing hm
  refine ⟨Nat.le_trans hle h.loops, fun hexit => ?_, quiet_moved flags timing h.quiet hm⟩
  by_cases hsame : t.willExit = w.willExit
  · have := h.exits (hsame ▸ hexit)
    omega
  · -- the step has called `WillExitDpe`, as its loop ended
    rcases hm with hk | ⟨hk, hr, hu⟩ | ⟨hq, hl, ha⟩ | ⟨hq, hl⟩ | ⟨hq, hl⟩ | ⟨hq, hl, he⟩ |
      ⟨hq, hl, he⟩ | ⟨hq, hl, he⟩ | ⟨hq, hl, ha⟩ | ⟨hq, hquit, hl⟩
    case ends =>
      have hp := loops_pop hq rfl
      have hone := h.loops
      split at hsame
      · rw [if_pos ‹_›, loops_willExitDpe]
        omega
      · exact absurd rfl hsame
    case ask => simp [getNextTask] at hsame
    case finish => simp [finishExecuteTaskImpl] at hsame
    all_goals exact absurd rfl hsame

theorem oneLoop_run (hthreads : 1 ≤ flags.threadNumber) (hbatch : flags.batchSize ≠ 0)
    (hone : flags.threadNumber ≤ 1) (myIp : String) (now : Int) (sent : Nat → Bool) :
    (run flags myIp now sent).1.OneLoop := by
  refine ⟨Nat.le_trans (loops_run flags myIp now sent) hone, fun hexit => ?_,
    quiet_run flags myIp now sent⟩
  have h : ∀ i : Nat, (startLoop flags now sent i { myIp := myIp }).1.willExit = 0 := by
    intro i
    induction i with
    | zero => rfl
    | succ i ih => simpa [startLoop, getNextTask] using ih
  rw [run, beforeStart_eq hthreads hbatch, start, h] at hexit
  exact absurd hexit (Nat.lt_irrefl 0)

/-- Without a loop there is nothing in hand and no request open. -/
theorem idle_of_loops_eq_zero {w : Worker} (h : w.loops = 0) : w.inHand = [] ∧ w.context = [] := by
  simp only [loops, Nat.add_eq_zero_iff, List.length_eq_zero_iff, List.countP_eq_zero] at h
  obtain ⟨⟨hcontext, hpool⟩, htasks⟩ := h
  refine ⟨?_, hcontext⟩
  rw [inHand, hpool, List.flatten_nil, List.append_nil, List.flatMap_eq_nil_iff]
  intro task htask
  have hloop := htasks task htask
  rcases task with _ | _ | _ | _ <;> first | rfl | exact absurd rfl hloop

theorem down_of_releasesNode {w : Worker} {sent : Bool} (h : w.releasesNode sent = true) :
    w.exited = true ∨ w.quitting = true ∨ ∃ task ∈ w.uiTasks, task.isLoop = false := by
  rw [releasesNode] at h
  split at h
  · cases h
  · next task rest hq =>
    simp only [Bool.and_eq_true, Bool.or_eq_true, decide_eq_true_eq] at h
    obtain ⟨⟨⟨⟨-, hexited | rfl⟩, -⟩, -⟩, -⟩ := h
    · exact .inl hexited
    · exact .inr (.inr ⟨_, hq ▸ List.mem_cons_self, rfl⟩)

/-- A worker with one loop that is being torn down has ended its loop. -/
theorem OneLoop.loops_eq_zero {w : Worker} (h : w.OneLoop)
    (hdown : w.exited = true ∨ w.quitting = true ∨ ∃ task ∈ w.uiTasks, task.isLoop = false) :
    w.loops = 0 := by
  refine h.exits (Nat.pos_of_ne_zero fun h0 => ?_)
  obtain ⟨hexited, hquit, htasks⟩ := h.quiet h0
  rcases hdown with hdown | hdown | ⟨task, hmem, hdown⟩
  · rw [hexited] at hdown
    cases hdown
  · rw [hquit] at hdown
    cases hdown
  · rw [htasks task hmem] at hdown
    cases hdown

end Worker

namespace Cluster

variable (tf : TextFormat) (timing : Timing)

/-- Nothing is lost, no request times out and every request can be sent; and a worker is started
with flags that `run` accepts. -/
def Action.Reliable : Action → Prop
  | .launch flags _ _ sent =>
    1 ≤ flags.threadNumber ∧ flags.batchSize ≠ 0 ∧ ∀ i < flags.threadNumber, sent i = true
  | .loseRequest _ => False
  | .loseReply _ => False
  | .timeOut _ _ => False
  | .ui _ _ sent => sent = true
  | _ => True

/-- A worker quits too early: its node goes with tasks in hand, or its main loop ends with tasks in
hand or on their way to it. -/
def QuitsBusy (c : Cluster) : Action → Prop
  | .ui i _ sent =>
    ∃ site, c.workers[i]? = some site ∧ site.node.releasesNode sent = true ∧ site.node.inHand ≠ []
  | .endMainLoop i =>
    ∃ site, c.workers[i]? = some site ∧ site.node.Leaves ∧
      (site.node.inHand ≠ [] ∨ ∃ socket, c.Assigned i socket)
  | _ => False

/-- Worker `i` has an entry for this socket in `context_`. -/
def Expects (c : Cluster) (i socket : Nat) (callback : Callback) : Prop :=
  ∃ site, c.workers[i]? = some site ∧ (socket, callback) ∈ site.node.context

/-- Without faults every request that waits has a message on the wire.  While tasks are pending,
every message is awaited and no loop ends. -/
structure Paired (c : Cluster) : Prop where
  onWire : ∀ i socket callback, c.Expects i socket callback → (i, socket) ∈ c.keys
  request : c.master.node.taskPendingQueue ≠ [] → ∀ p ∈ c.toMaster, ∃ callback,
    c.Expects p.worker p.socket callback ∧ (callback = .handleGetTask ↔ p.req.getTask.isSome)
  reply : c.master.node.taskPendingQueue ≠ [] → ∀ r ∈ c.toWorker, ∃ callback,
    c.Expects r.worker r.socket callback ∧ (callback = .handleGetTask → r.rep.taskIds ≠ [])
  goesOn : c.master.node.taskPendingQueue ≠ [] → ∀ site ∈ c.workers, site.node.GoesOn

variable {tf timing}

/-- The step puts the requests `out` of worker `i` on the wire. -/
theorem Paired.post {c c' : Cluster} (h : c.Paired) {i : Nat} {out : List Outgoing}
    {new : List (Nat × Callback)}
    (hnew : List.Forall₂ (fun entry o =>
      entry.1 = o.socket ∧ (entry.2 = .handleGetTask ↔ o.req.getTask.isSome)) new out)
    (hexpects : ∀ j socket callback, c'.Expects j socket callback ↔
      c.Expects j socket callback ∨ j = i ∧ (socket, callback) ∈ new)
    (hp : c'.toMaster = c.toMaster ++ Cluster.post i out) (hr : c'.toWorker = c.toWorker)
    (hm : c'.master = c.master)
    (hgoes : c.master.node.taskPendingQueue ≠ [] → ∀ site ∈ c'.workers, site.node.GoesOn) :
    c'.Paired := by
  refine ⟨fun j socket callback hexp => ?_, ?_, ?_, by rw [hm]; exact hgoes⟩
  · rw [keys, hp, hr, List.map_append, List.mem_append, List.mem_append]
    rcases (hexpects _ _ _).1 hexp with hexp | ⟨rfl, hmem⟩
    · exact (List.mem_append.1 (h.onWire j socket callback hexp)).imp_left .inl
    · obtain ⟨k, hk⟩ := List.mem_iff_getElem?.1 hmem
      obtain ⟨hlt, hget⟩ := List.getElem?_eq_some_iff.1 hk
      have hlt' : k < out.length := by rw [← hnew.length_eq]; exact hlt
      obtain ⟨hsocket, -⟩ := hnew.get hlt hlt'
      simp only [List.get_eq_getElem, hget] at hsocket
      refine .inl (.inr (List.mem_map.2 ⟨⟨j, out[k].socket, out[k].req⟩, ?_, ?_⟩))
      · exact List.mem_map.2 ⟨out[k], List.getElem_mem hlt', rfl⟩
      · rw [Packet.key, hsocket]
  · rw [hm, hp]
    intro hpending p hmem
    rcases List.mem_append.1 hmem with hmem | hmem
    · obtain ⟨callback, hexp, hiff⟩ := h.request hpending p hmem
      exact ⟨callback, (hexpects _ _ _).2 (.inl hexp), hiff⟩
    · obtain ⟨o, ho, rfl⟩ := List.mem_map.1 hmem
      obtain ⟨k, hk⟩ := List.mem_iff_getElem?.1 ho
      obtain ⟨hlt, hget⟩ := List.getElem?_eq_some_iff.1 hk
      have hlt' : k < new.length := by rw [hnew.length_eq]; exact hlt
      obtain ⟨hsocket, hiff⟩ := hnew.get hlt' hlt
      simp only [List.get_eq_getElem, hget] at hsocket hiff
      refine ⟨new[k].2, (hexpects _ _ _).2 (.inr ⟨rfl, ?_⟩), hiff⟩
      show (o.socket, new[k].2) ∈ new
      rw [← hsocket]
      exact List.getElem_mem hlt'
  · rw [hm, hr]
    intro hpending r hmem
    obtain ⟨callback, hexp, himp⟩ := h.reply hpending r hmem
    exact ⟨callback, (hexpects _ _ _).2 (.inl hexp), himp⟩

theorem expects_set {c c' : Cluster} {i : Nat} {site : Site} {w : Worker}
    (hi : c.workers[i]? = some site)
    (hw : c'.workers = c.workers.set i { site with node := w }) (j socket : Nat)
    (callback : Callback) :
    c'.Expects j socket callback ↔
      j ≠ i ∧ c.Expects j socket callback ∨ j = i ∧ (socket, callback) ∈ w.context := by
  by_cases hij : j = i
  · subst hij
    simp [Expects, getElem?_workers_set hi hw]
  · simp [Expects, hw, List.getElem?_set_ne (Ne.symm hij), hij]

theorem goesOn_set {c : Cluster} {i : Nat} {site : Site} {w : Worker}
    (h : ∀ site ∈ c.workers, site.node.GoesOn) (hw : w.GoesOn) :
    ∀ site' ∈ c.workers.set i { site with node := w }, site'.node.GoesOn := by
  intro site' hmem
  rcases List.mem_or_eq_of_mem_set hmem with hmem | rfl
  · exact h site' hmem
  · exact hw

/-- A step of worker `i` that neither answers one of its requests nor ends its main loop. -/
theorem Paired.actAt {c c' : Cluster} (h : c.Paired) {i : Nat} {site : Site} {w : Worker}
    {a : Worker.Action} {out : List Outgoing} (hi : c.workers[i]? = some site)
    (hm : Worker.Moved site.flags timing site.node a w out)
    (hanswer : ∀ k rep, a ≠ .answer k rep) (hend : a ≠ .endMainLoop)
    (hsent : ∀ now sent, a = .ui now sent → sent = true)
    (hc : c' = { c with
      workers := c.workers.set i { site with node := w }
      toMaster := c.toMaster ++ Cluster.post i out }) : c'.Paired := by
  have hmem : site ∈ c.workers := List.mem_of_getElem? hi
  obtain ⟨k, rep, ha, -⟩ | ha | ⟨new, hnew, hall⟩ := Worker.asks_moved hm
  · exact absurd ha (hanswer k rep)
  · exact absurd ha hend
  · refine h.post hall (fun j socket callback => ?_) (by rw [hc]) (by rw [hc]) (by rw [hc])
      fun hpending => ?_
    · rw [expects_set hi (by rw [hc]) j socket callback, hnew, List.mem_append]
      by_cases hij : j = i
      · subst hij
        simp [Expects, hi]
      · simp [hij]
    · rw [hc]
      exact goesOn_set (h.goesOn hpending) (Worker.goesOn_moved (h.goesOn hpending site hmem) hm
        hsent fun k rep _ _ ha => absurd ha (hanswer k rep))

/-- The requests of a worker are given up as its main loop ends, but then no task is pending. -/
theorem Paired.endMainLoop {c c' : Cluster} (h : c.Paired) {i : Nat} {site : Site} {w : Worker}
    {out : List Outgoing} (hi : c.workers[i]? = some site)
    (hm : Worker.Moved site.flags timing site.node .endMainLoop w out)
    (hc : c' = { c with
      workers := c.workers.set i { site with node := w }
      toMaster := c.toMaster ++ Cluster.post i out }) : c'.Paired := by
  rcases hm
  next hq hquit hl =>
  have hnone : c.master.node.taskPendingQueue ≠ [] → False := by
    intro hpending
    rw [(h.goesOn hpending site (List.mem_of_getElem? hi)).quitting] at hquit
    cases hquit
  subst hc
  refine ⟨fun j socket callback hexp => ?_, fun hp => (hnone hp).elim, fun hp => (hnone hp).elim,
    fun hp => (hnone hp).elim⟩
  rcases (expects_set hi rfl j socket callback).1 hexp with ⟨-, hexp⟩ | ⟨-, hmem⟩
  · simpa [keys, Cluster.post] using h.onWire j socket callback hexp
  · cases hmem

/-- The answer that is expected ends no loop while tasks are pending. -/
theorem Paired.endsLoop_eq_false {c : Cluster} (h : c.Paired) (hwired : c.Wired) {r : Reply}
    (hr : r ∈ c.toWorker) (hpending : c.master.node.taskPendingQueue ≠ []) {site : Site}
    (hi : c.workers[r.worker]? = some site) {callback : Callback}
    (hcallback : (r.socket, callback) ∈ site.node.context) :
    callback.endsLoop { errorCode := .ok, body := r.rep } = false := by
  obtain ⟨callback', ⟨site', hi', hmem⟩, himp⟩ := h.reply hpending r hr
  obtain rfl : site = site' := Option.some_inj.1 (hi.symm.trans hi')
  obtain rfl := (hwired.tidy site (List.mem_of_getElem? hi)).callback_eq hcallback hmem
  rcases callback with _ | size
  · simpa [Callback.endsLoop] using himp rfl
  · rfl

/-- A reply reaches the request that waits for it. -/
theorem Paired.deliver {c : Cluster} (h : c.Paired) (hwired : c.Wired) {k j : Nat} {r : Reply}
    {site : Site} {w : Worker} {out : List Outgoing} (hk : c.toWorker[k]? = some r)
    (hj : c.socketIdx r.worker r.socket = some j) (hi : c.workers[r.worker]? = some site)
    (hm : Worker.Moved site.flags timing site.node (.answer j { errorCode := .ok, body := r.rep })
      w out) :
    Paired { c with
      workers := c.workers.set r.worker { site with node := w }
      toMaster := c.toMaster ++ Cluster.post r.worker out
      toWorker := c.toWorker.eraseIdx k } := by
  have hsite : site ∈ c.workers := List.mem_of_getElem? hi
  have htidy := hwired.tidy site hsite
  have hrmem : r ∈ c.toWorker := List.mem_of_getElem? hk
  obtain ⟨callback, hcb⟩ := socketIdx_eq_some hj hi
  have hmove := hm
  rcases hm with @⟨_, _, socket', callback', hj'⟩
  rw [hcb, Option.some_inj, Prod.mk.injEq] at hj'
  obtain ⟨rfl, rfl⟩ := hj'
  -- the entries left are those of the other sockets
  have hleft : ∀ socket callback', (socket, callback') ∈ site.node.context.eraseIdx j ↔
      (socket, callback') ∈ site.node.context ∧ socket ≠ r.socket := by
    intro socket callback'
    obtain ⟨hlt, hget⟩ := List.getElem?_eq_some_iff.1 hcb
    have hperm := List.getElem_cons_eraseIdx_perm hlt
    rw [hget] at hperm
    have hnd := (hperm.map Prod.fst).nodup_iff.2 htidy.nodup
    rw [List.map_cons, List.nodup_cons] at hnd
    rw [← hperm.mem_iff, List.mem_cons]
    constructor
    · intro hmem
      refine ⟨.inr hmem, ?_⟩
      rintro rfl
      exact hnd.1 (List.mem_map.2 ⟨_, hmem, rfl⟩)
    · rintro ⟨heq | hmem, hne⟩
      · exact absurd (Prod.mk.inj heq).1 hne
      · exact hmem
  have hexpects : ∀ i socket callback', Expects { c with
        workers := c.workers.set r.worker { site with node := { site.node with
          context := site.node.context.eraseIdx j
          uiTasks := site.node.uiTasks ++
            [.handleResponse callback { errorCode := .ok, body := r.rep }] } }
        toMaster := c.toMaster ++ Cluster.post r.worker []
        toWorker := c.toWorker.eraseIdx k } i socket callback' ↔
      c.Expects i socket callback' ∧ (i, socket) ≠ r.key := by
    intro i socket callback'
    rw [expects_set hi rfl i socket callback']
    by_cases hir : i = r.worker
    · subst hir
      simp [Expects, hi, hleft, Reply.key]
    · simp [hir, Reply.key]
  -- no other message is for the socket of `r`
  have hkeys : ∀ p ∈ c.toMaster, p.key ≠ r.key := by
    intro p hp heq
    exact (List.nodup_append.1 hwired.nodup).2.2 p.key (List.mem_map_of_mem hp) r.key
      (List.mem_map_of_mem hrmem) heq
  refine ⟨fun i socket callback' hexp => ?_, fun hpending p hp => ?_, fun hpending r' hr' => ?_,
    fun hpending => ?_⟩
  · obtain ⟨hexp, hne⟩ := (hexpects _ _ _).1 hexp
    rcases List.mem_append.1 (h.onWire i socket callback' hexp) with hmem | hmem
    · exact List.mem_append_left _ (by simpa [Cluster.post] using hmem)
    · obtain ⟨r', hr', hkey⟩ := List.mem_map.1 hmem
      refine List.mem_append_right _ (List.mem_map.2 ⟨r', ?_, hkey⟩)
      refine (Worker.mem_or_mem_eraseIdx hk hr').resolve_left ?_
      rintro rfl
      exact hne hkey.symm
  · have hp : p ∈ c.toMaster := by simpa [Cluster.post] using hp
    obtain ⟨callback', hexp, hiff⟩ := h.request hpending p hp
    exact ⟨callback', (hexpects _ _ _).2 ⟨hexp, hkeys p hp⟩, hiff⟩
  · obtain ⟨callback', hexp, himp⟩ := h.reply hpending r' ((List.eraseIdx_subset) hr')
    exact ⟨callback', (hexpects _ _ _).2 ⟨hexp, hwired.reply_key_ne hk hr'⟩, himp⟩
  · refine goesOn_set (h.goesOn hpending) (Worker.goesOn_moved (h.goesOn hpending site hsite) hmove
      (by simp) fun k' rep socket callback' ha hk' => ?_)
    obtain ⟨rfl, rfl⟩ := Worker.Action.answer.inj ha
    rw [hcb, Option.some_inj, Prod.mk.injEq] at hk'
    obtain ⟨rfl, rfl⟩ := hk'
    exact h.endsLoop_eq_false hwired hrmem hpending hi (List.mem_of_getElem? hcb)

theorem paired_init (tasks : List Int) (readState : Bool) (file : StateFile) :
    (init tf tasks readState file).Paired :=
  ⟨by simp [init, Expects], by simp [init], by simp [init], by simp [init]⟩

theorem paired_launch {c : Cluster} (h : c.Paired) (flags : Flags) (myIp : String) (now : Int)
    {sent : Nat → Bool} (ha : (Action.launch flags myIp now sent).Reliable) :
    Paired { c with
      workers := c.workers ++ [⟨flags, (Worker.run flags myIp now sent).1⟩]
      toMaster := c.toMaster ++ post c.workers.length (Worker.run flags myIp now sent).2 } := by
  obtain ⟨hthreads, hbatch, hsent⟩ := ha
  obtain ⟨new, hnew, hall⟩ : Worker.Asks (Worker.beforeStart flags myIp)
      (Worker.run flags myIp now sent).1 (Worker.run flags myIp now sent).2 :=
    Worker.asks_run myIp now sent
  refine h.post hall (fun j socket callback => ?_) rfl rfl rfl fun hpending site hsite => ?_
  · rw [(Worker.fresh_beforeStart flags myIp).context, List.nil_append] at hnew
    rcases Nat.lt_trichotomy j c.workers.length with hj | rfl | hj
    · simp [Expects, List.getElem?_append_left hj, Nat.ne_of_lt hj]
    · simp [Expects, hnew]
    · have hnone : (c.workers ++ [⟨flags, (Worker.run flags myIp now sent).1⟩])[j]? = none :=
        List.getElem?_eq_none (by rw [List.length_append, List.length_singleton]; omega)
      simp [Expects, hnone, List.getElem?_eq_none (Nat.le_of_lt hj), Nat.ne_of_gt hj]
  · rcases List.mem_append.1 hsite with hsite | hsite
    · exact h.goesOn hpending site hsite
    · rw [List.mem_singleton.1 hsite]
      exact Worker.goesOn_run hthreads hbatch myIp now hsent

/-- **A step without faults keeps the pairs.** -/
theorem paired_step {c c' : Cluster} {a : Action} (h : c.Paired) (hwired : c.Wired)
    (ha : a.Reliable) (hstep : step tf timing c a = some c') : c'.Paired := by
  rcases stepped_of_step tf timing hstep with ⟨flags, myIp, now, sent⟩ |
    @⟨k, clk, responseTime, p, rep, hk, hm, hget, hne⟩ | hk | hk | @⟨k, r, hk, hj⟩ |
    ⟨hk, hj, hi, hm⟩ | ⟨hi, hm⟩ | ⟨hi, hm⟩ | @⟨i, now, sent, site, w, out, hi, hm⟩ | ⟨hi, hm⟩
  · exact paired_launch h flags myIp now ha
  · have hp : p ∈ c.toMaster := List.mem_of_getElem? hk
    have hpending : (c.master.handleRequest tf clk responseTime p.req).node.taskPendingQueue ≠ [] →
        c.master.node.taskPendingQueue ≠ [] := by
      rw [hm.pending]
      exact List.append_ne_nil_of_right_ne_nil _
    refine ⟨fun i socket callback hexp => ?_,
      fun hne' p' hp' => h.request (hpending hne') p' (List.eraseIdx_subset hp'),
      fun hne' r hr => ?_, fun hne' => h.goesOn (hpending hne')⟩
    · rcases List.mem_append.1 (h.onWire i socket callback hexp) with hmem | hmem
      · obtain ⟨p', hp', hkey⟩ := List.mem_map.1 hmem
        rcases Worker.mem_or_mem_eraseIdx hk hp' with rfl | hp'
        · refine List.mem_append_right _ (List.mem_map.2 ⟨_, List.mem_append_right _
            (List.mem_singleton.2 rfl), ?_⟩)
          exact hkey
        · exact List.mem_append_left _ (List.mem_map.2 ⟨p', hp', hkey⟩)
      · obtain ⟨r, hr, hkey⟩ := List.mem_map.1 hmem
        exact List.mem_append_right _ (List.mem_map.2 ⟨r, List.mem_append_left _ hr, hkey⟩)
    · rcases List.mem_append.1 hr with hr | hr
      · exact h.reply (hpending hne') r hr
      · obtain ⟨callback, hexp, hiff⟩ := h.request (hpending hne') p hp
        rw [List.mem_singleton.1 hr]
        exact ⟨callback, hexp, fun hcb => hne (hiff.1 hcb) (hpending hne')⟩
  · exact ha.elim
  · exact ha.elim
  · -- no request waits for this reply
    refine ⟨fun i socket callback hexp => ?_, h.request,
      fun hpending r' hr' => h.reply hpending r' (List.eraseIdx_subset hr'), h.goesOn⟩
    rcases List.mem_append.1 (h.onWire i socket callback hexp) with hmem | hmem
    · exact List.mem_append_left _ hmem
    · obtain ⟨r', hr', hkey⟩ := List.mem_map.1 hmem
      refine List.mem_append_right _ (List.mem_map.2 ⟨r', ?_, hkey⟩)
      refine (Worker.mem_or_mem_eraseIdx hk hr').resolve_left ?_
      rintro rfl
      obtain ⟨rfl, rfl⟩ := Prod.mk.inj hkey
      obtain ⟨site, hi, hmem⟩ := hexp
      rw [socketIdx, hi] at hj
      have hall := List.findIdx?_eq_none_iff.1 hj _ hmem
      simp at hall
  · exact h.deliver hwired hk hj hi hm
  · exact ha.elim
  · exact h.actAt hi hm (by simp) (by simp) (by simp) rfl
  · refine h.actAt hi hm (by simp) (by simp) (fun now' sent' heq => ?_) rfl
    obtain ⟨-, rfl⟩ := Worker.Action.ui.inj heq
    exact ha
  · exact h.endMainLoop hi hm rfl

/-- Without faults only a worker that quits too early drops a task. -/
theorem not_drops {c : Cluster} {a : Action} (h : c.Paired) (ha : a.Reliable)
    (hq : ¬ c.QuitsBusy a) : ¬ c.Drops a := by
  rcases a with ⟨flags, myIp, now, sent⟩ | ⟨k, clk, responseTime⟩ | k | k | k | ⟨i, k⟩ |
    ⟨i, k, result, timeUsage, totalTime⟩ | ⟨i, now, sent⟩ | i
  · exact id
  · rintro ⟨p, hk, hget, hpending, hnot⟩
    obtain ⟨callback, ⟨site, hi, hmem⟩, hiff⟩ := h.request hpending p (List.mem_of_getElem? hk)
    refine hnot ⟨site, hi, (h.goesOn hpending site (List.mem_of_getElem? hi)).alive, ?_⟩
    rw [← hiff.2 hget]
    exact hmem
  · exact ha.elim
  · exact ha.elim
  · exact id
  · exact ha.elim
  · exact id
  · rintro ⟨site, hi, ⟨-, hsent, -⟩ | hbusy⟩
    · exact Bool.false_ne_true (hsent.symm.trans ha)
    · exact hq ⟨site, hi, hbusy⟩
  · exact hq

/-! ## At rest -/

/-- Nothing is on the wire or in a pool, and a main loop that has not ended waits. -/
structure AtRest (c : Cluster) : Prop where
  toMaster : c.toMaster = []
  toWorker : c.toWorker = []
  pool : ∀ site ∈ c.workers, site.node.pool = []
  uiTasks : ∀ site ∈ c.workers, site.node.ended = true ∨
    site.node.uiTasks = [] ∧ site.node.quitting = false

/-- **No deadlock**: a cluster in which no faultless step is left, but to start a worker, is at
rest. -/
theorem atRest_of_stuck {c : Cluster}
    (hstuck : ∀ a : Action, a.Reliable → a.brings = 0 → step tf timing c a = none) : c.AtRest := by
  refine ⟨?_, ?_, fun site hsite => ?_, fun site hsite => ?_⟩
  · have h := hstuck (.serve 0 {} 0) trivial rfl
    rcases hq : c.toMaster with _ | ⟨p, rest⟩
    · rfl
    · simp [step, hq] at h
  · have h := hstuck (.deliver 0) trivial rfl
    rcases hq : c.toWorker with _ | ⟨r, rest⟩
    · rfl
    · simp only [step, hq, List.getElem?_cons_zero, List.eraseIdx_cons_zero] at h
      rcases hj : socketIdx { c with toWorker := rest } r.worker r.socket with _ | j
      · simp [hj] at h
      · have hj' : c.socketIdx r.worker r.socket = some j := hj
        have hsome : (c.workers[r.worker]?).isSome := by
          rw [Option.isSome_iff_ne_none]
          intro hnone
          simp [socketIdx, hnone] at hj'
        obtain ⟨site, hi⟩ := Option.isSome_iff_exists.1 hsome
        obtain ⟨callback, hcb⟩ := socketIdx_eq_some hj' hi
        simp [hj, actAt, hi, Worker.act, hcb] at h
  · obtain ⟨i, hi⟩ := List.mem_iff_getElem?.1 hsite
    rcases hq : site.node.pool with _ | ⟨tasks, rest⟩
    · rfl
    · have h := hstuck (.compute i 0 tasks tasks 0) trivial rfl
      simp [step, actAt, hi, Worker.act, hq] at h
  · obtain ⟨i, hi⟩ := List.mem_iff_getElem?.1 hsite
    rcases hl : site.node.ended with _ | _
    · rcases hq : site.node.uiTasks with _ | ⟨task, rest⟩
      · refine .inr ⟨rfl, Bool.eq_false_iff.2 fun hquit => ?_⟩
        have h := hstuck (.endMainLoop i) trivial rfl
        simp [step, actAt, hi, Worker.act, hq, hl, hquit] at h
      · have h := hstuck (.ui i 0 true) rfl rfl
        simp [step, actAt, hi, Worker.act, hq, hl] at h
    · exact .inl rfl

/-- A task that is pending keeps a cluster with a worker from coming to rest. -/
theorem AtRest.pending_eq_nil {c : Cluster} (hrest : c.AtRest) (h : c.Paired)
    (hne : c.workers ≠ []) : c.master.node.taskPendingQueue = [] := by
  by_contra hpending
  obtain ⟨site, hsite⟩ := List.exists_mem_of_ne_nil _ hne
  obtain ⟨i, hi⟩ := List.mem_iff_getElem?.1 hsite
  have hcontext : site.node.context = [] := by
    rw [List.eq_nil_iff_forall_not_mem]
    rintro ⟨socket, callback⟩ hmem
    have hkey := h.onWire i socket callback ⟨site, hi, hmem⟩
    simp [keys, hrest.toMaster, hrest.toWorker] at hkey
  have hgoes := h.goesOn hpending site hsite
  obtain ⟨htasks, -⟩ := (hrest.uiTasks site hsite).resolve_left (by simp [hgoes.ended])
  have hloops := hgoes.loops
  simp [Worker.loops, hcontext, hrest.pool site hsite, htasks] at hloops

/-- A task that is held keeps a cluster from coming to rest. -/
theorem AtRest.not_held {c : Cluster} (hrest : c.AtRest) (id : Int) : ¬ c.Held id := by
  rintro (⟨r, hr, -⟩ | ⟨site, hsite, ha, hid⟩ | ⟨p, hp, -⟩)
  · rw [hrest.toWorker] at hr
    cases hr
  · obtain ⟨htasks, -⟩ := (hrest.uiTasks site hsite).resolve_left
      (by simp [(Worker.alive_iff.1 ha).1])
    simp [Worker.inHand, hrest.pool site hsite, htasks] at hid
  · rw [hrest.toMaster] at hp
    cases hp

/-- The master of a cluster has served some requests one after another. -/
theorem serve_step {c c' : Cluster} {a : Action} {m : Master}
    (h : ∃ ds, c.master = m.serve tf ds) (hstep : Stepped tf timing c a c') :
    ∃ ds, c'.master = m.serve tf ds := by
  obtain ⟨ds, hds⟩ := h
  by_cases hserve : ∃ k clk responseTime, a = .serve k clk responseTime
  · obtain ⟨k, clk, responseTime, rfl⟩ := hserve
    rcases hstep with _ | @⟨_, _, _, p, rep, hk, hm, hget, hne⟩
    refine ⟨ds ++ [{ clk := clk, req := p.req, responseTime := responseTime }], ?_⟩
    rw [Master.serve_append, ← hds]
    rfl
  · refine ⟨ds, ?_⟩
    rw [master_stepped tf timing hstep fun k clk responseTime ha =>
      hserve ⟨k, clk, responseTime, ha⟩]
    exact hds

variable (tf timing)

/-- What holds of a cluster without faults. -/
structure Faultless (tasks : List Int) (readState : Bool) (file : StateFile) (c : Cluster) :
    Prop where
  wired : c.Wired
  synced : c.master.node.Synced
  noStranded : c.NoStranded
  paired : c.Paired
  served : ∃ ds, c.master = (Master.init tf tasks readState file).serve tf ds

variable {tasks : List Int} {readState : Bool} {file : StateFile}

theorem faultless_init (tasks : List Int) (readState : Bool) (file : StateFile) :
    Faultless tf tasks readState file (init tf tasks readState file) :=
  ⟨wired_init tf tasks readState file, MasterNode.start_synced tf tasks readState file,
    noStranded_init tf tasks readState file, paired_init tasks readState file, [], rfl⟩

theorem faultless_step {c c' : Cluster} {a : Action} (h : Faultless tf tasks readState file c)
    (ha : a.Reliable) (hq : ¬ c.QuitsBusy a) (hstep : step tf timing c a = some c') :
    Faultless tf tasks readState file c' := by
  have hst := stepped_of_step tf timing hstep
  exact ⟨wired_step tf timing h.wired hstep, synced_step tf timing h.synced hst,
    noStranded_step tf timing h.wired h.synced h.noStranded (not_drops h.paired ha hq) hst,
    paired_step h.paired h.wired ha hstep, serve_step h.served hst⟩

theorem faultless_run {c c' : Cluster} (h : Faultless tf tasks readState file c)
    {as : List Action}
    (hmeets : (step tf timing).Meets (fun c a => a.Reliable ∧ ¬ c.QuitsBusy a) c as)
    (hrun : (step tf timing).run c as = some c') : Faultless tf tasks readState file c' :=
  Machine.run_invariant_of_meets
    (fun _ _ _ h ha hstep => faultless_step tf timing h ha.1 ha.2 hstep) h hmeets hrun

/-- At rest nothing is left to do: all tasks are DONE and delivered, and the job is finished. -/
theorem Faultless.done {c : Cluster} (h : Faultless tf tasks readState file c) (hnd : tasks.Nodup)
    (hworker : c.workers ≠ []) (hrest : c.AtRest) :
    Master.AllDone tasks c.master ∧ (resultIds c.master.effects).Perm tasks ∧
      (tasks ≠ [] → .finish ∈ c.master.effects) := by
  obtain ⟨ds, hds⟩ := h.served
  have hist : Master.History (Master.init tf tasks readState file) c.master := by
    rw [hds]
    exact Master.history_serve tf (Master.history_init tf hnd readState file) ds
  have hidle : c.master.node.idle = true := by
    have hpending := hrest.pending_eq_nil h.paired hworker
    rw [MasterNode.idle, hpending, List.isEmpty_nil, Bool.true_and,
      Std.TreeSet.isEmpty_iff_forall_not_mem]
    intro id hid
    obtain ⟨item, hitem, he⟩ := book_eq_some.1 ((hist.inv.running id).1 hid)
    exact hrest.not_held id (h.noStranded id ⟨item, hitem, entry_eq_claimed.1 he⟩)
  have hall := (Master.idle_iff tf hist).1 hidle
  refine ⟨hall, Master.resultIds_perm tf hnd hist hall, fun hne => ?_⟩
  have hpos : 0 < c.master.finishes := by
    rw [hds, Master.finishes_pos_iff tf hne hnd readState file ds, ← hds]
    exact hidle
  exact List.count_pos_iff.1 hpos

/-- **A cluster without faults does not stop before all is done.**  If nothing is lost and no worker
quits with tasks in its hands or on their way to it, then a cluster with a worker in which nothing
can happen any more has every task DONE; the results of all tasks have been passed to `SetResult`,
each once, and `Finish` has been called. -/
theorem completes (hnd : tasks.Nodup) (readState : Bool) (file : StateFile)
    {as : List Action} {c : Cluster}
    (hfaultless : (step tf timing).Meets (fun c a => a.Reliable ∧ ¬ c.QuitsBusy a)
      (init tf tasks readState file) as)
    (hrun : (step tf timing).run (init tf tasks readState file) as = some c)
    (hworker : c.workers ≠ [])
    (hstuck : ∀ a : Action, a.Reliable → a.brings = 0 → step tf timing c a = none) :
    Master.AllDone tasks c.master ∧ (resultIds c.master.effects).Perm tasks ∧
      (tasks ≠ [] → .finish ∈ c.master.effects) := by
  have h := faultless_run tf timing (faultless_init tf tasks readState file) hfaultless hrun
  exact h.done tf hnd hworker (atRest_of_stuck hstuck)

/-- The worker that is started has one thread. -/
def Action.OneLoop : Action → Prop
  | .launch flags _ _ _ => flags.threadNumber ≤ 1
  | _ => True

theorem oneLoop_step {c c' : Cluster} {a : Action} (h : ∀ site ∈ c.workers, site.node.OneLoop)
    (ha : a.Reliable ∧ a.OneLoop) (hstep : step tf timing c a = some c') :
    ∀ site ∈ c'.workers, site.node.OneLoop := by
  have hset : ∀ {i : Nat} {site : Site} {a : Worker.Action} {w : Worker} {out : List Outgoing},
      c.workers[i]? = some site → Worker.Moved site.flags timing site.node a w out →
      ∀ site' ∈ c.workers.set i { site with node := w }, site'.node.OneLoop := by
    intro i site a w out hi hm site' hmem
    rcases List.mem_or_eq_of_mem_set hmem with hmem | rfl
    · exact h site' hmem
    · exact Worker.oneLoop_moved (h site (List.mem_of_getElem? hi)) hm
  rcases stepped_of_step tf timing hstep with ⟨flags, myIp, now, sent⟩ | ⟨hk, hm, hget, hne⟩ | hk |
    hk | ⟨hk, hj⟩ | ⟨hk, hj, hi, hm⟩ | ⟨hi, hm⟩ | ⟨hi, hm⟩ | ⟨hi, hm⟩ | ⟨hi, hm⟩
  · obtain ⟨⟨hthreads, hbatch, -⟩, hone⟩ := ha
    intro site hsite
    rcases List.mem_append.1 hsite with hsite | hsite
    · exact h site hsite
    · rw [List.mem_singleton.1 hsite]
      exact Worker.oneLoop_run hthreads hbatch hone myIp now sent
  · exact h
  · exact h
  · exact h
  · exact h
  · exact hset hi hm
  · exact hset hi hm
  · exact hset hi hm
  · exact hset hi hm
  · exact hset hi hm

theorem not_quitsBusy {c : Cluster} (h : ∀ site ∈ c.workers, site.node.OneLoop) (a : Action) :
    ¬ c.QuitsBusy a := by
  rcases a with _ | _ | _ | _ | _ | _ | _ | ⟨i, now, sent⟩ | i
  case ui =>
    rintro ⟨site, hi, hreleases, hhand⟩
    have hloops := (h site (List.mem_of_getElem? hi)).loops_eq_zero
      (Worker.down_of_releasesNode hreleases)
    exact hhand (Worker.idle_of_loops_eq_zero hloops).1
  case endMainLoop =>
    rintro ⟨site, hi, ⟨-, hquit, -⟩, hbusy⟩
    have hloops := (h site (List.mem_of_getElem? hi)).loops_eq_zero (.inr (.inl hquit))
    obtain ⟨hhand, hcontext⟩ := Worker.idle_of_loops_eq_zero hloops
    rcases hbusy with hbusy | ⟨socket, ⟨site', hi', -, hmem⟩, -⟩
    · exact hbusy hhand
    · obtain rfl : site = site' := Option.some_inj.1 (hi.symm.trans hi')
      rw [hcontext] at hmem
      cases hmem
  all_goals exact id

/-- No step removes a worker. -/
theorem workers_ne_nil {c c' : Cluster} {a : Action} (hstep : step tf timing c a = some c')
    (h : c.workers ≠ []) : c'.workers ≠ [] := by
  rcases stepped_of_step tf timing hstep with _ | ⟨hk, hm, hget, hne⟩ | hk | hk | ⟨hk, hj⟩ |
    ⟨hk, hj, hi, hm⟩ | ⟨hi, hm⟩ | ⟨hi, hm⟩ | ⟨hi, hm⟩ | ⟨hi, hm⟩
  all_goals simp [h]

/-- Workers with one loop each never quit too early. -/
theorem meets_oneLoop {c : Cluster} (h : ∀ site ∈ c.workers, site.node.OneLoop) {as : List Action}
    (has : ∀ a ∈ as, a.Reliable ∧ a.OneLoop) :
    (step tf timing).Meets (fun c a => a.Reliable ∧ ¬ c.QuitsBusy a) c as := by
  induction as generalizing c with
  | nil => trivial
  | cons a as ih =>
    obtain ⟨ha, hone⟩ := has a List.mem_cons_self
    exact ⟨⟨ha, not_quitsBusy h a⟩, fun c' hc' => ih (oneLoop_step tf timing h ⟨ha, hone⟩ hc')
      fun b hb => has b (List.mem_cons_of_mem a hb)⟩

theorem oneLoop_run {c c' : Cluster} (h : ∀ site ∈ c.workers, site.node.OneLoop)
    {as : List Action} (has : ∀ a ∈ as, a.Reliable ∧ a.OneLoop)
    (hrun : (step tf timing).run c as = some c') : ∀ site ∈ c'.workers, site.node.OneLoop :=
  Machine.run_invariant_of_meets (P := fun c => ∀ site ∈ c.workers, site.node.OneLoop)
    (C := fun _ a => a.Reliable ∧ a.OneLoop)
    (fun _ _ _ h ha hstep => oneLoop_step tf timing h ha hstep) h
    (Machine.meets_labels has c) hrun

/-- **Workers with one thread always complete the job.**  As long as no message is lost or late, the
cluster can go on from every state it reaches until all tasks are DONE, in no more steps than there
is work left, whichever of the possible steps is taken at each point. -/
theorem completes_oneLoop (hnd : tasks.Nodup) (readState : Bool) (file : StateFile)
    {as : List Action} {c : Cluster} (has : ∀ a ∈ as, a.Reliable ∧ a.OneLoop)
    (hrun : (step tf timing).run (init tf tasks readState file) as = some c)
    (hworker : c.workers ≠ []) {bs : List Action} {c' : Cluster}
    (hbs : ∀ b ∈ bs, b.Reliable ∧ b.brings = 0) (hrun' : (step tf timing).run c bs = some c') :
    bs.length ≤ c.workLeft ∧
      (Master.AllDone tasks c'.master ∨
        ∃ b c'', (b.Reliable ∧ b.brings = 0) ∧ step tf timing c' b = some c'') := by
  have honeLoop : ∀ b ∈ bs, b.Reliable ∧ b.OneLoop := by
    intro b hb
    refine ⟨(hbs b hb).1, ?_⟩
    have hbrings := (hbs b hb).2
    rcases b with _ | _ | _ | _ | _ | _ | _ | _
    case launch => simp [Action.brings] at hbrings
    all_goals trivial
  have hinit : ∀ site ∈ (init tf tasks readState file).workers, site.node.OneLoop := by
    simp [init]
  have hc := faultless_run tf timing (faultless_init tf tasks readState file)
    (meets_oneLoop tf timing hinit has) hrun
  have hone := oneLoop_run tf timing hinit has hrun
  have hc' := faultless_run tf timing hc (meets_oneLoop tf timing hone honeLoop) hrun'
  have hworker' : c'.workers ≠ [] :=
    Machine.run_invariant (P := fun c => c.workers ≠ [])
      (fun c a c' h hstep => workers_ne_nil tf timing hstep h) hworker hrun'
  constructor
  · have hlen : bs.length + c'.workLeft ≤ c.workLeft + weight Action.brings bs :=
      Tokens.run_length_le (M := step tf timing) workLeft (fun s a t => spent_step tf timing) hrun'
    have hzero : weight Action.brings bs = 0 := by
      have hle := weight_mono (fun _ => 0) (g := Action.brings)
        fun b hb => Nat.le_of_eq (hbs b hb).2
      simpa [weight] using hle
    omega
  · by_contra hno
    rw [not_or] at hno
    have hstuck : ∀ b : Action, b.Reliable → b.brings = 0 → step tf timing c' b = none := by
      intro b hb hbrings
      rcases hstep : step tf timing c' b with _ | c''
      · rfl
      · exact absurd ⟨b, c'', ⟨hb, hbrings⟩, hstep⟩ hno.2
    exact hno.1 (hc'.done tf hnd hworker' (atRest_of_stuck hstuck)).1

/-- Task 1 through a cluster with one worker, until the worker has quit. -/
def wholeTask : List Action :=
  oneTask ++ [.deliver 0, .ui 0 0 true, .serve 0 {} 0, .deliver 0, .ui 0 0 true, .ui 0 0 true,
    .ui 0 0 true, .endMainLoop 0]

theorem reliable_wholeTask : ∀ a ∈ wholeTask, a.Reliable ∧ a.OneLoop := by
  simp [wholeTask, oneTask, Action.Reliable, Action.OneLoop]

/-- At rest nothing is left that a faultless step could do. -/
theorem AtRest.stuck {c : Cluster} (h : c.AtRest) {a : Action} (ha : a.Reliable)
    (hbrings : a.brings = 0) : step tf timing c a = none := by
  rcases a with ⟨flags, myIp, now, sent⟩ | ⟨k, clk, responseTime⟩ | k | k | k | ⟨i, k⟩ |
    ⟨i, k, result, timeUsage, totalTime⟩ | ⟨i, now, sent⟩ | i
  · simp [Action.brings] at hbrings
  · simp [step, h.toMaster]
  · exact ha.elim
  · exact ha.elim
  · simp [step, h.toWorker]
  · exact ha.elim
  · rcases hi : c.workers[i]? with _ | site
    · simp [step, actAt, hi]
    · simp [step, actAt, hi, Worker.act, h.pool site (List.mem_of_getElem? hi)]
  · rcases hi : c.workers[i]? with _ | site
    · simp [step, actAt, hi]
    · rcases h.uiTasks site (List.mem_of_getElem? hi) with hl | ⟨hq, -⟩
      · rcases hq : site.node.uiTasks with _ | _ <;> simp [step, actAt, hi, Worker.act, hl, hq]
      · simp [step, actAt, hi, Worker.act, hq]
  · rcases hi : c.workers[i]? with _ | site
    · simp [step, actAt, hi]
    · rcases h.uiTasks site (List.mem_of_getElem? hi) with hl | ⟨-, hquit⟩
      · simp [step, actAt, hi, Worker.act, hl]
      · simp [step, actAt, hi, Worker.act, hquit]

theorem completes_wholeTask :
    ∃ c, (step { print := fun _ => "", parse := fun _ => none } {}).run
        (init { print := fun _ => "", parse := fun _ => none } [1] false .absent)
          wholeTask = some c ∧
      Master.AllDone [1] c.master ∧ (resultIds c.master.effects).Perm [1] ∧
      ([(1 : Int)] ≠ [] → .finish ∈ c.master.effects) := by
  have hsome : ((step { print := fun _ => "", parse := fun _ => none } {}).run
      (init { print := fun _ => "", parse := fun _ => none } [1] false .absent) wholeTask).map
        (fun c => (c.toMaster.length, c.toWorker.length, c.workers.map fun site =>
          (site.node.pool.length, site.node.ended))) = some (0, 0, [(0, true)]) := by
    decide
  obtain ⟨c, hrun, hc⟩ := Option.map_eq_some_iff.1 hsome
  simp only [Prod.mk.injEq, List.length_eq_zero_iff] at hc
  obtain ⟨hm, hw, hsites⟩ := hc
  have hsite : ∀ site ∈ c.workers, site.node.pool = [] ∧ site.node.ended = true := by
    intro site hmem
    have hpair : (site.node.pool.length, site.node.ended) ∈
        c.workers.map fun site => (site.node.pool.length, site.node.ended) :=
      List.mem_map.2 ⟨site, hmem, rfl⟩
    simpa only [hsites, List.mem_singleton, Prod.mk.injEq, List.length_eq_zero_iff] using hpair
  have hrest : c.AtRest :=
    ⟨hm, hw, fun site hmem => (hsite site hmem).1, fun site hmem => .inl (hsite site hmem).2⟩
  refine ⟨c, hrun, completes _ _ (by decide) false .absent ?_ hrun ?_ fun a ha hbrings =>
    hrest.stuck _ _ ha hbrings⟩
  · exact meets_oneLoop _ _ (by simp [init]) reliable_wholeTask
  · rintro hnil
    simp [hnil] at hsites

/-- The worker has been started, and all the rest is the continuation. -/
theorem completes_oneLoop_wholeTask :
    ∃ c c', (step { print := fun _ => "", parse := fun _ => none } {}).run
        (init { print := fun _ => "", parse := fun _ => none } [1] false .absent)
          (wholeTask.take 1) = some c ∧
      (step { print := fun _ => "", parse := fun _ => none } {}).run c (wholeTask.drop 1) =
        some c' ∧
      (wholeTask.drop 1).length ≤ c.workLeft ∧
      (Master.AllDone [1] c'.master ∨ ∃ b c'', (b.Reliable ∧ b.brings = 0) ∧
        step { print := fun _ => "", parse := fun _ => none } {} c' b = some c'') := by
  have hlabels : ∀ a ∈ wholeTask.take 1, a.Reliable ∧ a.OneLoop :=
    fun a ha => reliable_wholeTask a (List.mem_of_mem_take ha)
  have hrest : ∀ b ∈ wholeTask.drop 1, b.Reliable ∧ b.brings = 0 := by
    simp [wholeTask, oneTask, Action.Reliable, Action.brings]
  have hsome : ((step { print := fun _ => "", parse := fun _ => none } {}).run
      (init { print := fun _ => "", parse := fun _ => none } [1] false .absent)
        (wholeTask.take 1 ++ wholeTask.drop 1)).isSome := by
    decide
  obtain ⟨c', hall⟩ := Option.isSome_iff_exists.1 hsome
  obtain ⟨c, hrun, hrun'⟩ := Machine.run_append.1 hall
  have hworker : c.workers ≠ [] := by
    obtain rfl := Option.some_inj.1 hrun
    simp
  exact ⟨c, c', hrun, hrun', completes_oneLoop _ _ (by decide) false .absent hlabels hrun hworker
    hrest hrun'⟩

end Cluster

end Dcfpe

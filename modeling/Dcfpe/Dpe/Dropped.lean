import Dcfpe.Dpe.Stranded

/-!
# A dropped task is stranded

`Stranded` shows that nothing else strands a task.  Here is the other direction, for the tasks of a
list without repetition: what a step drops was RUNNING and is RUNNING afterwards, and there was
only one of it.  `Booked` counts the tasks on the wire and in the workers' hands: at most one of
each, and each of them RUNNING.  So when that one is lost, or its requester gone, nobody holds the
task. -/

set_option autoImplicit false

namespace Dcfpe

open Tokens

namespace Worker

variable {flags : Flags} {timing : Timing}

/-- How often a task is reported in requests that are being sent. -/
def reports (out : List Outgoing) (id : Int) : Nat :=
  weight (fun o => (o.req.reported.map Prod.fst).count id) out

theorem count_tasks_le (callback : Callback) (rep : ZMQResponse) (id : Int) :
    (UITask.handleResponse callback rep).tasks.count id ≤ rep.taskIds.count id := by
  rcases callback with _ | size
  · by_cases hok : rep.errorCode = .ok <;> simp [UITask.tasks, hok]
  · simp [UITask.tasks]

/-- No step of a worker makes a copy of a task: it stays in hand or goes into a report. -/
theorem count_inHand_moved {w t : Worker} {a : Action} {out : List Outgoing} (htidy : w.Tidy)
    (hm : Moved flags timing w a t out) (id : Int) :
    t.inHand.count id + reports out id ≤ w.inHand.count id + a.ids.count id := by
  rcases hm with @⟨k, rep, socket, callback, hk⟩ | ⟨hk, hr, hu⟩ | ⟨hq, hl, ha⟩ | ⟨hq, hl⟩ |
    ⟨hq, hl⟩ | ⟨hq, hl, he⟩ | ⟨hq, hl, he⟩ | @⟨now, sent, size, rep, rest, hq, hl, he⟩ |
    @⟨now, sent, b, rest, hq, hl, ha⟩ | ⟨hq, hquit, hl⟩
  · have hle := count_tasks_le callback rep id
    simp only [inHand, Action.ids, reports, weight_nil, List.flatMap_append, List.flatMap_cons,
      List.flatMap_nil, List.append_nil, List.count_append] at hle ⊢
    omega
  · have hpool := count_flatten_eraseIdx hk id
    simp only [inHand, Action.ids, reports, weight_nil, List.flatMap_append, List.flatMap_cons,
      List.flatMap_nil, List.append_nil, List.count_append, UITask.tasks, List.count_nil]
    omega
  · simp only [inHand, hq, Action.ids, reports, weight_nil, List.flatMap_cons, List.count_append]
    omega
  · simp only [inHand, hq, Action.ids, reports, weight_nil, List.flatMap_append, List.flatMap_cons,
      List.flatMap_nil, List.append_nil, UITask.tasks, List.count_append, List.count_nil]
    omega
  · simp only [inHand, hq, Action.ids, reports, weight_nil, List.flatMap_cons, List.count_append]
    omega
  · simp only [Action.ids, reports, weight_nil, List.count_nil, Nat.add_zero]
    split
    · simp only [inHand, hq, willExitDpe, List.flatMap_append, List.flatMap_cons,
        List.flatMap_nil, List.append_nil, List.count_append, UITask.tasks]
      omega
    · simp only [inHand, hq, List.flatMap_cons, List.count_append]
      omega
  · simp only [inHand, hq, Action.ids, reports, weight_nil, List.flatMap_cons, List.count_append,
      tasks_of_not_endsLoop he, List.flatten_append, List.flatten_cons, List.flatten_nil,
      List.append_nil, List.count_nil]
    omega
  · have hrep : reports (getNextTask flags now sent size { w with uiTasks := rest }).2 id = 0 := by
      rcases sent with _ | _
      · rfl
      · simp [reports, getNextTask, sendRequest, Request.reported]
    rw [hrep]
    simp only [inHand, getNextTask, sendRequest_uiTasks, sendRequest_pool, hq, Action.ids,
      List.flatMap_cons, List.count_append]
    omega
  · obtain ⟨hr, hu⟩ := htidy.sized b (by simp [posted, hq])
    have hrep : reports (finishExecuteTaskImpl flags timing now sent b { w with uiTasks := rest }).2
        id ≤ b.tasks.count id := by
      rcases sent with _ | _
      · exact Nat.zero_le _
      · have hids : ((finishItems b).map fun item =>
            (item.taskId, item.result, item.timeUsage)).map Prod.fst = b.tasks := by
          rw [reported_finishItems, Batch.outputs, map_fst_outputs hr hu]
        simp only [reports, finishExecuteTaskImpl, sendRequest, if_true, weight_cons, weight_nil,
          Request.reported, hids]
        omega
    simp only [inHand, finishExecuteTaskImpl, sendRequest_uiTasks, sendRequest_pool, hq,
      Action.ids, List.flatMap_cons, List.count_append, UITask.tasks, List.count_nil] at hrep ⊢
    omega
  · simp [inHand, Action.ids, reports, weight_nil]

theorem failsToReport_moved {w t : Worker} {now : Int} {sent : Bool} {out : List Outgoing}
    (hm : Moved flags timing w (.ui now sent) t out) (hf : w.FailsToReport sent) :
    out = [] ∧ ∃ id, t.inHand.count id < w.inHand.count id := by
  obtain ⟨ha, rfl, b, hhead, hne⟩ := hf
  obtain ⟨rest, hq⟩ : ∃ rest, w.uiTasks = .finishExecuteTask b :: rest := by
    rcases hq : w.uiTasks with _ | ⟨task, rest⟩
    · simp [hq] at hhead
    · simp only [hq, List.head?_cons, Option.some_inj] at hhead
      exact ⟨rest, by rw [hhead]⟩
  obtain ⟨id, hid⟩ := List.exists_mem_of_ne_nil _ hne
  have hpos := List.count_pos_iff.2 hid
  rcases hm with _ | _ | ⟨hq', -, ha'⟩ | ⟨hq', -⟩ | ⟨hq', -⟩ | ⟨hq', -, -⟩ | ⟨hq', -, -⟩ |
    ⟨hq', -, -⟩ | ⟨hq', -, -⟩
  · rw [alive_pop hq' rfl, ha] at ha'
    cases ha'
  all_goals
    rw [hq, List.cons.injEq] at hq'
    obtain ⟨heq, rfl⟩ := hq'
    cases heq
  refine ⟨rfl, id, ?_⟩
  simp only [inHand, finishExecuteTaskImpl, sendRequest_uiTasks, sendRequest_pool, hq,
    List.flatMap_cons, List.count_append, UITask.tasks]
  omega

/-- A closure that lets go of the node leaves the tasks in hand. -/
theorem releasesNode_moved {w t : Worker} {now : Int} {sent : Bool} {out : List Outgoing}
    (hm : Moved flags timing w (.ui now sent) t out) (hr : w.releasesNode sent = true) {id : Int}
    (hid : id ∈ w.inHand) : t.alive = false ∧ id ∈ t.inHand := by
  have ha : w.alive = true := alive_of_releasesNode hr
  have hgone : t.alive = false := by rw [alive_ui hm ha, hr]; rfl
  refine ⟨hgone, ?_⟩
  rw [mem_inHand] at hid ⊢
  rcases hm with _ | _ | ⟨hq, -, ha'⟩ | ⟨hq, -⟩ | ⟨hq, -⟩ | ⟨hq, -, he⟩ | ⟨hq, -, he⟩ |
    ⟨hq, -, he⟩ | @⟨_, _, b, rest, hq, -, ha'⟩ <;> rw [hq, List.exists_mem_cons_iff] at hid
  · rw [alive_pop hq rfl, ha] at ha'
    cases ha'
  · simp only [UITask.tasks, List.not_mem_nil, false_or] at hid
    refine hid.imp_left ?_
    rintro ⟨task, htask, hid⟩
    exact ⟨task, List.mem_append_left _ htask, hid⟩
  · simpa only [UITask.tasks, List.not_mem_nil, false_or] using hid
  · rw [tasks_eq_nil_of_endsLoop he] at hid
    simp only [List.not_mem_nil, false_or] at hid
    split
    · refine hid.imp_left ?_
      rintro ⟨task, htask, hid⟩
      exact ⟨task, List.mem_append_left _ htask, hid⟩
    · exact hid
  · rw [tasks_of_not_endsLoop he] at hid
    rcases hid with (hid | hid) | ⟨tasks, htasks, hid⟩
    · exact .inr ⟨_, List.mem_append_right _ (List.mem_singleton.2 rfl), hid⟩
    · exact .inl hid
    · exact .inr ⟨tasks, List.mem_append_left _ htasks, hid⟩
  · simpa only [UITask.tasks, List.not_mem_nil, false_or, getNextTask, sendRequest_uiTasks,
      sendRequest_pool] using hid
  · -- this closure is not what keeps the node
    rw [finishExecuteTaskImpl, sendRequest_alive, show alive { w with
      uiTasks := rest, runningTaskCount := w.runningTaskCount - 1 } = true from ha'] at hgone
    cases hgone

theorem inHand_run (flags : Flags) (myIp : String) (now : Int) (sent : Nat → Bool) (id : Int) :
    (run flags myIp now sent).1.inHand = [] ∧ reports (run flags myIp now sent).2 id = 0 := by
  have h : ∀ (i : Nat) (w : Worker), (startLoop flags now sent i w).1.inHand = w.inHand ∧
      reports (startLoop flags now sent i w).2 id = 0 := by
    intro i w
    induction i with
    | zero => exact ⟨rfl, rfl⟩
    | succ i ih =>
      refine ⟨?_, ?_⟩
      · rw [← ih.1]
        simp [startLoop, inHand, getNextTask]
      · rcases hs : sent i with _ | _
        · simpa [startLoop, getNextTask, sendRequest, reports, hs] using ih.2
        · simpa [startLoop, getNextTask, sendRequest, reports, hs, Request.reported] using ih.2
  have hfresh := fresh_beforeStart flags myIp
  obtain ⟨hhand, hreports⟩ := h flags.threadNumber (beforeStart flags myIp)
  refine ⟨hhand.trans ?_, hreports⟩
  simp [inHand, hfresh.uiTasks, hfresh.pool, List.flatMap_eq_nil_iff, UITask.tasks]

end Worker

namespace Cluster

variable (tf : TextFormat) (timing : Timing)

/-- How often a task is on the wire or in the hands of a worker. -/
def tokens (c : Cluster) (id : Int) : Nat :=
  weight (fun r => r.rep.taskIds.count id) c.toWorker +
    weight (fun site => site.node.inHand.count id) c.workers +
    weight (fun p => (p.req.reported.map Prod.fst).count id) c.toMaster

/-- A task is queued once, or it is RUNNING and once on the wire or in the hands of a worker, or
neither. -/
structure Booked (c : Cluster) : Prop where
  single : ∀ id, c.master.node.taskPendingQueue.count id + c.tokens id ≤ 1
  running : ∀ id, 0 < c.tokens id → c.master.node.Running id

theorem weight_post (i : Nat) (out : List Outgoing) (id : Int) :
    weight (fun p => (p.req.reported.map Prod.fst).count id) (post i out) =
      Worker.reports out id := by
  simp [weight, post, Worker.reports, Function.comp_def]

theorem tokens_actAt {c : Cluster} {i : Nat} {site : Site} {w : Worker} {a : Worker.Action}
    {out : List Outgoing} (htidy : site.node.Tidy) (hi : c.workers[i]? = some site)
    (hm : Worker.Moved site.flags timing site.node a w out) (id : Int) :
    tokens { c with
      workers := c.workers.set i { site with node := w }
      toMaster := c.toMaster ++ post i out } id ≤ c.tokens id + a.ids.count id := by
  have hset := weight_set (fun site : Site => site.node.inHand.count id) hi
    { site with node := w }
  have hc := Worker.count_inHand_moved htidy hm id
  simp only [tokens, weight_append, weight_post] at hset ⊢
  omega

/-- Only the master makes tasks. -/
theorem tokens_stepped {c c' : Cluster} {a : Action} (hwired : Wired c)
    (hstep : Stepped tf timing c a c')
    (hserve : ∀ k clk responseTime, a ≠ .serve k clk responseTime)
    (id : Int) : c'.tokens id ≤ c.tokens id := by
  rcases hstep with ⟨flags, myIp, now, sent⟩ | @⟨k, clk, responseTime⟩ | hk | hk | ⟨hk, hj⟩ |
    @⟨k, j, r, site, w, out, hk, hj, hi, hm⟩ | ⟨hi, hm⟩ | ⟨hi, hm⟩ | ⟨hi, hm⟩ | ⟨hi, hm⟩
  · obtain ⟨hin, hrep⟩ := Worker.inHand_run flags myIp now sent id
    simp [tokens, weight_post, hin, hrep]
  · exact absurd rfl (hserve k clk responseTime)
  · have hw := weight_eraseIdx (fun p : Packet => (p.req.reported.map Prod.fst).count id) hk
    simp only [tokens]
    omega
  · have hw := weight_eraseIdx (fun r : Reply => r.rep.taskIds.count id) hk
    simp only [tokens]
    omega
  · have hw := weight_eraseIdx (fun r : Reply => r.rep.taskIds.count id) hk
    simp only [tokens]
    omega
  · have hw := weight_eraseIdx (fun r : Reply => r.rep.taskIds.count id) hk
    have ht := tokens_actAt timing (hwired.tidy site (List.mem_of_getElem? hi)) hi hm id
    simp only [tokens, Worker.Action.ids, ZMQResponse.taskIds_mk] at ht ⊢
    omega
  · have ht := tokens_actAt timing (hwired.tidy _ (List.mem_of_getElem? hi)) hi hm id
    simpa [Worker.Action.ids, Response.taskIds] using ht
  · have ht := tokens_actAt timing (hwired.tidy _ (List.mem_of_getElem? hi)) hi hm id
    simpa [Worker.Action.ids] using ht
  · have ht := tokens_actAt timing (hwired.tidy _ (List.mem_of_getElem? hi)) hi hm id
    simpa [Worker.Action.ids] using ht
  · have ht := tokens_actAt timing (hwired.tidy _ (List.mem_of_getElem? hi)) hi hm id
    simpa [Worker.Action.ids] using ht

theorem booked_step {c c' : Cluster} {a : Action} (hwired : Wired c) (h : Booked c)
    (hstep : Stepped tf timing c a c') : Booked c' := by
  by_cases hserve : ∃ k clk responseTime, a = .serve k clk responseTime
  · obtain ⟨k, clk, responseTime, rfl⟩ := hserve
    rcases hstep with _ | @⟨_, _, _, p, rep, hk, hm, hget, hne⟩
    have hcount : ∀ id, (c.master.handleRequest tf clk responseTime
        p.req).node.taskPendingQueue.count id + tokens
          { c with
            master := c.master.handleRequest tf clk responseTime p.req
            toMaster := c.toMaster.eraseIdx k
            toWorker := c.toWorker ++ [⟨p.worker, p.socket, rep⟩] } id +
          (p.req.reported.map Prod.fst).count id =
        c.master.node.taskPendingQueue.count id + c.tokens id := by
      intro id
      have hw := weight_eraseIdx (fun p : Packet => (p.req.reported.map Prod.fst).count id) hk
      rw [hm.pending]
      simp only [tokens, weight_append, weight_cons, weight_nil, List.count_append] at hw ⊢
      omega
    refine ⟨fun id => ?_, fun id hpos => hm.handed id ?_⟩
    · refine Nat.le_trans ?_ (h.single id)
      rw [← hcount id]
      exact Nat.le_add_right _ _
    · by_cases hid : id ∈ rep.taskIds
      · exact .inl hid
      · have h1 := h.single id
        have h2 := hcount id
        have h3 := List.count_eq_zero_of_not_mem hid
        rw [hm.pending, List.count_append] at h2
        refine .inr ⟨fun hrep => ?_, h.running id (by omega)⟩
        have h4 := List.count_pos_iff.2 hrep
        rw [hm.pending, List.count_append] at h1
        omega
  · have hserve : ∀ k clk responseTime, a ≠ .serve k clk responseTime :=
      fun k clk responseTime ha => hserve ⟨k, clk, responseTime, ha⟩
    have hle := tokens_stepped tf timing hwired hstep hserve
    have hmaster := master_stepped tf timing hstep hserve
    refine ⟨fun id => ?_, fun id hpos => ?_⟩
    · rw [hmaster]
      have h1 := h.single id
      have h2 := hle id
      omega
    · rw [hmaster]
      exact h.running id (Nat.lt_of_lt_of_le hpos (hle id))

theorem booked_init {tasks : List Int} (hnd : tasks.Nodup) (readState : Bool) (file : StateFile) :
    Booked (init tf tasks readState file) := by
  refine ⟨fun id => ?_, fun id hpos => absurd hpos (Nat.lt_irrefl 0)⟩
  have hp := (MasterNode.start_started tf tasks readState file).pending
  have hn : (init tf tasks readState file).master.node =
      (MasterNode.start tf true tasks readState file).2.1 := rfl
  rw [hn, hp]
  exact List.nodup_iff_count_le_one.1 (hnd.filter _) id

/-! ## A dropped task -/

theorem Held.tokens_pos {c : Cluster} {id : Int} (h : c.Held id) : 0 < c.tokens id := by
  rcases h with ⟨r, hr, hid, -⟩ | ⟨site, hs, -, hid⟩ | ⟨p, hp, hid⟩
  · have h1 := List.count_pos_iff.2 hid
    have h2 := le_weight (fun r : Reply => r.rep.taskIds.count id) hr
    simp only [tokens]
    omega
  · have h1 := List.count_pos_iff.2 hid
    have h2 := le_weight (fun site : Site => site.node.inHand.count id) hs
    simp only [tokens]
    omega
  · have h1 := List.count_pos_iff.2 hid
    have h2 := le_weight (fun p : Packet => (p.req.reported.map Prod.fst).count id) hp
    simp only [tokens]
    omega

/-- A task in a reply that nobody awaits is RUNNING, and nobody holds it. -/
theorem Booked.stranded_of_reply {c : Cluster} (h : Booked c) {r : Reply} (hr : r ∈ c.toWorker)
    {id : Int} (hid : id ∈ r.rep.taskIds) (hA : ¬ c.Awaits r.worker r.socket) :
    ¬ c.NoStranded := by
  have h1 := List.count_pos_iff.2 hid
  have h2 := le_weight (fun r : Reply => r.rep.taskIds.count id) hr
  have hone := h.single id
  intro hns
  have hrun : c.master.node.Running id := h.running id (by simp only [tokens]; omega)
  simp only [tokens] at hone
  rcases hns id hrun with ⟨r', hr', hid', hA'⟩ | ⟨site, hs, -, hid'⟩ | ⟨p, hp, hid'⟩
  · have hne : r ≠ r' := fun heq => hA (heq ▸ hA')
    have h3 := List.count_pos_iff.2 hid'
    have h4 := add_le_weight (fun r : Reply => r.rep.taskIds.count id) hr hr' hne
    omega
  · have h3 := List.count_pos_iff.2 hid'
    have h4 := le_weight (fun site : Site => site.node.inHand.count id) hs
    omega
  · have h3 := List.count_pos_iff.2 hid'
    have h4 := le_weight (fun p : Packet => (p.req.reported.map Prod.fst).count id) hp
    omega

/-- A task in the hands of a worker without its node is RUNNING, and nobody holds it. -/
theorem Booked.stranded_of_worker {c : Cluster} (h : Booked c) {site : Site}
    (hs : site ∈ c.workers) {id : Int} (hid : id ∈ site.node.inHand)
    (ha : site.node.alive = false) : ¬ c.NoStranded := by
  have h1 := List.count_pos_iff.2 hid
  have h2 := le_weight (fun site : Site => site.node.inHand.count id) hs
  have hone := h.single id
  intro hns
  have hrun : c.master.node.Running id := h.running id (by simp only [tokens]; omega)
  simp only [tokens] at hone
  rcases hns id hrun with ⟨r, hr, hid', -⟩ | ⟨site', hs', ha', hid'⟩ | ⟨p, hp, hid'⟩
  · have h3 := List.count_pos_iff.2 hid'
    have h4 := le_weight (fun r : Reply => r.rep.taskIds.count id) hr
    omega
  · have hne : site ≠ site' := by
      rintro rfl
      rw [ha] at ha'
      cases ha'
    have h3 := List.count_pos_iff.2 hid'
    have h4 := add_le_weight (fun site : Site => site.node.inHand.count id) hs hs' hne
    omega
  · have h3 := List.count_pos_iff.2 hid'
    have h4 := le_weight (fun p : Packet => (p.req.reported.map Prod.fst).count id) hp
    omega

/-- A task that was somewhere and is nowhere is RUNNING, and nobody holds it. -/
theorem Booked.stranded_of_lost {c c' : Cluster} (h : Booked c) (hm : c'.master = c.master)
    (id : Int) (hlt : c'.tokens id < c.tokens id) : ¬ c'.NoStranded := by
  have hone := h.single id
  intro hns
  have hheld := hns id (by rw [hm]; exact h.running id (by omega))
  have hpos := hheld.tokens_pos
  omega

theorem not_awaits_of_gone {c c' : Cluster} {i : Nat} {site : Site} {w : Worker}
    (hi : c.workers[i]? = some site) (hw : c'.workers = c.workers.set i { site with node := w })
    (ha : w.alive = false) (socket : Nat) : ¬ c'.Awaits i socket := by
  rintro ⟨site', hi', ha', -⟩
  rw [getElem?_workers_set hi hw, Option.some_inj] at hi'
  rw [← hi'] at ha'
  simp [ha] at ha'

/-- Nobody waits for a reply whose socket has left `context_`. -/
theorem not_awaits_of_answered {c c' : Cluster} {i k : Nat} {site : Site} {w : Worker}
    {entry : Nat × Callback} (htidy : site.node.Tidy) (hi : c.workers[i]? = some site)
    (hw : c'.workers = c.workers.set i { site with node := w })
    (hcontext : w.context = site.node.context.eraseIdx k)
    (hk : site.node.context[k]? = some entry) : ¬ c'.Awaits i entry.1 := by
  rintro ⟨site', hi', -, hmem⟩
  rw [getElem?_workers_set hi hw, Option.some_inj] at hi'
  rw [← hi', hcontext] at hmem
  have hnd := htidy.nodup
  obtain ⟨hlt, hget⟩ := List.getElem?_eq_some_iff.1 hk
  have hperm := List.getElem_cons_eraseIdx_perm hlt
  rw [hget] at hperm
  rw [← (hperm.map Prod.fst).nodup_iff, List.map_cons, List.nodup_cons] at hnd
  exact hnd.1 (List.mem_map.2 ⟨_, hmem, rfl⟩)

/-- **A dropped task is stranded.** -/
theorem stranded_of_drops {c c' : Cluster} {a : Action} (hwired : Wired c) (h : Booked c)
    (hd : c.Drops a) (hstep : Stepped tf timing c a c') : ¬ c'.NoStranded := by
  have hb : Booked c' := booked_step tf timing hwired h hstep
  rcases hstep with ⟨flags, myIp, now, sent⟩ | @⟨k, clk, responseTime, p, rep, hk, hm, hget, hne⟩ |
    @⟨k, p, hk⟩ | @⟨k, r, hk⟩ | _ | _ | @⟨i, k, site, w, out, hi, hm⟩ | _ |
    @⟨i, now, sent, site, w, out, hi, hm⟩ | @⟨i, site, w, out, hi, hm⟩
  · exact hd.elim
  · obtain ⟨p', hk', hsome, hpend, hA⟩ := hd
    obtain rfl : p = p' := Option.some_inj.1 (hk.symm.trans hk')
    obtain ⟨id, hid⟩ := List.exists_mem_of_ne_nil _ (hne hsome hpend)
    exact hb.stranded_of_reply (List.mem_append_right _ (List.mem_singleton.2 rfl)) hid hA
  · obtain ⟨p', hk', hne⟩ := hd
    obtain rfl : p = p' := Option.some_inj.1 (hk.symm.trans hk')
    obtain ⟨r, hr⟩ := List.exists_mem_of_ne_nil _ hne
    have h1 := List.count_pos_iff.2 (List.mem_map_of_mem (f := Prod.fst) hr)
    have h2 := weight_eraseIdx (fun p : Packet => (p.req.reported.map Prod.fst).count r.1) hk
    refine h.stranded_of_lost rfl r.1 ?_
    simp only [tokens]
    omega
  · obtain ⟨r', hk', hne, -⟩ := hd
    obtain rfl : r = r' := Option.some_inj.1 (hk.symm.trans hk')
    obtain ⟨id, hid⟩ := List.exists_mem_of_ne_nil _ hne
    have h1 := List.count_pos_iff.2 hid
    have h2 := weight_eraseIdx (fun r : Reply => r.rep.taskIds.count id) hk
    refine h.stranded_of_lost rfl id ?_
    simp only [tokens]
    omega
  · exact hd.elim
  · exact hd.elim
  · -- the reply comes too late: its socket has left `context_`
    obtain ⟨site', entry, hi', hk, hA, r, hr, hkey, hne⟩ := hd
    obtain rfl : site = site' := Option.some_inj.1 (hi.symm.trans hi')
    obtain ⟨id, hid⟩ := List.exists_mem_of_ne_nil _ hne
    obtain ⟨hri, hrs⟩ := Prod.mk.inj hkey
    refine hb.stranded_of_reply hr hid ?_
    rw [hri, hrs]
    rcases hm with ⟨hk'⟩
    exact not_awaits_of_answered (hwired.tidy site (List.mem_of_getElem? hi)) hi rfl rfl hk
  · exact hd.elim
  · obtain ⟨site', hi', hd⟩ := hd
    obtain rfl : site = site' := Option.some_inj.1 (hi.symm.trans hi')
    rcases hd with hf | ⟨hr, hne⟩
    · obtain ⟨rfl, id, hlt⟩ := Worker.failsToReport_moved hm hf
      have hset := weight_set (fun site : Site => site.node.inHand.count id) hi
        { site with node := w }
      refine h.stranded_of_lost rfl id ?_
      simp only [tokens, weight_append, weight_post, Worker.reports, weight_nil] at hset ⊢
      omega
    · obtain ⟨id, hid⟩ := List.exists_mem_of_ne_nil _ hne
      obtain ⟨ha, hid'⟩ := Worker.releasesNode_moved hm hr hid
      exact hb.stranded_of_worker (List.mem_of_getElem? (getElem?_workers_set hi rfl)) hid' ha
  · -- what the process has, and what is on its way to it
    obtain ⟨site', hi', -, hd⟩ := hd
    obtain rfl : site = site' := Option.some_inj.1 (hi.symm.trans hi')
    rcases hm
    rcases hd with hne | ⟨socket, -, r, hr, hkey, hne⟩
    · obtain ⟨id, hid⟩ := List.exists_mem_of_ne_nil _ hne
      exact hb.stranded_of_worker (List.mem_of_getElem? (getElem?_workers_set hi rfl)) hid
        (by simp [Worker.alive])
    · obtain ⟨id, hid⟩ := List.exists_mem_of_ne_nil _ hne
      refine hb.stranded_of_reply hr hid ?_
      obtain ⟨hri, -⟩ := Prod.mk.inj hkey
      rw [hri]
      exact not_awaits_of_gone hi rfl (by simp [Worker.alive]) _

/-- A step that drops a task can be taken. -/
theorem enabled_of_drops {c : Cluster} {a : Action} (hd : c.Drops a) :
    ∃ c', step tf timing c a = some c' := by
  rcases a with _ | ⟨k, clk, responseTime⟩ | k | k | _ | ⟨i, k⟩ | _ | ⟨i, now, sent⟩ | i
  · exact hd.elim
  · obtain ⟨p, hk, -⟩ := hd
    simp [step, hk]
  · obtain ⟨p, hk, -⟩ := hd
    simp [step, (List.getElem?_eq_some_iff.1 hk).1]
  · obtain ⟨r, hk, -⟩ := hd
    simp [step, (List.getElem?_eq_some_iff.1 hk).1]
  · exact hd.elim
  · obtain ⟨site, entry, hi, hk, -⟩ := hd
    simp [step, actAt, hi, Worker.act, hk]
  · exact hd.elim
  · obtain ⟨site, hi, hd⟩ := hd
    have ha : site.node.alive = true := by
      rcases hd with ⟨ha, -⟩ | ⟨hr, -⟩
      · exact ha
      · exact Worker.alive_of_releasesNode hr
    have hne : site.node.uiTasks ≠ [] := by
      rintro hnil
      rcases hd with ⟨-, -, b, hhead, -⟩ | ⟨hr, -⟩
      · simp [hnil] at hhead
      · simp [Worker.releasesNode, hnil] at hr
    obtain ⟨task, rest, hq⟩ := List.exists_cons_of_ne_nil hne
    simp [step, actAt, hi, Worker.act, hq, (Worker.alive_iff.1 ha).1]
  · obtain ⟨site, hi, ⟨ha, hquit, hq⟩, -⟩ := hd
    simp [step, actAt, hi, Worker.act, hquit, hq, (Worker.alive_iff.1 ha).1]

/-- **When no task is stranded.**  In a run of the cluster every RUNNING task has a live holder in
every state if and only if no step drops a task. -/
theorem noStranded_iff {tasks : List Int} (hnd : tasks.Nodup) (readState : Bool) (file : StateFile)
    (as : List Action) :
    (step tf timing).Meets (fun c a => ∀ c', step tf timing c a = some c' → c'.NoStranded)
        (init tf tasks readState file) as ↔
      (step tf timing).Meets (fun c a => ¬ c.Drops a) (init tf tasks readState file) as := by
  refine Machine.meets_congr
    (P := fun c => c.Wired ∧ c.master.node.Synced ∧ c.Booked ∧ c.NoStranded)
    (fun c a c' ⟨hw, hs, hb, _⟩ hC hstep => ?_) (fun c a ⟨hw, hs, hb, hn⟩ => ⟨?_, ?_⟩)
    ⟨wired_init tf tasks readState file, MasterNode.start_synced tf tasks readState file,
      booked_init tf hnd readState file, noStranded_init tf tasks readState file⟩
  · have hst := stepped_of_step tf timing hstep
    exact ⟨wired_step tf timing hw hstep, synced_step tf timing hs hst,
      booked_step tf timing hw hb hst, hC c' hstep⟩
  · intro hC hd
    obtain ⟨c', hstep⟩ := enabled_of_drops tf timing hd
    exact stranded_of_drops tf timing hw hb hd (stepped_of_step tf timing hstep) (hC c' hstep)
  · intro hd c' hstep
    exact noStranded_step tf timing hw hs hn hd (stepped_of_step tf timing hstep)

/-- A worker gives its GetTask up just before the reply arrives. -/
def lateReply : List Action :=
  [.launch {} "w" 0 fun _ => true, .serve 0 {} 0, .timeOut 0 0, .deliver 0, .ui 0 0 true]

/-- The step that strands the task is the third: the tasks for the GetTask are on their way. -/
theorem noStranded_iff_lateReply :
    [1].Nodup ∧ ¬ (step { print := fun _ => "", parse := fun _ => none } {}).Meets
      (fun c a => ∀ c', step { print := fun _ => "", parse := fun _ => none } {} c a = some c' →
        c'.NoStranded)
      (init { print := fun _ => "", parse := fun _ => none } [1] false .absent) lateReply := by
  refine ⟨by decide, fun h => ?_⟩
  have hkeeps := (noStranded_iff _ _ (by decide) false .absent lateReply).1 h
  have hrun : (step { print := fun _ => "", parse := fun _ => none } {}).run
      (init { print := fun _ => "", parse := fun _ => none } [1] false .absent)
        (lateReply.take 2) = some _ := rfl
  refine ((Machine.meets_append hrun).1 hkeeps).2.1 ⟨_, (0, .handleGetTask), rfl, rfl, ?_⟩
  exact ⟨⟨_, rfl, rfl, List.mem_singleton.2 rfl⟩, _, List.mem_singleton.2 rfl, rfl, by decide⟩

/-- The task of that reply is RUNNING in the end, and nobody holds it. -/
theorem stranded_lateReply :
    ∃ c, (step { print := fun _ => "", parse := fun _ => none } {}).run
        (init { print := fun _ => "", parse := fun _ => none } [1] false .absent)
          lateReply = some c ∧
      c.master.node.Running 1 ∧ ¬ c.Held 1 := by
  have hsome : ((step { print := fun _ => "", parse := fun _ => none } {}).run
      (init { print := fun _ => "", parse := fun _ => none } [1] false .absent) lateReply).map
        (fun c => (c.master.node.taskMap[(1 : Int)]?, c.toWorker, c.toMaster,
          c.workers.map fun site => site.node.inHand)) =
      some (some { taskId := 1, status := .running }, [], [], [[]]) := by
    decide
  obtain ⟨c, hrun, hc⟩ := Option.map_eq_some_iff.1 hsome
  simp only [Prod.mk.injEq] at hc
  obtain ⟨hitem, hw, hm, hin⟩ := hc
  refine ⟨c, hrun, ⟨_, hitem, rfl⟩, ?_⟩
  rintro (⟨r, hr, -⟩ | ⟨site, hs, -, hid⟩ | ⟨p, hp, -⟩)
  · simp [hw] at hr
  · have hmem : site.node.inHand ∈ c.workers.map fun site => site.node.inHand :=
      List.mem_map_of_mem hs
    rw [hin, List.mem_singleton] at hmem
    simp [hmem] at hid
  · simp [hm] at hp

end Cluster

end Dcfpe

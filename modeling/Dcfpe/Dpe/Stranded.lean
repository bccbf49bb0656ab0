import Dcfpe.Dpe.ComputedOnce
import Dcfpe.Dpe.Sockets

/-!
# Stranded tasks

The master marks a task RUNNING when it puts it into a reply and never takes it back: only a
FinishCompute changes the status again, or a restart from the state file.  A task is `Held` as long
as that can still happen: the reply is on its way to a request that waits for it, or the task is in
the hands of a worker whose node is there, or its result is on its way to the master.

`Drops` lists the steps after which it cannot: a reply with tasks, or a request with results, is
lost; a GetTask is given up (after five seconds), or with the process that sent it, when the tasks
for it are assigned or under way; a node goes, or the main loop it runs in ends, with tasks in hand;
a worker fails to send its results.
-/

set_option autoImplicit false

namespace Dcfpe

/-- The tasks a closure of the UI thread carries: those of an unhandled GetTask reply, and those of
a computed batch. -/
def UITask.tasks : UITask → List Int
  | .handleResponse .handleGetTask rep => if rep.errorCode = .ok then rep.taskIds else []
  | .handleResponse (.handleFinishCompute _) _ => []
  | .finishExecuteTask b => b.tasks
  | .exitDpeImpl => []
  | .quitMainLoop => []

namespace Worker

variable {flags : Flags} {timing : Timing}

/-- The tasks in the hands of a worker. -/
def inHand (w : Worker) : List Int := w.uiTasks.flatMap UITask.tasks ++ w.pool.flatten

/-- The worker waits for the reply to a GetTask it has sent from this socket. -/
def Awaits (w : Worker) (socket : Nat) : Prop :=
  w.alive = true ∧ (socket, .handleGetTask) ∈ w.context

/-- The main loop may end, and the node is still there. -/
def Leaves (w : Worker) : Prop := w.alive = true ∧ w.quitting = true ∧ w.uiTasks = []

/-- `FinishExecuteTaskImpl` runs next, and the request for its results cannot be sent. -/
def FailsToReport (w : Worker) (sent : Bool) : Prop :=
  w.alive = true ∧ sent = false ∧
    ∃ b, w.uiTasks.head? = some (.finishExecuteTask b) ∧ b.tasks ≠ []

theorem tasks_eq_nil_of_endsLoop {callback : Callback} {rep : ZMQResponse}
    (he : callback.endsLoop rep = true) : (UITask.handleResponse callback rep).tasks = [] := by
  rcases callback with _ | size
  · by_cases hok : rep.errorCode = .ok
    · simp [Callback.endsLoop, hok] at he
      simp [UITask.tasks, hok, he]
    · simp [UITask.tasks, hok]
  · rfl

theorem tasks_of_not_endsLoop {rep : ZMQResponse}
    (he : Callback.endsLoop .handleGetTask rep = false) :
    (UITask.handleResponse .handleGetTask rep).tasks = rep.taskIds := by
  simp [Callback.endsLoop] at he
  simp [UITask.tasks, he]

theorem map_fst_outputs {tasks result timeUsage : List Int} (hr : result.length = tasks.length)
    (ht : timeUsage.length = tasks.length) :
    (tasks.zip (result.zip timeUsage)).map Prod.fst = tasks := by
  rw [List.map_fst_zip]
  rw [List.length_zip]
  omega

theorem mem_inHand {w : Worker} {id : Int} :
    id ∈ w.inHand ↔ (∃ task ∈ w.uiTasks, id ∈ task.tasks) ∨ ∃ tasks ∈ w.pool, id ∈ tasks := by
  simp [inHand]

theorem mem_or_mem_eraseIdx {α : Type} {l : List α} {k : Nat} {x y : α} (hk : l[k]? = some x)
    (hy : y ∈ l) : y = x ∨ y ∈ l.eraseIdx k := by
  obtain ⟨hlt, rfl⟩ := List.getElem?_eq_some_iff.1 hk
  exact List.mem_cons.1 ((List.getElem_cons_eraseIdx_perm hlt).mem_iff.2 hy)

/-- A task leaves the hands of a worker with its result, or because the worker fails to send it. -/
theorem inHand_moved {w t : Worker} {a : Action} {out : List Outgoing} (htidy : w.Tidy)
    (hm : Moved flags timing w a t out) (ha : w.alive = true) {id : Int} (hid : id ∈ w.inHand)
    (hkeep : ∀ now sent, a = .ui now sent → ¬ w.FailsToReport sent) :
    id ∈ t.inHand ∨ ∃ o ∈ out, id ∈ o.req.reported.map Prod.fst := by
  rw [mem_inHand] at hid ⊢
  rcases hm with hk | ⟨hk, hr, hu⟩ | ⟨hq, hl, ha'⟩ | ⟨hq, hl⟩ | ⟨hq, hl⟩ | ⟨hq, hl, he⟩ |
    ⟨hq, hl, he⟩ | @⟨now, sent, size, rep, rest, hq, hl, he⟩ | @⟨now, sent, b, rest, hq, hl, -⟩ |
    ⟨hq, hquit, hl⟩
  · refine .inl (hid.imp_left ?_)
    rintro ⟨task, htask, hid⟩
    exact ⟨task, List.mem_append_left _ htask, hid⟩
  · left
    rcases hid with ⟨task, htask, hid⟩ | ⟨tasks, htasks, hid⟩
    · exact .inl ⟨task, List.mem_append_left _ htask, hid⟩
    · rcases mem_or_mem_eraseIdx hk htasks with rfl | htasks
      · exact .inl ⟨_, List.mem_append_right _ (List.mem_singleton.2 rfl), hid⟩
      · exact .inr ⟨tasks, htasks, hid⟩
  · rw [alive_pop hq rfl, ha] at ha'
    cases ha'
  · left
    rw [hq, List.exists_mem_cons_iff] at hid
    simp only [UITask.tasks, List.not_mem_nil, false_or] at hid
    refine hid.imp_left ?_
    rintro ⟨task, htask, hid⟩
    exact ⟨task, List.mem_append_left _ htask, hid⟩
  · left
    rw [hq, List.exists_mem_cons_iff] at hid
    simpa only [UITask.tasks, List.not_mem_nil, false_or] using hid
  · left
    rw [hq, List.exists_mem_cons_iff, tasks_eq_nil_of_endsLoop he] at hid
    simp only [List.not_mem_nil, false_or] at hid
    split
    · refine hid.imp_left ?_
      rintro ⟨task, htask, hid⟩
      exact ⟨task, List.mem_append_left _ htask, hid⟩
    · exact hid
  · left
    rw [hq, List.exists_mem_cons_iff, tasks_of_not_endsLoop he] at hid
    rcases hid with (hid | hid) | ⟨tasks, htasks, hid⟩
    · exact .inr ⟨_, List.mem_append_right _ (List.mem_singleton.2 rfl), hid⟩
    · exact .inl hid
    · exact .inr ⟨tasks, List.mem_append_left _ htasks, hid⟩
  · rw [hq, List.exists_mem_cons_iff] at hid
    simp only [UITask.tasks, List.not_mem_nil, false_or] at hid
    simp only [getNextTask, sendRequest_uiTasks, sendRequest_pool]
    exact .inl hid
  · rw [hq, List.exists_mem_cons_iff] at hid
    simp only [UITask.tasks] at hid
    have hrest : (∃ task ∈ rest, id ∈ task.tasks) ∨ (∃ tasks ∈ w.pool, id ∈ tasks) →
        (∃ task ∈ (finishExecuteTaskImpl flags timing now sent b
            { w with uiTasks := rest }).1.uiTasks, id ∈ task.tasks) ∨
          ∃ tasks ∈ (finishExecuteTaskImpl flags timing now sent b
            { w with uiTasks := rest }).1.pool, id ∈ tasks := by
      simp only [finishExecuteTaskImpl, sendRequest_uiTasks, sendRequest_pool]
      exact fun h => h
    rcases hid with (hid | hid) | hid
    · right
      rcases sent with _ | _
      · refine absurd ⟨ha, rfl, b, by rw [hq]; rfl, ?_⟩ (hkeep now false rfl)
        exact List.ne_nil_of_mem hid
      · obtain ⟨hr, hu⟩ := htidy.sized b (by simp [posted, hq])
        refine ⟨_, List.mem_singleton.2 rfl, ?_⟩
        show id ∈ ((finishItems b).map fun item =>
          (item.taskId, item.result, item.timeUsage)).map Prod.fst
        rw [reported_finishItems, Batch.outputs, map_fst_outputs hr hu]
        exact hid
    · exact .inl (hrest (.inl hid))
    · exact .inl (hrest (.inr hid))
  · exact .inl hid

/-- A worker waits until the answer, unless it is left. -/
theorem awaits_moved {w t : Worker} {a : Action} {out : List Outgoing}
    (hm : Moved flags timing w a t out) {socket : Nat} (h : w.Awaits socket)
    (hend : a ≠ .endMainLoop)
    (hanswer : ∀ k rep, a = .answer k rep → w.context[k]? ≠ some (socket, .handleGetTask)) :
    t.Awaits socket := by
  refine ⟨alive_moved hm h.1 (fun now sent _ => ?_) hend, ?_⟩
  · exact releasesNode_of_context (List.ne_nil_of_mem h.2) sent
  · rcases context_moved hm hend with ⟨k, rep, ha, hc⟩ | ⟨new, hc⟩
    · rw [hc]
      rcases hk : w.context[k]? with _ | entry
      · rw [List.eraseIdx_of_length_le (List.getElem?_eq_none_iff.1 hk)]
        exact h.2
      · refine (mem_or_mem_eraseIdx hk h.2).resolve_left fun heq => ?_
        exact hanswer k rep ha (by rw [hk, heq])
    · rw [hc]
      exact List.mem_append_left _ h.2

/-- Two entries of `context_` with one socket are one. -/
theorem Tidy.callback_eq {w : Worker} (h : w.Tidy) {socket : Nat} {c c' : Callback}
    (hc : (socket, c) ∈ w.context) (hc' : (socket, c') ∈ w.context) : c = c' := by
  have hinj := List.inj_on_of_nodup_map h.nodup hc hc' rfl
  exact (Prod.mk.inj hinj).2

/-- The reply that is awaited at a socket brings its tasks into the hands of the worker. -/
theorem inHand_answer {w t : Worker} {k socket : Nat} {rep : Response} {out : List Outgoing}
    {callback : Callback} (htidy : w.Tidy)
    (hm : Moved flags timing w (.answer k { errorCode := .ok, body := rep }) t out)
    (h : w.Awaits socket) (hk : w.context[k]? = some (socket, callback)) :
    t.alive = true ∧ ∀ id ∈ rep.taskIds, id ∈ t.inHand := by
  obtain rfl : callback = .handleGetTask := htidy.callback_eq (List.mem_of_getElem? hk) h.2
  refine ⟨alive_moved hm h.1 (by simp) (by simp), fun id hid => mem_inHand.2 (.inl ?_)⟩
  rcases hm with ⟨hk'⟩
  rw [hk, Option.some_inj, Prod.mk.injEq] at hk'
  obtain ⟨-, rfl⟩ := hk'
  exact ⟨_, List.mem_append_right _ (List.mem_singleton.2 rfl), hid⟩

end Worker

namespace Cluster

variable (tf : TextFormat) (timing : Timing)

/-- Worker `i` waits for the reply to a GetTask it has sent from this socket. -/
def Awaits (c : Cluster) (i socket : Nat) : Prop :=
  ∃ site, c.workers[i]? = some site ∧ site.node.Awaits socket

/-- The task has a live holder. -/
def Held (c : Cluster) (id : Int) : Prop :=
  (∃ r ∈ c.toWorker, id ∈ r.rep.taskIds ∧ c.Awaits r.worker r.socket) ∨
  (∃ site ∈ c.workers, site.node.alive = true ∧ id ∈ site.node.inHand) ∨
  ∃ p ∈ c.toMaster, id ∈ p.req.reported.map Prod.fst

/-- Tasks are on their way to worker `i`, for a GetTask it waits for at this socket. -/
def Assigned (c : Cluster) (i socket : Nat) : Prop :=
  c.Awaits i socket ∧ ∃ r ∈ c.toWorker, r.key = (i, socket) ∧ r.rep.taskIds ≠ []

/-- The step drops a task. -/
def Drops (c : Cluster) : Action → Prop
  | .serve k _ _ =>
    ∃ p, c.toMaster[k]? = some p ∧ p.req.getTask.isSome ∧
      c.master.node.taskPendingQueue ≠ [] ∧ ¬ c.Awaits p.worker p.socket
  | .loseRequest k => ∃ p, c.toMaster[k]? = some p ∧ p.req.reported ≠ []
  | .loseReply k =>
    ∃ r, c.toWorker[k]? = some r ∧ r.rep.taskIds ≠ [] ∧ c.Awaits r.worker r.socket
  | .timeOut i k =>
    ∃ site entry, c.workers[i]? = some site ∧ site.node.context[k]? = some entry ∧
      c.Assigned i entry.1
  | .ui i _ sent =>
    ∃ site, c.workers[i]? = some site ∧ (site.node.FailsToReport sent ∨
      site.node.releasesNode sent = true ∧ site.node.inHand ≠ [])
  | .endMainLoop i =>
    ∃ site, c.workers[i]? = some site ∧ site.node.Leaves ∧
      (site.node.inHand ≠ [] ∨ ∃ socket, c.Assigned i socket)
  | _ => False

/-- Every RUNNING task has a live holder. -/
def NoStranded (c : Cluster) : Prop := ∀ id, c.master.node.Running id → c.Held id

/-! ## A step that drops nothing -/

theorem Held.mono {c c' : Cluster} {id : Int} (h : c.Held id)
    (hr : ∀ r ∈ c.toWorker, id ∈ r.rep.taskIds → c.Awaits r.worker r.socket → c'.Held id)
    (hw : ∀ site ∈ c.workers, site.node.alive = true → id ∈ site.node.inHand → c'.Held id)
    (hp : ∀ p ∈ c.toMaster, id ∈ p.req.reported.map Prod.fst → c'.Held id) : c'.Held id := by
  rcases h with ⟨r, hm, hid, ha⟩ | ⟨site, hm, ha, hid⟩ | ⟨p, hm, hid⟩
  · exact hr r hm hid ha
  · exact hw site hm ha hid
  · exact hp p hm hid

section Worker

variable {timing} {c c' : Cluster} {i : Nat} {site : Site} {a : Worker.Action} {w : Worker}
  {out : List Outgoing}

theorem getElem?_workers_set (hi : c.workers[i]? = some site)
    (hw : c'.workers = c.workers.set i { site with node := w }) :
    c'.workers[i]? = some { site with node := w } := by
  obtain ⟨hlt, -⟩ := List.getElem?_eq_some_iff.1 hi
  rw [hw, List.getElem?_set_self hlt]

/-- A reply that is awaited before a step of worker `i` is awaited after it, if that worker does not
leave and the step does not answer its request. -/
theorem awaits_actAt (hi : c.workers[i]? = some site)
    (hm : Worker.Moved site.flags timing site.node a w out)
    (hw : c'.workers = c.workers.set i { site with node := w }) {j socket : Nat}
    (h : c.Awaits j socket) (hend : j = i → a ≠ .endMainLoop)
    (hanswer : j = i → ∀ k rep, a = .answer k rep →
      site.node.context[k]? ≠ some (socket, .handleGetTask)) : c'.Awaits j socket := by
  obtain ⟨site', hj, ha⟩ := h
  by_cases hij : j = i
  · subst hij
    obtain rfl : site = site' := Option.some_inj.1 (hi.symm.trans hj)
    exact ⟨_, getElem?_workers_set hi hw, Worker.awaits_moved hm ha (hend rfl) (hanswer rfl)⟩
  · refine ⟨site', ?_, ha⟩
    rw [hw, List.getElem?_set_ne (Ne.symm hij)]
    exact hj

/-- A task in the hands of a worker before a step of worker `i` is held after it, if the worker
keeps its node and its results, if it sends any, go out. -/
theorem held_actAt_inHand (htidy : site.node.Tidy) (hi : c.workers[i]? = some site)
    (hm : Worker.Moved site.flags timing site.node a w out)
    (hw : c'.workers = c.workers.set i { site with node := w })
    (hp : c'.toMaster = c.toMaster ++ post i out) {site' : Site} (hs : site' ∈ c.workers)
    (ha : site'.node.alive = true) {id : Int} (hid : id ∈ site'.node.inHand)
    (hkeep : site.node.alive = true → id ∈ site.node.inHand → a ≠ .endMainLoop ∧
      ∀ now sent, a = .ui now sent →
        site.node.releasesNode sent = false ∧ ¬ site.node.FailsToReport sent) : c'.Held id := by
  obtain ⟨j, hj⟩ := List.mem_iff_getElem?.1 hs
  by_cases hij : j = i
  · subst hij
    obtain rfl : site = site' := Option.some_inj.1 (hi.symm.trans hj)
    obtain ⟨hend, hui⟩ := hkeep ha hid
    have ha' := Worker.alive_moved hm ha (fun now sent h => (hui now sent h).1) hend
    rcases Worker.inHand_moved htidy hm ha hid (fun now sent h => (hui now sent h).2) with
      hid' | ⟨o, ho, hid'⟩
    · exact .inr (.inl ⟨_, List.mem_of_getElem? (getElem?_workers_set hi hw), ha', hid'⟩)
    · refine .inr (.inr ⟨⟨j, o.socket, o.req⟩, ?_, hid'⟩)
      rw [hp]
      exact List.mem_append_right _ (List.mem_map.2 ⟨o, ho, rfl⟩)
  · refine .inr (.inl ⟨site', List.mem_iff_getElem?.2 ⟨j, ?_⟩, ha, hid⟩)
    rw [hw, List.getElem?_set_ne (Ne.symm hij)]
    exact hj

/-- The two lemmas above together, for a step that takes no reply off the wire. -/
theorem held_actAt (htidy : site.node.Tidy) (hi : c.workers[i]? = some site)
    (hm : Worker.Moved site.flags timing site.node a w out) {id : Int} (h : c.Held id)
    (hend : a = .endMainLoop → site.node.alive = true →
      id ∉ site.node.inHand ∧ ∀ socket, ¬ c.Assigned i socket)
    (hui : ∀ now sent, a = .ui now sent → id ∈ site.node.inHand →
      site.node.releasesNode sent = false ∧ ¬ site.node.FailsToReport sent)
    (hanswer : ∀ k rep entry, a = .answer k rep → site.node.context[k]? = some entry →
      ¬ c.Assigned i entry.1) :
    Held { c with
      workers := c.workers.set i { site with node := w }
      toMaster := c.toMaster ++ post i out } id := by
  refine h.mono (fun r hm' hid hA => ?_) (fun site' hs ha hid => ?_) (fun p hm' hid => ?_)
  · have hassigned : r.worker = i → c.Assigned i r.socket := by
      rintro rfl
      exact ⟨hA, r, hm', rfl, List.ne_nil_of_mem hid⟩
    refine .inl ⟨r, hm', hid, ?_⟩
    refine awaits_actAt hi hm rfl hA (fun hri ha => ?_) (fun hri k rep ha hk => ?_)
    · obtain ⟨site', hi', halive, -⟩ := (hassigned hri).1
      obtain rfl : site = site' := Option.some_inj.1 (hi.symm.trans hi')
      exact (hend ha halive).2 _ (hassigned hri)
    · exact hanswer k rep _ ha hk (hassigned hri)
  · exact held_actAt_inHand htidy hi hm rfl rfl hs ha hid fun halive hid =>
      ⟨fun ha => (hend ha halive).1 hid, fun now sent ha => hui now sent ha hid⟩
  · exact .inr (.inr ⟨p, List.mem_append_left _ hm', hid⟩)

end Worker

theorem socketIdx_eq_some {c : Cluster} {i socket j : Nat} (h : c.socketIdx i socket = some j)
    {site : Site} (hi : c.workers[i]? = some site) :
    ∃ callback, site.node.context[j]? = some (socket, callback) := by
  rw [socketIdx, hi] at h
  obtain ⟨hlt, hk, -⟩ := List.findIdx?_eq_some_iff_getElem.1 h
  refine ⟨site.node.context[j].2, ?_⟩
  rw [List.getElem?_eq_getElem hlt, ← eq_of_beq hk]

theorem socketIdx_of_awaits {c : Cluster} {i socket : Nat} (h : c.Awaits i socket) :
    c.socketIdx i socket ≠ none := by
  obtain ⟨site, hi, -, hs⟩ := h
  rw [socketIdx, hi]
  intro hnone
  have hall := List.findIdx?_eq_none_iff.1 hnone _ hs
  simp at hall

/-- Two replies on the wire are for different sockets. -/
theorem Wired.reply_key_ne {c : Cluster} (h : Wired c) {k : Nat} {r₀ r : Reply}
    (hk : c.toWorker[k]? = some r₀) (hr : r ∈ c.toWorker.eraseIdx k) : r.key ≠ r₀.key := by
  obtain ⟨hlt, hget⟩ := List.getElem?_eq_some_iff.1 hk
  have hnd : (c.toWorker.map Reply.key).Nodup := (List.nodup_append.1 h.nodup).2.1
  have hperm : (r₀ :: c.toWorker.eraseIdx k).Perm c.toWorker := by
    rw [← hget]
    exact List.getElem_cons_eraseIdx_perm hlt
  rw [← (hperm.map Reply.key).nodup_iff, List.map_cons, List.nodup_cons] at hnd
  intro heq
  exact hnd.1 (heq ▸ List.mem_map_of_mem hr)

/-- A task stays held in a step that drops nothing. -/
theorem held_step {c c' : Cluster} {a : Action} (hwired : Wired c) (hd : ¬ c.Drops a)
    (hstep : Stepped tf timing c a c') {id : Int} (h : c.Held id)
    (hreported : ∀ k clk responseTime p, a = .serve k clk responseTime → c.toMaster[k]? = some p →
      id ∉ p.req.reported.map Prod.fst) : c'.Held id := by
  rcases hstep with ⟨flags, myIp, now, sent⟩ | @⟨k, clk, responseTime, p, rep, hk, hm, hget, hne⟩ |
    @⟨k, p, hk⟩ | @⟨k, r₀, hk⟩ | @⟨k, r₀, hk, hj⟩ | @⟨k, j, r₀, site, w, out, hk, hj, hi, hm⟩ |
    ⟨hi, hm⟩ | ⟨hi, hm⟩ | @⟨i, now, sent, site, w, out, hi, hm⟩ | @⟨i, site, w, out, hi, hm⟩
  · refine h.mono (fun r hm hid ⟨site, hs, ha⟩ => .inl ⟨r, hm, hid, site, ?_, ha⟩)
      (fun site hs ha hid => .inr (.inl ⟨site, List.mem_append_left _ hs, ha, hid⟩))
      (fun p hm hid => .inr (.inr ⟨p, List.mem_append_left _ hm, hid⟩))
    rw [List.getElem?_append_left (List.getElem?_eq_some_iff.1 hs).1]
    exact hs
  · refine h.mono (fun r hm hid ha => .inl ⟨r, List.mem_append_left _ hm, hid, ha⟩)
      (fun site hs ha hid => .inr (.inl ⟨site, hs, ha, hid⟩)) (fun p' hm' hid => ?_)
    rcases Worker.mem_or_mem_eraseIdx hk hm' with rfl | hm'
    · exact absurd hid (hreported k clk responseTime _ rfl hk)
    · exact .inr (.inr ⟨p', hm', hid⟩)
  · refine h.mono (fun r hm hid ha => .inl ⟨r, hm, hid, ha⟩)
      (fun site hs ha hid => .inr (.inl ⟨site, hs, ha, hid⟩)) (fun p' hm' hid => ?_)
    rcases Worker.mem_or_mem_eraseIdx hk hm' with rfl | hm'
    · refine absurd ⟨_, hk, ?_⟩ hd
      rintro hnil
      rw [hnil] at hid
      cases hid
    · exact .inr (.inr ⟨p', hm', hid⟩)
  · refine h.mono (fun r hm hid ha => ?_)
      (fun site hs ha hid => .inr (.inl ⟨site, hs, ha, hid⟩))
      (fun p hm hid => .inr (.inr ⟨p, hm, hid⟩))
    rcases Worker.mem_or_mem_eraseIdx hk hm with rfl | hm
    · exact absurd ⟨_, hk, List.ne_nil_of_mem hid, ha⟩ hd
    · exact .inl ⟨r, hm, hid, ha⟩
  · refine h.mono (fun r hm hid ha => ?_)
      (fun site hs ha hid => .inr (.inl ⟨site, hs, ha, hid⟩))
      (fun p hm hid => .inr (.inr ⟨p, hm, hid⟩))
    rcases Worker.mem_or_mem_eraseIdx hk hm with rfl | hm
    · exact absurd hj (socketIdx_of_awaits ha)
    · exact .inl ⟨r, hm, hid, ha⟩
  · have htidy := hwired.tidy site (List.mem_of_getElem? hi)
    obtain ⟨callback, hcb⟩ := socketIdx_eq_some hj hi
    refine h.mono (fun r hm' hid hA => ?_)
      (fun site' hs ha hid => held_actAt_inHand htidy hi hm rfl rfl hs ha hid (by simp))
      (fun p hm hid => .inr (.inr ⟨p, List.mem_append_left _ hm, hid⟩))
    rcases Worker.mem_or_mem_eraseIdx hk hm' with rfl | hm'
    · obtain ⟨site', hi', hA⟩ := hA
      obtain rfl : site = site' := Option.some_inj.1 (hi.symm.trans hi')
      obtain ⟨ha, hin⟩ := Worker.inHand_answer htidy hm hA hcb
      exact .inr (.inl ⟨_, List.mem_of_getElem? (getElem?_workers_set hi rfl), ha, hin id hid⟩)
    · refine .inl ⟨r, hm', hid, awaits_actAt hi hm rfl hA (by simp) fun hri k' rep ha hk' => ?_⟩
      obtain ⟨rfl, -⟩ := Worker.Action.answer.inj ha
      rw [hcb, Option.some_inj, Prod.mk.injEq] at hk'
      exact hwired.reply_key_ne hk hm' (Prod.ext hri hk'.1.symm)
  · refine held_actAt (hwired.tidy _ (List.mem_of_getElem? hi)) hi hm h (by simp)
      (by simp) fun k' rep entry ha hk' hA => hd ?_
    obtain ⟨rfl, -⟩ := Worker.Action.answer.inj ha
    exact ⟨_, entry, hi, hk', hA⟩
  · exact held_actAt (hwired.tidy _ (List.mem_of_getElem? hi)) hi hm h (by simp)
      (by simp) (by simp)
  · refine held_actAt (hwired.tidy _ (List.mem_of_getElem? hi)) hi hm h (by simp)
      (fun now' sent' ha hid => ?_) (by simp)
    obtain ⟨-, rfl⟩ := Worker.Action.ui.inj ha
    refine ⟨Bool.eq_false_iff.2 fun hr => ?_, fun hf => hd ⟨site, hi, .inl hf⟩⟩
    exact hd ⟨site, hi, .inr ⟨hr, List.ne_nil_of_mem hid⟩⟩
  · refine held_actAt (hwired.tidy _ (List.mem_of_getElem? hi)) hi hm h (fun _ ha => ?_)
      (by simp) (by simp)
    have hleaves : site.node.Leaves := by
      rcases hm
      next hq hquit hl => exact ⟨ha, hquit, hq⟩
    exact ⟨fun hid => hd ⟨site, hi, hleaves, .inl (List.ne_nil_of_mem hid)⟩,
      fun socket hA => hd ⟨site, hi, hleaves, .inr ⟨socket, hA⟩⟩⟩

/-- Only the master touches the records. -/
theorem master_stepped {c c' : Cluster} {a : Action} (hstep : Stepped tf timing c a c')
    (hserve : ∀ k clk responseTime, a ≠ .serve k clk responseTime) : c'.master = c.master := by
  rcases hstep with _ | @⟨k, clk, responseTime⟩ | _ | _ | _ | _ | _ | _ | _ | _
  case serve => exact absurd rfl (hserve k clk responseTime)
  all_goals rfl

/-- A step that drops nothing strands nothing. -/
theorem noStranded_step {c c' : Cluster} {a : Action} (hwired : Wired c)
    (hsync : c.master.node.Synced) (h : c.NoStranded) (hd : ¬ c.Drops a)
    (hstep : Stepped tf timing c a c') : c'.NoStranded := by
  intro id hrun
  by_cases hserve : ∃ k clk responseTime, a = .serve k clk responseTime
  · obtain ⟨k, clk, responseTime, rfl⟩ := hserve
    have hheld := fun h : c.Held id => held_step tf timing hwired hd hstep h
    rcases hstep with _ | @⟨_, _, _, p, rep, hk, hm, hget, hne⟩
    rcases hm.running hsync id hrun with hid | ⟨hnot, hold⟩
    · -- assigned in this step: its requester must be waiting
      refine .inl ⟨_, List.mem_append_right _ (List.mem_singleton.2 rfl), hid, ?_⟩
      by_contra hA
      refine hd ⟨p, hk, ?_, ?_, hA⟩
      · rw [Option.isSome_iff_ne_none]
        intro hnone
        rw [hget hnone] at hid
        cases hid
      · rw [hm.pending]
        exact List.append_ne_nil_of_left_ne_nil (List.ne_nil_of_mem hid) _
    · refine hheld (h id hold) fun k' _ _ p' ha hk' => ?_
      obtain ⟨rfl, -⟩ := Action.serve.inj ha
      obtain rfl : p = p' := Option.some_inj.1 (hk.symm.trans hk')
      exact hnot
  · have hserve : ∀ k clk responseTime, a ≠ .serve k clk responseTime :=
      fun k clk responseTime ha => hserve ⟨k, clk, responseTime, ha⟩
    rw [master_stepped tf timing hstep hserve] at hrun
    exact held_step tf timing hwired hd hstep (h id hrun) fun k clk rt p ha =>
      absurd ha (hserve k clk rt)

theorem synced_step {c c' : Cluster} {a : Action} (h : c.master.node.Synced)
    (hstep : Stepped tf timing c a c') : c'.master.node.Synced := by
  rcases hstep with _ | ⟨hk, hm, hget, hne⟩ | _ | _ | _ | _ | _ | _ | _ | _
  case serve => exact hm.synced h
  all_goals exact h

theorem noStranded_init (tasks : List Int) (readState : Bool) (file : StateFile) :
    (init tf tasks readState file).NoStranded := by
  rintro id ⟨item, hitem, hr⟩
  have hs := MasterNode.start_synced tf tasks readState file id item hitem hr
  rw [(MasterNode.start_started tf tasks readState file).running] at hs
  simp at hs

end Cluster

end Dcfpe

import Dcfpe.Dpe.HandOut
import Dcfpe.Dpe.StatusPage

/-!
# What the status page shows

The page asks for the number after the last id it has, and the master lists from the first task with
that id: the two agree when the ids but the last are 0, 1, 2, … in this order, and then a page whose
polls do not overlap shows the longest DONE prefix as it was when the master answered.  It never
shows the whole queue, for with the last task the master is no longer the handler.  For all other
lists of tasks some run of such polls goes wrong, and with two polls at once the page takes the same
tasks twice, whatever the ids are.  `shows_iff` says all this.
-/

set_option autoImplicit false

namespace Dcfpe

open Std

namespace MasterNode

variable (tf : TextFormat)

/-! ## The queue, and the tasks that are DONE -/

theorem getTaskLoop_taskQueue (maxTaskCount : Int) (pending : List Int) (n : MasterNode)
    (worker : WorkerStatus) (task : List Int) (added : Int) :
    (getTaskLoop maxTaskCount pending n worker task added).1.taskQueue = n.taskQueue := by
  induction pending generalizing n worker task added with
  | nil => rfl
  | cons id pending ih =>
    rw [getTaskLoop]
    split
    · rw [ih]
    · rfl

theorem finishItems_taskQueue (items : List TaskItem) (f : Finishing) :
    (items.foldl finishItem f).node.taskQueue = f.node.taskQueue := by
  induction items generalizing f with
  | nil => rfl
  | cons item items ih =>
    rw [List.foldl_cons, ih, finishItem]
    dsimp only
    split <;> rfl

/-- No request changes `task_queue_`. -/
theorem handleRequest_taskQueue (n : MasterNode) (clk : Clock) (req : Request) (reply : Response) :
    (n.handleRequest tf clk req reply).1.taskQueue = n.taskQueue := by
  rw [handleRequest]
  split
  · next getTask _ =>
    exact getTaskLoop_taskQueue (max getTask.maxTaskCount 1) n.taskPendingQueue n _ [] 0
  · split
    · next data _ =>
      obtain ⟨t, hn⟩ := handleFinishCompute_node tf clk n (touchWorker clk n req) req.workerId data
        reply rfl
      rw [hn]
      exact finishItems_taskQueue data.taskItem { node := n }
    · rfl

theorem isDone_iff_settled {n : MasterNode} {id : Int} :
    n.isDone id = true ↔ ∃ v, n.ledger id = some (.settled v) := by
  rw [isDone, Option.any_eq_true]
  constructor
  · rintro ⟨item, hitem, hdone⟩
    exact ⟨_, book_eq_some.2 ⟨item, hitem, entry_eq_settled.2 ⟨by simpa using hdone, rfl⟩⟩⟩
  · rintro ⟨v, hv⟩
    obtain ⟨item, hitem, hentry⟩ := book_eq_some.1 hv
    exact ⟨item, hitem, by simpa using (entry_eq_settled.1 hentry).1⟩

theorem map_taskId_doneTasks (n : MasterNode) (queue : List Int) :
    (n.doneTasks queue).map TaskInfo.taskId = (queue.takeWhile n.isDone).map toString := by
  induction queue with
  | nil => rfl
  | cons id queue ih =>
    rw [doneTasks, List.takeWhile_cons, isDone]
    rcases n.taskMap[id]? with _ | item
    · rfl
    · by_cases hdone : item.status = .done <;> simp [hdone, ih]

/-- The ids that are listed from an id on. -/
def listedIds (n : MasterNode) (startTaskId : Int) : List Int :=
  (((n.taskQueue.take ((n.taskQueue.length : Int).bmod 4294967296).toNat).dropWhile
    (· ≠ startTaskId)).takeWhile n.isDone)

theorem map_taskId_listTasks (n : MasterNode) (startTaskId : Int) :
    (n.listTasks startTaskId).map TaskInfo.taskId = (n.listedIds startTaskId).map toString :=
  map_taskId_doneTasks n _

theorem listedIds_eq {n : MasterNode} (h : n.taskQueue.length < 2147483648) (startTaskId : Int) :
    n.listedIds startTaskId = (n.taskQueue.dropWhile (· ≠ startTaskId)).takeWhile n.isDone := by
  have hsize : ((n.taskQueue.length : Int).bmod 4294967296).toNat = n.taskQueue.length := by
    rw [Int.bmod_eq_of_le (by omega) (by omega)]
    rfl
  rw [listedIds, hsize, List.take_length]

theorem length_listedIds_le (n : MasterNode) (startTaskId : Int) :
    (n.listedIds startTaskId).length ≤ ((n.taskQueue.length : Int).bmod 4294967296).toNat := by
  have htake : (n.listedIds startTaskId).length ≤
      (n.taskQueue.take ((n.taskQueue.length : Int).bmod 4294967296).toNat).length :=
    ((List.takeWhile_sublist _).trans (List.dropWhile_sublist _)).length_le
  rw [List.length_take] at htake
  omega

/-- The DONE prefix for ids in order, as long as the last task is not in it. -/
theorem donePrefix_ids {n : MasterNode}
    (hqueue : n.taskQueue.dropLast = ids (n.taskQueue.length - 1))
    (hlast : n.donePrefix.length ≤ n.taskQueue.length - 1) :
    n.donePrefix = ids n.donePrefix.length := by
  have hpre : n.donePrefix <+: n.taskQueue := List.takeWhile_prefix _
  have htake : n.taskQueue.take n.donePrefix.length =
      n.taskQueue.dropLast.take n.donePrefix.length := by
    rw [List.dropLast_eq_take, List.take_take, Nat.min_eq_left hlast]
  conv_lhs => rw [List.prefix_iff_eq_take.1 hpre, htake, hqueue, take_ids hlast]

/-- And then the answer goes on where the cursor stands. -/
theorem listedIds_numbered {n : MasterNode} (hlen : n.taskQueue.length < 2147483648)
    (hqueue : n.taskQueue.dropLast = ids (n.taskQueue.length - 1))
    (hlast : n.donePrefix.length ≤ n.taskQueue.length - 1) {c : Nat}
    (hc : c ≤ n.donePrefix.length) : n.listedIds c = n.donePrefix.drop c := by
  rw [listedIds_eq hlen]
  rcases dropWhile_numbered hqueue (hc.trans hlast) with hdrop | ⟨rfl, hdrop⟩
  · rw [hdrop]
    exact takeWhile_drop hc
  · rw [hdrop, List.drop_eq_nil_of_le hlast]
    rfl

end MasterNode

namespace StatusPage

open MasterNode Master

variable (tf : TextFormat)

/-! ## The handler -/

theorem mem_endJob (b : Bool) : .willExitDpe ∈ endJob b ↔ .finish ∈ endJob b := by
  cases b <;> simp [endJob]

/-- `WillExitDpe` is called where `Finish` is. -/
theorem mem_willExitDpe (n : MasterNode) (clk : Clock) (req : Request) (reply : Response) :
    .willExitDpe ∈ (n.handleRequest tf clk req reply).2.2 ↔
      .finish ∈ (n.handleRequest tf clk req reply).2.2 := by
  rw [MasterNode.handleRequest]
  split
  · simp [handleGetTask]
  · split
    · next data _ =>
      rw [handleFinishCompute]
      dsimp only
      split
      · obtain ⟨t, saves, -, heffects, hsaves⟩ := reportResult_spec tf clk
          (data.taskItem.foldl finishItem { node := n }) _ data.totalTimeUsage
        have hnot : ∀ e ∈ saves, e ≠ .willExitDpe ∧ e ≠ .finish := fun e he => by
          obtain ⟨data, rfl⟩ := hsaves e he
          exact ⟨by simp, by simp⟩
        rw [heffects]
        simp only [List.cons_append, List.mem_cons, List.mem_append, reduceCtorEq, false_or,
          mem_endJob]
        exact or_congr_left ⟨fun he => absurd rfl (hnot _ he).1, fun he => absurd rfl (hnot _ he).2⟩
      · simp
    · simp

theorem mem_willExitDpe_serve (tasks : List Int) (readState : Bool) (file : StateFile)
    (ds : List Dispatch) :
    .willExitDpe ∈ ((init tf tasks readState file).serve tf ds).effects ↔
      .finish ∈ ((init tf tasks readState file).serve tf ds).effects := by
  induction ds using List.reverseRecOn with
  | nil =>
    rw [serve, List.foldl_nil, show (init tf tasks readState file).effects =
      (MasterNode.start tf true tasks readState file).2.2 from rfl, start_effects, List.mem_append,
      List.mem_append, mem_endJob]
    refine or_congr_left ?_
    split
    · simp
    · simp
  | append_singleton ds d ih =>
    rw [serve_append]
    change _ ∈ _ ++ _ ↔ _ ∈ _ ++ _
    rw [List.mem_append, List.mem_append]
    exact or_congr ih (mem_willExitDpe tf _ _ _ _)

/-- The master is the handler till all tasks are DONE. -/
theorem handler_iff {s : StatusPage} {tasks : List Int} (hne : tasks ≠ []) (hnd : tasks.Nodup)
    {readState : Bool} {file : StateFile}
    (h : ∃ ds, s.master = (init tf tasks readState file).serve tf ds) :
    s.handler.isSome = true ↔ s.master.node.idle = false := by
  obtain ⟨ds, hds⟩ := h
  have hexit := mem_willExitDpe_serve tf tasks readState file ds
  rw [← List.count_pos_iff (a := Effect.finish), ← finishes, finishes_pos_iff tf hne hnd, ← hds]
    at hexit
  rw [handler]
  split
  · next hmem => simp [hexit.1 hmem]
  · next hnot => simpa using fun hidle => hnot (hexit.2 hidle)

/-! ## The steps of a poll -/

section Steps

variable {s t : StatusPage} {k : Nat}

theorem step_answer (h : step tf s (.answer k) = some t) :
    ∃ startTaskId, s.polls[k]? = some (.sent startTaskId) ∧ ∃ body,
      body = s.handleRequestImpl
        (Http.parseRequest ((refreshMessage startTaskId).render ['\r'])) ∧
      t = { s with polls := s.polls.set k (.answered body s.master.node.donePrefix) } := by
  simp only [step] at h
  split at h
  · next startTaskId hk => exact ⟨startTaskId, hk, _, rfl, (Option.some_inj.1 h).symm⟩
  · cases h

theorem step_receive (h : step tf s (.receive k) = some t) :
    ∃ body done, s.polls[k]? = some (.answered body done) ∧
      t = { s with taskInfos := s.taskInfos ++ body.tasks, polls := s.polls.eraseIdx k } := by
  simp only [step] at h
  split at h
  · next body done hk => exact ⟨body, done, hk, (Option.some_inj.1 h).symm⟩
  · cases h

theorem step_fail (h : step tf s (.fail k) = some t) :
    k < s.polls.length ∧ t = { s with polls := s.polls.eraseIdx k } := by
  rw [step] at h
  split at h
  · next hk => exact ⟨hk, (Option.some_inj.1 h).symm⟩
  · cases h

end Steps

/-- What the page is told while the master is the handler. -/
theorem handleRequestImpl_of_handler {s : StatusPage} (h : s.handler.isSome = true)
    (req : Http.HttpRequest) : s.handleRequestImpl req = s.master.node.handleHttpRequest req := by
  rw [handleRequestImpl]
  rw [handler] at h ⊢
  split at h
  · cases h
  · next hnot => rw [if_neg hnot]

/-! ## Polls one by one -/

/-- A state of a run with polls one by one, answered by the master.  `c` is the number of tasks that
the page has, and what the answer under way adds are the ids from `c` on. -/
structure UpToDate (tasks : List Int) (readState : Bool) (file : StateFile) (s : StatusPage)
    (c : Nat) : Prop where
  served : ∃ ds, s.master = (init tf tasks readState file).serve tf ds
  queue : s.master.node.taskQueue = tasks
  le : c ≤ s.master.node.donePrefix.length
  front : c ≤ tasks.length - 1
  collected : s.collected = (ids c).map toString
  polls : s.polls = [] ∨ s.polls = [.sent c] ∨
    ∃ body p, s.polls = [.answered body (ids p)] ∧ c ≤ p ∧ p ≤ s.master.node.donePrefix.length ∧
      p ≤ tasks.length - 1 ∧ body.tasks.map TaskInfo.taskId = ((ids p).drop c).map toString

theorem donePrefix_handleRequest {m₀ m : Master} (h : History m₀ m) (d : Dispatch) :
    m.node.donePrefix <+: (m.handleRequest tf d.clk d.responseTime d.req).node.donePrefix := by
  have hqueue : (m.handleRequest tf d.clk d.responseTime d.req).node.taskQueue =
      m.node.taskQueue := handleRequest_taskQueue tf m.node d.clk d.req _
  obtain ⟨acts, hrun, -, -⟩ := (history_step tf (History.refl h.inv h.wellSized) d).acts
  rw [donePrefix, donePrefix, hqueue]
  refine takeWhile_prefix_takeWhile (fun id hid => ?_) _
  obtain ⟨v, hv⟩ := isDone_iff_settled.1 hid
  exact isDone_iff_settled.2 ⟨v, Ledger.run_settled hrun hv⟩

variable {tasks : List Int} {readState : Bool} {file : StateFile} {s t : StatusPage} {c : Nat}

/-- While the master is the handler, the last task of the queue or one before it is not DONE. -/
theorem length_donePrefix_le (hnd : tasks.Nodup)
    (hserved : ∃ ds, s.master = (init tf tasks readState file).serve tf ds)
    (hqueue : s.master.node.taskQueue = tasks) (hhandler : s.handler.isSome = true) :
    s.master.node.donePrefix.length ≤ tasks.length - 1 := by
  have hpre : s.master.node.donePrefix <+: tasks := hqueue ▸ List.takeWhile_prefix _
  by_contra hlong
  have hlen := hpre.length_le
  have hne : tasks ≠ [] := by
    rintro rfl
    exact hlong hlen
  have hall : s.master.node.donePrefix = tasks := hpre.eq_of_length (by omega)
  have hidle := (handler_iff tf hne hnd hserved).1 hhandler
  obtain ⟨ds, hds⟩ := hserved
  have hist : History (init tf tasks readState file) s.master := by
    rw [hds]
    exact history_serve tf (history_init tf hnd readState file) ds
  have hdone : AllDone tasks s.master := by
    intro id hid
    have hmem : id ∈ s.master.node.taskQueue.takeWhile s.master.node.isDone := by
      change id ∈ s.master.node.donePrefix
      rw [hall]
      exact hid
    have his := List.mem_takeWhile_imp hmem
    rw [isDone, Option.any_eq_true] at his
    obtain ⟨item, hitem, hstatus⟩ := his
    exact ⟨item, hitem, by simpa using hstatus⟩
  rw [(idle_iff tf hist).2 hdone] at hidle
  cases hidle

theorem UpToDate.serve (hnd : tasks.Nodup) (h : UpToDate tf tasks readState file s c) (d : Dispatch)
    (hstep : step tf s (.serve d) = some t) : UpToDate tf tasks readState file t c := by
  rw [step, Option.some_inj] at hstep
  obtain ⟨ds, hds⟩ := h.served
  have hist : History (init tf tasks readState file) s.master := by
    rw [hds]
    exact history_serve tf (history_init tf hnd readState file) ds
  have hle := (donePrefix_handleRequest tf hist d).length_le
  subst hstep
  refine ⟨⟨ds ++ [d], ?_⟩, ?_, h.le.trans hle, h.front, h.collected, ?_⟩
  · rw [serve_append, ← hds]
    rfl
  · exact (handleRequest_taskQueue tf s.master.node d.clk d.req _).trans h.queue
  · rcases h.polls with hpolls | hpolls | ⟨body, p, hpolls, hcp, hp, hfront, hbody⟩
    · exact .inl hpolls
    · exact .inr (.inl hpolls)
    · exact .inr (.inr ⟨body, p, hpolls, hcp, hp.trans hle, hfront, hbody⟩)

theorem UpToDate.refresh (h : UpToDate tf tasks readState file s c)
    (hlen : tasks.length < 2147483648) (hpolls : s.polls = [])
    (hstep : step tf s .refresh = some t) : UpToDate tf tasks readState file t c := by
  rw [step, Option.some_inj] at hstep
  have hc := h.front
  subst hstep
  refine ⟨h.served, h.queue, h.le, h.front, h.collected, .inr (.inl ?_)⟩
  rw [hpolls, getStartTaskId_ids (by omega) h.collected]
  rfl

theorem UpToDate.answer (hnd : tasks.Nodup) (h : UpToDate tf tasks readState file s c)
    (hnum : Numbered tasks) {k : Nat} (hattended : Attended s (.answer k))
    (hstep : step tf s (.answer k) = some t) : UpToDate tf tasks readState file t c := by
  have hqueue : s.master.node.taskQueue.dropLast = ids (s.master.node.taskQueue.length - 1) := by
    rw [h.queue]
    exact hnum.1
  have hlen : s.master.node.taskQueue.length < 2147483648 := by
    rw [h.queue]
    exact hnum.2
  have hlast := length_donePrefix_le tf hnd h.served h.queue hattended
  have hlast' : s.master.node.donePrefix.length ≤ s.master.node.taskQueue.length - 1 := by
    rwa [h.queue]
  have hc : c < 9007199254740992 := by
    have := h.front
    have := hnum.2
    omega
  obtain ⟨startTaskId, hk, body, hanswer, rfl⟩ := step_answer tf hstep
  rcases h.polls with hpolls | hpolls | ⟨body, p, hpolls, -⟩
  · simp [hpolls] at hk
  · rw [hpolls, List.getElem?_singleton] at hk
    obtain ⟨rfl, rfl⟩ : k = 0 ∧ (c : Int) = startTaskId := by simpa using hk
    have hbody : body.tasks.map TaskInfo.taskId =
        ((ids s.master.node.donePrefix.length).drop c).map toString := by
      rw [hanswer, handleRequestImpl_of_handler hattended, handleHttpRequest_refresh _ hc,
        map_taskId_listTasks, listedIds_numbered hlen hqueue hlast' h.le,
        ← donePrefix_ids hqueue hlast']
    refine ⟨h.served, h.queue, h.le, h.front, h.collected, .inr (.inr
      ⟨body, s.master.node.donePrefix.length, ?_, h.le, le_rfl, hlast, hbody⟩)⟩
    rw [← donePrefix_ids hqueue hlast', hpolls]
    rfl
  · rw [hpolls, List.getElem?_singleton] at hk
    simp at hk

theorem UpToDate.receive (h : UpToDate tf tasks readState file s c) {k : Nat}
    (hstep : step tf s (.receive k) = some t) :
    ∃ body p, s.polls[k]? = some (.answered body (ids p)) ∧
      UpToDate tf tasks readState file t p := by
  obtain ⟨body', done, hk, rfl⟩ := step_receive tf hstep
  rcases h.polls with hpolls | hpolls | ⟨body, p, hpolls, hcp, hp, hfront, hbody⟩
  · simp [hpolls] at hk
  · rw [hpolls, List.getElem?_singleton] at hk
    simp at hk
  · have hids : ids c ++ (ids p).drop c = ids p := by
      rw [← take_ids hcp, List.take_append_drop]
    have hcollected : s.taskInfos.map TaskInfo.taskId = (ids c).map toString := h.collected
    have hk' := hk
    rw [hpolls, List.getElem?_singleton] at hk'
    obtain ⟨rfl, rfl, rfl⟩ : k = 0 ∧ body = body' ∧ ids p = done := by simpa using hk'
    refine ⟨body, p, hk, h.served, h.queue, hp, hfront, ?_, .inl (by rw [hpolls]; rfl)⟩
    rw [StatusPage.collected, List.map_append, hbody, hcollected, ← List.map_append, hids]

theorem UpToDate.fail (h : UpToDate tf tasks readState file s c) {k : Nat}
    (hstep : step tf s (.fail k) = some t) : UpToDate tf tasks readState file t c := by
  obtain ⟨hk, rfl⟩ := step_fail tf hstep
  refine ⟨h.served, h.queue, h.le, h.front, h.collected, .inl ?_⟩
  have hone : s.polls.length ≤ 1 := by
    rcases h.polls with hpolls | hpolls | ⟨body, p, hpolls, -⟩ <;> simp [hpolls]
  rw [List.eraseIdx_eq_nil_iff]
  exact .inr ⟨by omega, by omega⟩

/-- Each step of a run with polls one by one shows what it should, if the ids are in order. -/
theorem upToDate_step (hnd : tasks.Nodup) (hnum : Numbered tasks)
    (h : ∃ c, UpToDate tf tasks readState file s c) {a : Label} (ha : OneByOne s a)
    (hattended : Attended s a) (hstep : step tf s a = some t) :
    ∃ c, UpToDate tf tasks readState file t c := by
  obtain ⟨c, h⟩ := h
  cases a with
  | serve d => exact ⟨c, h.serve tf hnd d hstep⟩
  | refresh => exact ⟨c, h.refresh tf hnum.2 ha hstep⟩
  | answer k => exact ⟨c, h.answer tf hnd hnum hattended hstep⟩
  | receive k =>
    obtain ⟨-, p, -, ht⟩ := h.receive tf hstep
    exact ⟨p, ht⟩
  | fail k => exact ⟨c, h.fail tf hstep⟩

theorem nodup_ids (n : Nat) : ((ids n).map toString).Nodup := by
  have hinj : Function.Injective (toString : Int → String) := fun _ _ heq =>
    Decimal.toString_inj heq
  exact (List.nodup_range.map fun i j hij => Int.ofNat_inj.1 hij).map hinj

theorem UpToDate.shown (hnum : Numbered tasks) (h : UpToDate tf tasks readState file s c) :
    s.collected <+: s.master.node.donePrefix.map toString ∧ s.collected.Nodup := by
  have hpre : s.master.node.donePrefix <+: tasks := h.queue ▸ List.takeWhile_prefix _
  have hids : ids c = tasks.take c := by
    rw [← take_ids h.front, ← hnum.1, List.dropLast_eq_take, List.take_take,
      Nat.min_eq_left h.front]
  have htake : tasks.take c <+: s.master.node.donePrefix :=
    List.prefix_of_prefix_length_le (List.take_prefix c tasks) hpre
      ((List.length_take_le c tasks).trans h.le)
  rw [h.collected]
  refine ⟨?_, nodup_ids c⟩
  rw [hids]
  exact htake.map _

theorem shows_of_upToDate (hnd : tasks.Nodup) (hnum : Numbered tasks)
    (h : ∃ c, UpToDate tf tasks readState file s c) {a : Label} (ha : OneByOne s a)
    (hattended : Attended s a) : Shows tf s a := by
  intro t hstep
  obtain ⟨c', ht⟩ := upToDate_step tf hnd hnum h ha hattended hstep
  refine ⟨ht.shown tf hnum, fun k body done hak hk => ?_⟩
  obtain ⟨c, h⟩ := h
  subst hak
  obtain ⟨body', p, hk', ht'⟩ := h.receive tf hstep
  rw [hk, Option.some_inj, Poll.answered.injEq] at hk'
  rw [ht'.collected, hk'.2]

theorem upToDate_start (tasks : List Int) (readState : Bool) (file : StateFile) :
    ∃ c, UpToDate tf tasks readState file (start tf tasks readState file) c :=
  ⟨0, ⟨[], rfl⟩, (start_started tf tasks readState file).queue, Nat.zero_le _, Nat.zero_le _, rfl,
    .inl rfl⟩

theorem shows_of_numbered (hnd : tasks.Nodup) (hnum : Numbered tasks) (readState : Bool)
    (file : StateFile) {as : List Label}
    (has : (step tf).Meets (fun s a => OneByOne s a ∧ Attended s a)
      (start tf tasks readState file) as) :
    (step tf).Meets (Shows tf) (start tf tasks readState file) as :=
  (Machine.meets_congr_of_meets (C := fun _ _ => True)
    (fun _ _ _ ha h _ hstep => upToDate_step tf hnd hnum h ha.1 ha.2 hstep)
    (fun _ _ ha h => ⟨fun _ => shows_of_upToDate tf hnd hnum h ha.1 ha.2, fun _ => trivial⟩) has
    (upToDate_start tf tasks readState file)).1 (Machine.meets_labels (fun _ _ => trivial) _)

end StatusPage

/-! ## Runs that complete tasks -/

namespace Master

open MasterNode

variable (tf : TextFormat)

/-- One task after the other is fetched and reported. -/
def completions (taskIds : List Int) : List Dispatch := taskIds.flatMap fun id => [fetch, report id]

/-- `fetch` makes the first of the pending tasks RUNNING. -/
theorem handleRequest_fetch {n : MasterNode} {id : Int} {pending : List Int}
    (hp : n.taskPendingQueue = id :: pending) (reply : Response) :
    ∃ workerMap, (n.handleRequest tf fetch.clk fetch.req reply).1 =
      { n with
        taskPendingQueue := pending
        taskRunningQueue := n.taskRunningQueue.insert id
        taskMap := setStatus n.taskMap id .running
        workerMap := workerMap } := by
  have hloop : ∀ worker, getTaskLoop (max 1 1) (id :: pending) n worker [] 0 =
      ({ n with
          taskPendingQueue := pending
          taskRunningQueue := n.taskRunningQueue.insert id
          taskMap := setStatus n.taskMap id .running },
        { worker with runningTask := worker.runningTask ++ [id] }, [id]) := by
    intro worker
    rcases pending with _ | ⟨id', pending⟩ <;> simp [getTaskLoop]
  simp only [MasterNode.handleRequest, fetch, handleGetTask, hp, hloop]
  exact ⟨_, rfl⟩

/-- `report` makes a running task DONE. -/
theorem handleRequest_report {n : MasterNode} {id : Int} (hid : id ∈ n.taskRunningQueue)
    (reply : Response) :
    ∃ workerMap time, (n.handleRequest tf (report id).clk (report id).req reply).1 =
      { n with
        taskRunningQueue := n.taskRunningQueue.erase id
        taskMap := setDone n.taskMap { taskId := id, result := 5 }
        workerMap := workerMap
        lastSaveTime := time } := by
  have hfold : [({ taskId := id, result := 5 } : TaskItem)].foldl finishItem { node := n } =
      { node := { n with
          taskMap := setDone n.taskMap { taskId := id, result := 5 }
          taskRunningQueue := n.taskRunningQueue.erase id }
        removedTaskId := (∅ : TreeSet Int).insert id
        taskId := [id], result := [5], timeUsage := [0] } := by
    simp [finishItem, hid]
  obtain ⟨t, hn⟩ := handleFinishCompute_node tf (report id).clk n
    (touchWorker (report id).clk n (report id).req) (report id).req.workerId
    { taskItem := [{ taskId := id, result := 5 }] } reply hfold
  exact ⟨_, t, hn⟩

/-- What a run has done that started on `tasks` and completed the first ones of them. -/
structure Completed (tasks done : List Int) (n : MasterNode) : Prop where
  queue : n.taskQueue = tasks
  pending : done ++ n.taskPendingQueue = tasks
  isDone : ∀ id, n.isDone id = decide (id ∈ done)

theorem Completed.next {tasks done : List Int} {m : Master} (h : Completed tasks done m.node)
    {id : Int} {pending : List Int} (hp : m.node.taskPendingQueue = id :: pending) :
    Completed tasks (done ++ [id]) (m.serve tf [fetch, report id]).node := by
  obtain ⟨workers, hfetch⟩ := handleRequest_fetch tf hp
    { errorCode := -1, name := fetch.req.name, responseTimestamp := 0, requestTimestamp := 0 }
  have hrunning : id ∈ (m.handleRequest tf fetch.clk 0 fetch.req).node.taskRunningQueue := by
    rw [show (m.handleRequest tf fetch.clk 0 fetch.req).node = _ from hfetch]
    exact TreeSet.mem_insert_self
  obtain ⟨workers', time, hreport⟩ := handleRequest_report tf hrunning
    { errorCode := -1, name := (report id).req.name, responseTimestamp := 0, requestTimestamp := 0 }
  rw [show (m.serve tf [fetch, report id]).node = _ from hreport,
    show (m.handleRequest tf fetch.clk 0 fetch.req).node = _ from hfetch]
  refine ⟨h.queue, ?_, fun i => ?_⟩
  · rw [← h.pending, hp, List.append_assoc]
    rfl
  · have hi := h.isDone i
    simp only [MasterNode.isDone, setDone, setStatus] at hi ⊢
    by_cases hid : id = i
    · simp [hid]
    · simp [TreeMap.getElem?_insert, hid, Ne.symm hid, hi]

theorem Completed.completions {tasks done : List Int} {m : Master}
    (h : Completed tasks done m.node) {taskIds pending : List Int}
    (hp : m.node.taskPendingQueue = taskIds ++ pending) :
    Completed tasks (done ++ taskIds) (m.serve tf (completions taskIds)).node := by
  induction taskIds generalizing m done with
  | nil => rwa [List.append_nil]
  | cons id taskIds ih =>
    have hnext := h.next tf hp
    have hpending : (m.serve tf [fetch, report id]).node.taskPendingQueue = taskIds ++ pending := by
      have htasks := hnext.pending
      rw [← h.pending, hp, List.append_assoc, List.append_cancel_left_eq] at htasks
      exact List.cons_inj_right id |>.1 htasks
    have hall := ih hnext hpending
    rwa [List.append_assoc] at hall

theorem completed_init (tasks : List Int) :
    Completed tasks [] (init tf tasks false .absent).node := by
  have hstarted : Started tasks (savedItem tf false .absent) (init tf tasks false .absent).node :=
    start_started tf tasks false .absent
  refine ⟨hstarted.queue, ?_, fun id => ?_⟩
  · rw [List.nil_append, hstarted.pending]
    exact List.filter_eq_self.2 fun _ _ => rfl
  · rw [MasterNode.isDone, hstarted.item]
    split <;> rfl

/-- The DONE prefix is what is completed. -/
theorem Completed.donePrefix {tasks : List Int} (hnd : tasks.Nodup) {k : Nat} {n : MasterNode}
    (h : Completed tasks (tasks.take k) n) : n.donePrefix = tasks.take k := by
  have hdone : n.isDone = fun id => decide (id ∈ tasks.take k) := funext h.isDone
  rw [MasterNode.donePrefix, h.queue, hdone]
  exact takeWhile_mem_take hnd k

end Master

/-! ## What goes wrong -/

namespace MasterNode

/-- The first id that is listed is the one that is asked for. -/
theorem eq_of_listedIds_cons {n : MasterNode} {startTaskId id : Int} {rest : List Int}
    (h : n.listedIds startTaskId = id :: rest) : id = startTaskId :=
  eq_of_takeWhile_dropWhile h

end MasterNode

namespace StatusPage

open MasterNode Master

variable (tf : TextFormat)

/-- The state after the master has served some requests. -/
def served (s : StatusPage) (ds : List Dispatch) : StatusPage :=
  { s with master := s.master.serve tf ds }

theorem served_collected (s : StatusPage) (ds : List Dispatch) :
    (s.served tf ds).collected = s.collected := rfl

theorem run_serve (s : StatusPage) (ds : List Dispatch) :
    (step tf).run s (ds.map .serve) = some (s.served tf ds) := by
  induction ds generalizing s with
  | nil => rfl
  | cons d ds ih =>
    rw [List.map_cons, Machine.run_cons]
    exact ⟨_, rfl, ih _⟩

/-- A run of polls one by one, all answered by the master. -/
def Proper (s : StatusPage) (a : Label) : Prop := OneByOne s a ∧ Attended s a

theorem proper_serve (s : StatusPage) (ds : List Dispatch) :
    (step tf).Meets Proper s (ds.map .serve) := by
  induction ds generalizing s with
  | nil => trivial
  | cons d ds ih => exact ⟨⟨trivial, trivial⟩, fun t _ => ih t⟩

/-- What is answered to a poll that is sent now. -/
def answerNow (s : StatusPage) : Body :=
  s.handleRequestImpl
    (Http.parseRequest ((refreshMessage (getStartTaskId s.taskInfos)).render ['\r']))

theorem map_taskId_answerNow {s : StatusPage} (hhandler : s.handler.isSome = true) {c : Nat}
    (hc : c < 9007199254740992) (hcursor : getStartTaskId s.taskInfos = c) :
    s.answerNow.tasks.map TaskInfo.taskId = (s.master.node.listedIds c).map toString := by
  rw [answerNow, hcursor, handleRequestImpl_of_handler hhandler, handleHttpRequest_refresh _ hc,
    map_taskId_listTasks]

/-- A poll that nothing comes between. -/
def poll : List Label := [.refresh, .answer 0, .receive 0]

/-- The state after it. -/
def polled (s : StatusPage) : StatusPage :=
  { s with taskInfos := s.taskInfos ++ s.answerNow.tasks }

theorem run_poll {s : StatusPage} (hpolls : s.polls = []) :
    (step tf).run s poll = some s.polled := by
  obtain ⟨master, taskInfos, polls⟩ := s
  obtain rfl : polls = [] := hpolls
  rfl

theorem oneByOne_poll {s : StatusPage} (hpolls : s.polls = []) :
    (step tf).Meets OneByOne s poll :=
  ⟨hpolls, fun _ _ => ⟨trivial, fun _ _ => ⟨trivial, fun _ _ => trivial⟩⟩⟩

theorem attended_poll {s : StatusPage} (hhandler : s.handler.isSome = true) :
    (step tf).Meets Attended s poll := by
  refine ⟨trivial, fun t ht => ⟨?_, fun _ _ => ⟨trivial, fun _ _ => trivial⟩⟩⟩
  obtain rfl := Option.some_inj.1 ht
  exact hhandler

theorem collected_polled (s : StatusPage) :
    s.polled.collected = s.collected ++ s.answerNow.tasks.map TaskInfo.taskId := List.map_append

/-- If the steps of a poll show what they should, the page has the DONE prefix afterwards. -/
theorem collected_of_shows {s : StatusPage} (hpolls : s.polls = [])
    (h : (step tf).Meets (Shows tf) s poll) :
    s.polled.collected = s.master.node.donePrefix.map toString := by
  obtain ⟨master, taskInfos, polls⟩ := s
  obtain rfl : polls = [] := hpolls
  obtain ⟨-, hrefresh⟩ := h
  obtain ⟨-, hanswer⟩ := hrefresh _ rfl
  obtain ⟨hreceive, -⟩ := hanswer _ rfl
  exact (hreceive _ rfl).2 0 _ _ rfl rfl

/-- Two polls that are sent before either is answered. -/
def twoPolls : List Label := [.refresh, .refresh, .answer 0, .answer 1, .receive 0, .receive 0]

theorem attended_twoPolls {s : StatusPage} (hhandler : s.handler.isSome = true) :
    (step tf).Meets Attended s twoPolls := by
  refine ⟨trivial, fun t ht => ⟨trivial, fun u hu => ⟨?_, fun v hv => ⟨?_, fun _ _ =>
    ⟨trivial, fun _ _ => ⟨trivial, fun _ _ => trivial⟩⟩⟩⟩⟩⟩
  · obtain rfl := Option.some_inj.1 ht
    obtain rfl := Option.some_inj.1 hu
    exact hhandler
  · obtain rfl := Option.some_inj.1 ht
    obtain rfl := Option.some_inj.1 hu
    obtain ⟨_, -, _, -, rfl⟩ := step_answer tf hv
    exact hhandler

/-- Both bring the same tasks. -/
theorem nodup_of_shows_twoPolls {s : StatusPage} (hpolls : s.polls = [])
    (h : (step tf).Meets (Shows tf) s twoPolls) :
    (s.answerNow.tasks.map TaskInfo.taskId ++ s.answerNow.tasks.map TaskInfo.taskId).Nodup := by
  obtain ⟨master, taskInfos, polls⟩ := s
  obtain rfl : polls = [] := hpolls
  obtain ⟨-, h⟩ := h
  obtain ⟨-, h⟩ := h _ rfl
  obtain ⟨-, h⟩ := h _ rfl
  obtain ⟨-, h⟩ := h _ rfl
  obtain ⟨-, h⟩ := h _ rfl
  obtain ⟨hlast, -⟩ := h _ rfl
  have hnodup := (hlast _ rfl).1.2
  generalize hbody : answerNow ⟨master, taskInfos, []⟩ = body
  have hcollected : (taskInfos.map TaskInfo.taskId ++
      (body.tasks.map TaskInfo.taskId ++ body.tasks.map TaskInfo.taskId)).Nodup := by
    rw [← hbody, ← List.map_append, ← List.map_append, ← List.append_assoc]
    exact hnodup
  exact hcollected.of_append_right

/-- A run that completes tasks and polls, and then the same again. -/
def twice (first second : List Int) : List Label :=
  (completions first).map .serve ++ poll ++ ((completions second).map .serve ++ poll)

variable {tasks : List Int}

/-- The state when some tasks have been completed. -/
def half (tasks first : List Int) : StatusPage :=
  (start tf tasks false .absent).served tf (completions first)

theorem run_half (first : List Int) :
    (step tf).run (start tf tasks false .absent) ((completions first).map .serve ++ poll) =
      some (half tf tasks first).polled :=
  Machine.run_append.2 ⟨_, run_serve tf _ _, run_poll tf rfl⟩

theorem proper_twice {first second : List Int}
    (hfirst : (half tf tasks first).handler.isSome = true)
    (hsecond :
      ((half tf tasks first).polled.served tf (completions second)).handler.isSome = true) :
    (step tf).Meets Proper (start tf tasks false .absent) (twice first second) := by
  rw [twice, Machine.meets_append (run_half tf first), Machine.meets_append (run_serve tf _ _),
    Machine.meets_append (run_serve tf _ _)]
  exact ⟨⟨proper_serve tf _ _, (oneByOne_poll tf rfl).and (attended_poll tf hfirst)⟩,
    proper_serve tf _ _, (oneByOne_poll tf rfl).and (attended_poll tf hsecond)⟩

/-- What the two polls of such a run leave, if they show what they should. -/
theorem collected_twice {first second : List Int}
    (h : (step tf).Meets (Shows tf) (start tf tasks false .absent) (twice first second)) :
    (half tf tasks first).polled.collected =
        (half tf tasks first).master.node.donePrefix.map toString ∧
      ((half tf tasks first).polled.served tf (completions second)).polled.collected =
        ((half tf tasks first).master.serve tf (completions second)).node.donePrefix.map
          toString := by
  rw [twice, Machine.meets_append (run_half tf first), Machine.meets_append (run_serve tf _ _),
    Machine.meets_append (run_serve tf _ _)] at h
  exact ⟨collected_of_shows tf rfl h.1.2, collected_of_shows tf rfl h.2.2⟩

theorem completed_half (k : Nat) :
    Completed tasks (tasks.take k) (half tf tasks (tasks.take k)).master.node := by
  have hinit := completed_init tf tasks
  have hpending : (init tf tasks false .absent).node.taskPendingQueue =
      tasks.take k ++ tasks.drop k := by
    rw [List.take_append_drop]
    exact hinit.pending
  exact hinit.completions tf hpending

/-- With a task that is still pending, the master is the handler. -/
theorem handler_of_completed (hnd : tasks.Nodup) {k : Nat} (hk : k < tasks.length) {s : StatusPage}
    (hserved : ∃ ds, s.master = (init tf tasks false .absent).serve tf ds)
    (h : Completed tasks (tasks.take k) s.master.node) : s.handler.isSome = true := by
  have hne : tasks ≠ [] := List.ne_nil_of_length_pos (by omega)
  have hpending : s.master.node.taskPendingQueue ≠ [] := by
    intro hnil
    have hall := congrArg List.length h.pending
    rw [hnil, List.append_nil, List.length_take] at hall
    omega
  rw [handler_iff tf hne hnd hserved, MasterNode.idle, List.isEmpty_eq_false_iff.2 hpending,
    Bool.false_and]

/-- And without one it is not. -/
theorem handler_of_all_completed (hnd : tasks.Nodup) (hne : tasks ≠ []) :
    (half tf tasks tasks).handler.isSome = false := by
  have hdone : Completed tasks (tasks.take tasks.length)
      (half tf tasks (tasks.take tasks.length)).master.node := completed_half tf tasks.length
  rw [List.take_length] at hdone
  have hserved : ∃ ds, (half tf tasks tasks).master = (init tf tasks false .absent).serve tf ds :=
    ⟨_, rfl⟩
  have hist : History (init tf tasks false .absent) (half tf tasks tasks).master :=
    history_serve tf (history_init tf hnd false .absent) _
  have hidle : (half tf tasks tasks).master.node.idle = true := by
    refine (idle_iff tf hist).2 fun id hid => ?_
    have his : (half tf tasks tasks).master.node.isDone id = true := by
      rw [hdone.isDone]
      simpa using hid
    rw [MasterNode.isDone, Option.any_eq_true] at his
    obtain ⟨item, hitem, hstatus⟩ := his
    exact ⟨item, hitem, by simpa using hstatus⟩
  rw [Bool.eq_false_iff, Ne, handler_iff tf hne hnd hserved, hidle]
  simp

/-- If all runs of polls one by one show what they should, the number of the tasks is an `int`. -/
theorem length_lt_of_shows (hnd : tasks.Nodup)
    (h : ∀ as, (step tf).Meets Proper (start tf tasks false .absent) as →
      (step tf).Meets (Shows tf) (start tf tasks false .absent) as) :
    tasks.length < 2147483648 := by
  by_contra hlong
  have hdone : Completed tasks (tasks.take (tasks.length - 1))
      (half tf tasks (tasks.take (tasks.length - 1))).master.node := completed_half tf _
  have hhandler := handler_of_completed tf hnd (by omega) ⟨_, rfl⟩ hdone
  obtain ⟨hall, -⟩ := collected_twice tf (h (twice (tasks.take (tasks.length - 1)) [])
    (proper_twice tf hhandler hhandler))
  have hcursor : getStartTaskId (half tf tasks (tasks.take (tasks.length - 1))).taskInfos =
      (0 : Nat) := rfl
  rw [hdone.donePrefix hnd, collected_polled, map_taskId_answerNow hhandler (by decide) hcursor]
    at hall
  have hlen := congrArg List.length hall
  rw [List.length_append, List.length_map, List.length_map, List.length_take] at hlen
  have hle := length_listedIds_le
    (half tf tasks (tasks.take (tasks.length - 1))).master.node (0 : Nat)
  rw [hdone.queue, Int.bmod_def] at hle
  have hnil : (half tf tasks (tasks.take (tasks.length - 1))).collected.length = 0 := rfl
  split at hle <;> omega

/-- And the next id after the first `k` is `k`, if those are 0, 1, 2, … and it is not the last. -/
theorem getElem_eq_of_shows (hnd : tasks.Nodup)
    (h : ∀ as, (step tf).Meets Proper (start tf tasks false .absent) as →
      (step tf).Meets (Shows tf) (start tf tasks false .absent) as) {k : Nat}
    (hk : k + 1 < tasks.length) (htake : tasks.take k = ids k) : tasks[k] = k := by
  have hlen := length_lt_of_shows tf hnd h
  have hdone : Completed tasks (tasks.take k) (half tf tasks (tasks.take k)).master.node :=
    completed_half tf k
  have hpending : (half tf tasks (tasks.take k)).master.node.taskPendingQueue =
      [tasks[k]] ++ tasks.drop (k + 1) := by
    have hsplit := hdone.pending.trans (List.take_append_drop k tasks).symm
    rw [List.append_cancel_left_eq, List.drop_eq_getElem_cons (by omega)] at hsplit
    exact hsplit
  have hnext := hdone.completions tf hpending
  rw [List.take_append_getElem (by omega)] at hnext
  have hhandler := handler_of_completed tf hnd (by omega) ⟨_, rfl⟩ hdone
  have hhandler' : ((half tf tasks (tasks.take k)).polled.served tf
      (completions [tasks[k]])).handler.isSome = true :=
    handler_of_completed tf hnd hk ⟨completions (tasks.take k) ++ completions [tasks[k]],
      (serve_append tf _ _ _).symm⟩ hnext
  obtain ⟨hfirst, hsecond⟩ := collected_twice tf (h _ (proper_twice tf hhandler hhandler'))
  generalize half tf tasks (tasks.take k) = s at hfirst hsecond hdone hnext hhandler'
  rw [hdone.donePrefix hnd, htake] at hfirst
  have hcursor : getStartTaskId (s.polled.served tf (completions [tasks[k]])).taskInfos = k :=
    getStartTaskId_ids (by omega) hfirst
  rw [collected_polled, map_taskId_answerNow hhandler' (by omega) hcursor, served_collected,
    hnext.donePrefix hnd, hfirst, ← List.take_append_getElem (by omega), List.map_append, htake]
    at hsecond
  have hlisted := List.append_cancel_left hsecond
  rw [List.map_singleton, List.map_eq_singleton_iff] at hlisted
  obtain ⟨id, hid, heq⟩ := hlisted
  rw [← Decimal.toString_inj heq]
  exact eq_of_listedIds_cons hid

theorem numbered_of_shows (hnd : tasks.Nodup)
    (h : ∀ as, (step tf).Meets Proper (start tf tasks false .absent) as →
      (step tf).Meets (Shows tf) (start tf tasks false .absent) as) : Numbered tasks := by
  have htake : ∀ k, k ≤ tasks.length - 1 → tasks.take k = ids k := by
    intro k
    induction k with
    | zero => exact fun _ => rfl
    | succ k ih =>
      intro hk
      have hprev := ih (by omega)
      rw [← List.take_append_getElem (by omega), hprev,
        getElem_eq_of_shows tf hnd h (by omega) hprev, ids_succ]
  exact ⟨List.dropLast_eq_take.trans (htake _ le_rfl), length_lt_of_shows tf hnd h⟩

/-- With two polls at once the first task is taken twice. -/
theorem not_shows_twoPolls (hnd : tasks.Nodup) (hnum : Numbered tasks) (hlen : 2 ≤ tasks.length) :
    ∃ as, (step tf).Meets Attended (start tf tasks false .absent) as ∧
      ¬ (step tf).Meets (Shows tf) (start tf tasks false .absent) as := by
  have hdone : Completed tasks (tasks.take 1) (half tf tasks (tasks.take 1)).master.node :=
    completed_half tf 1
  have hhandler := handler_of_completed tf hnd (by omega) ⟨_, rfl⟩ hdone
  refine ⟨(completions (tasks.take 1)).map .serve ++ twoPolls, ?_, fun h => ?_⟩
  · rw [Machine.meets_append (run_serve tf _ _)]
    exact ⟨(proper_serve tf _ _).imp fun _ _ hproper => hproper.2, attended_twoPolls tf hhandler⟩
  rw [Machine.meets_append (run_serve tf _ _)] at h
  have hnodup := nodup_of_shows_twoPolls tf rfl h.2
  have hlisted : (half tf tasks (tasks.take 1)).master.node.listedIds (0 : Nat) = tasks.take 1 := by
    rw [listedIds_numbered (by rw [hdone.queue]; exact hnum.2) (by rw [hdone.queue]; exact hnum.1)
      (by rw [hdone.donePrefix hnd, hdone.queue, List.length_take]; omega)
      (Nat.zero_le _), hdone.donePrefix hnd, List.drop_zero]
  have hcursor : getStartTaskId (half tf tasks (tasks.take 1)).taskInfos = (0 : Nat) := rfl
  have hanswer := map_taskId_answerNow hhandler (by decide) hcursor
  rw [hlisted] at hanswer
  have hne : tasks ≠ [] := List.ne_nil_of_length_pos (by omega)
  obtain ⟨id, rest, rfl⟩ := List.exists_cons_of_ne_nil hne
  rw [show (start tf (id :: rest) false .absent).served tf (completions ((id :: rest).take 1)) =
    half tf (id :: rest) ((id :: rest).take 1) from rfl, hanswer] at hnodup
  simp at hnodup

/-- After the last task the page is told nothing any more. -/
theorem not_shows_last (hnd : tasks.Nodup) (hne : tasks ≠ []) :
    ∃ as, (step tf).Meets OneByOne (start tf tasks false .absent) as ∧
      ¬ (step tf).Meets (Shows tf) (start tf tasks false .absent) as := by
  refine ⟨(completions tasks).map .serve ++ poll, ?_, fun h => ?_⟩
  · rw [Machine.meets_append (run_serve tf _ _)]
    exact ⟨(proper_serve tf _ _).imp fun _ _ hproper => hproper.1, oneByOne_poll tf rfl⟩
  rw [Machine.meets_append (run_serve tf _ _)] at h
  have hall : (half tf tasks tasks).polled.collected =
      (half tf tasks tasks).master.node.donePrefix.map toString := collected_of_shows tf rfl h.2
  have hprefix : (half tf tasks (tasks.take tasks.length)).master.node.donePrefix =
      tasks.take tasks.length := (completed_half tf tasks.length).donePrefix hnd
  rw [List.take_length] at hprefix
  have hnone : (half tf tasks tasks).answerNow.tasks = [] := by
    have hhandler := handler_of_all_completed tf hnd hne
    rw [answerNow, handleRequestImpl]
    rw [Option.isSome_eq_false_iff, Option.isNone_iff_eq_none] at hhandler
    rw [hhandler]
    rfl
  rw [collected_polled, hnone, hprefix] at hall
  exact hne (List.map_eq_nil_iff.1 hall.symm)

/-- A state of a run with one task at most, of which the page is told nothing. -/
structure Bare (tasks : List Int) (readState : Bool) (file : StateFile) (s : StatusPage) :
    Prop where
  served : ∃ ds, s.master = (init tf tasks readState file).serve tf ds
  queue : s.master.node.taskQueue = tasks
  taskInfos : s.taskInfos = []
  polls : ∀ poll ∈ s.polls, poll = .sent 0 ∨ ∃ body, poll = .answered body [] ∧ body.tasks = []

section Bare

variable {readState : Bool} {file : StateFile} {s t : StatusPage} {a : Label}

/-- What is answered then. -/
theorem Bare.answered (hnd : tasks.Nodup) (hlen : tasks.length ≤ 1)
    (h : Bare tf tasks readState file s) {k : Nat} (ha : tasks = [] ∨ Attended s (.answer k)) :
    s.master.node.donePrefix = [] ∧ (s.handleRequestImpl
      (Http.parseRequest ((refreshMessage (0 : Nat)).render ['\r']))).tasks = [] := by
  have hnone : s.master.node.donePrefix = [] := by
    rcases ha with rfl | ha
    · rw [donePrefix, h.queue]
      rfl
    · have hle := length_donePrefix_le tf hnd h.served h.queue ha
      exact List.eq_nil_of_length_eq_zero (by omega)
  refine ⟨hnone, ?_⟩
  rw [handleRequestImpl]
  rw [handler]
  split
  · next hif =>
    split at hif
    · cases hif
    · obtain rfl := Option.some_inj.1 hif
      have hlisted : s.master.node.listedIds (0 : Nat) = [] := by
        rw [listedIds_eq (by rw [h.queue]; omega), h.queue]
        rw [donePrefix, h.queue] at hnone
        rcases tasks with _ | ⟨id, _ | ⟨id', rest⟩⟩
        · rfl
        · by_cases hid : id = (0 : Nat)
          · rw [List.dropWhile_cons_of_neg (by simpa using hid)]
            exact hnone
          · rw [List.dropWhile_cons_of_pos (by simpa using hid)]
            rfl
        · simp at hlen
      have hmap := map_taskId_listTasks s.master.node (0 : Nat)
      rw [hlisted] at hmap
      rw [handleHttpRequest_refresh _ (by decide)]
      exact List.map_eq_nil_iff.1 hmap
  · rfl

theorem bare_step (hnd : tasks.Nodup) (hlen : tasks.length ≤ 1) (h : Bare tf tasks readState file s)
    (ha : tasks = [] ∨ Attended s a) (hstep : step tf s a = some t) :
    Bare tf tasks readState file t := by
  cases a with
  | serve d =>
    rw [step, Option.some_inj] at hstep
    subst hstep
    obtain ⟨ds, hds⟩ := h.served
    refine ⟨⟨ds ++ [d], ?_⟩, ?_, h.taskInfos, h.polls⟩
    · rw [serve_append, ← hds]
      rfl
    · exact (handleRequest_taskQueue tf s.master.node d.clk d.req _).trans h.queue
  | refresh =>
    rw [step, Option.some_inj] at hstep
    subst hstep
    refine ⟨h.served, h.queue, h.taskInfos, fun poll hpoll => ?_⟩
    rcases List.mem_append.1 hpoll with hpoll | hpoll
    · exact h.polls poll hpoll
    · rw [List.mem_singleton, h.taskInfos] at hpoll
      exact .inl hpoll
  | answer k =>
    obtain ⟨startTaskId, hk, body, hanswer, rfl⟩ := step_answer tf hstep
    obtain rfl : startTaskId = (0 : Nat) := by
      simpa using h.polls _ (List.mem_of_getElem? hk)
    obtain ⟨hnone, htasks⟩ := h.answered tf hnd hlen ha
    refine ⟨h.served, h.queue, h.taskInfos, fun poll hpoll => ?_⟩
    rcases List.mem_or_eq_of_mem_set hpoll with hpoll | rfl
    · exact h.polls poll hpoll
    · exact .inr ⟨body, by rw [hnone], by rw [hanswer]; exact htasks⟩
  | receive k =>
    obtain ⟨body, done, hk, rfl⟩ := step_receive tf hstep
    obtain ⟨-, htasks⟩ : done = [] ∧ body.tasks = [] := by
      simpa using h.polls _ (List.mem_of_getElem? hk)
    exact ⟨h.served, h.queue, by rw [h.taskInfos, htasks]; rfl,
      fun poll hpoll => h.polls poll (List.mem_of_mem_eraseIdx hpoll)⟩
  | fail k =>
    obtain ⟨-, rfl⟩ := step_fail tf hstep
    exact ⟨h.served, h.queue, h.taskInfos,
      fun poll hpoll => h.polls poll (List.mem_of_mem_eraseIdx hpoll)⟩

theorem shows_of_bare (hnd : tasks.Nodup) (hlen : tasks.length ≤ 1)
    (h : Bare tf tasks readState file s) (ha : tasks = [] ∨ Attended s a) : Shows tf s a := by
  intro t hstep
  have ht := bare_step tf hnd hlen h ha hstep
  have hcollected : t.collected = [] := by rw [collected, ht.taskInfos, List.map_nil]
  rw [hcollected]
  refine ⟨⟨List.nil_prefix, List.nodup_nil⟩, fun k body done _ hk => ?_⟩
  obtain ⟨rfl, -⟩ : done = [] ∧ body.tasks = [] := by
    simpa using h.polls _ (List.mem_of_getElem? hk)
  rfl

theorem shows_of_length_le (hnd : tasks.Nodup) (hlen : tasks.length ≤ 1) {as : List Label}
    (has : (step tf).Meets (fun s a => tasks = [] ∨ Attended s a)
      (start tf tasks readState file) as) :
    (step tf).Meets (Shows tf) (start tf tasks readState file) as := by
  have hstart : Bare tf tasks readState file (start tf tasks readState file) :=
    ⟨⟨[], rfl⟩, (start_started tf tasks readState file).queue, rfl, by simp [start]⟩
  exact (Machine.meets_congr_of_meets (C := fun _ _ => True)
    (fun _ _ _ ha h _ hstep => bare_step tf hnd hlen h ha hstep)
    (fun _ _ ha h => ⟨fun _ => shows_of_bare tf hnd hlen h ha, fun _ => trivial⟩) has hstart).1
    (Machine.meets_labels (fun _ _ => trivial) _)

end Bare

/-- **What the status page shows.**  In the runs in which no two polls overlap, and none is answered
after `WillExitDpe`, it shows every finished prefix exactly if the ids but the last are 0, 1, 2, …
in this order and their number is an `int`; if polls may overlap, exactly if there is one task at
most; and if polls may be answered after `WillExitDpe`, exactly if there are no tasks. -/
theorem shows_iff (hnd : tasks.Nodup) :
    ((∀ readState file as, (step tf).Meets Proper (start tf tasks readState file) as →
        (step tf).Meets (Shows tf) (start tf tasks readState file) as) ↔ Numbered tasks) ∧
      ((∀ readState file as, (step tf).Meets Attended (start tf tasks readState file) as →
        (step tf).Meets (Shows tf) (start tf tasks readState file) as) ↔ tasks.length ≤ 1) ∧
      ((∀ readState file as, (step tf).Meets OneByOne (start tf tasks readState file) as →
        (step tf).Meets (Shows tf) (start tf tasks readState file) as) ↔ tasks = []) ∧
      ((∀ readState file as, (step tf).Meets (Shows tf) (start tf tasks readState file) as) ↔
        tasks = []) := by
  have hproper : (∀ readState file as, (step tf).Meets Proper (start tf tasks readState file) as →
      (step tf).Meets (Shows tf) (start tf tasks readState file) as) ↔ Numbered tasks :=
    ⟨fun h => numbered_of_shows tf hnd (h false .absent), fun hnum readState file _ has =>
      shows_of_numbered tf hnd hnum readState file has⟩
  have hnil : (∀ readState file as, (step tf).Meets OneByOne (start tf tasks readState file) as →
      (step tf).Meets (Shows tf) (start tf tasks readState file) as) → tasks = [] := by
    intro h
    by_contra hne
    obtain ⟨as, has, hnot⟩ := not_shows_last tf hnd hne
    exact hnot (h _ _ as has)
  have hall : tasks = [] → ∀ readState file as,
      (step tf).Meets (Shows tf) (start tf tasks readState file) as := fun hnone _ _ as =>
    shows_of_length_le tf hnd (by rw [hnone]; decide)
      (Machine.meets_of_invariant (P := fun _ => True) (fun _ _ _ _ _ => trivial)
        (fun _ _ _ => .inl hnone) trivial as)
  refine ⟨hproper, ⟨fun h => ?_, fun hlen readState file as has => ?_⟩,
    ⟨hnil, fun hnone _ _ as _ => hall hnone _ _ as⟩,
    fun h => hnil fun _ _ as _ => h _ _ as, hall⟩
  · have hnum := hproper.1 fun readState file as has =>
      h readState file as (has.imp fun _ _ hproper => hproper.2)
    by_contra hlong
    obtain ⟨as, has, hnot⟩ := not_shows_twoPolls tf hnd hnum (by omega)
    exact hnot (h _ _ as has)
  · exact shows_of_length_le tf hnd hlen (has.imp fun _ _ ha => .inr ha)

theorem shows_iff_three :
    [0, 1, 2].Nodup ∧ ∀ readState file as,
      (step savedFormat).Meets Proper (start savedFormat [0, 1, 2] readState file) as →
        (step savedFormat).Meets (Shows savedFormat) (start savedFormat [0, 1, 2] readState file)
          as :=
  ⟨by decide, (shows_iff savedFormat (by decide)).1.2 (by decide)⟩

/-- Tasks numbered from 1: the first one is completed, and the page does not get it. -/
theorem not_shows_fromOne :
    [1, 2].Nodup ∧ (∀ id ∈ [1, 2], (0 : Int) ≤ id) ∧
      ¬ (step savedFormat).Meets (Shows savedFormat) (start savedFormat [1, 2] false .absent)
        ((completions [1]).map .serve ++ poll) := by
  refine ⟨by decide, by decide, fun h => ?_⟩
  rw [Machine.meets_append (run_serve savedFormat _ _)] at h
  have hcollected := collected_of_shows savedFormat rfl h.2
  exact absurd hcollected (by decide)

end StatusPage

end Dcfpe

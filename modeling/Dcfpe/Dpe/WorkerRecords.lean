import Dcfpe.Dpe.MasterRecords
import Dcfpe.Dpe.Restart

/-!
# The workers' own lists

Besides the records of the tasks the master keeps, for every worker that ever wrote to it, the
tasks the worker holds (`running_task`) and the tasks it has reported (`finished_task`).  The two
are meant to be two views of one thing: who holds a task, and whether it is done.

The task records change only for ids that are really running, the lists for every id a worker
names.  So the views agree as long as each worker reports only what it holds, and a restart takes
over only finished tasks it still has; and `records_agree_iff` says that the first request or
restart that does otherwise is where they come apart.  What carries it is that agreement is kept
in a stronger form, `Agree`, in which both lists are determined by the status alone.
-/

set_option autoImplicit false

namespace Dcfpe

open Std

namespace MasterNode

variable (tf : TextFormat)

def statusOf (n : MasterNode) (id : Int) : Option TaskStatus := n.taskMap[id]?.map TaskItem.status

/-- The records of the workers, in key order. -/
def workers (n : MasterNode) : List WorkerStatus := n.workerMap.toList.map Prod.snd

/-- How often an id occurs in the lists `g` of all workers. -/
def listed (g : WorkerStatus → List Int) (n : MasterNode) (id : Int) : Nat :=
  (n.workers.flatMap g).count id

/-- The records of the workers agree with those of the tasks. -/
structure RecordsAgree (n : MasterNode) : Prop where
  running : ∀ id, n.statusOf id = some .running ↔ n.listed WorkerStatus.runningTask id = 1
  finished : ∀ id, n.listed WorkerStatus.finishedTask id ≤ 1 ∧
    (0 < n.listed WorkerStatus.finishedTask id → n.statusOf id = some .done)

/-- The stronger form in which they are kept: what the lists hold follows from the status. -/
structure Agree (n : MasterNode) : Prop where
  running : ∀ id, n.listed WorkerStatus.runningTask id =
    if n.statusOf id = some .running then 1 else 0
  finished : ∀ id, n.listed WorkerStatus.finishedTask id =
    if n.statusOf id = some .done then 1 else 0

theorem Agree.recordsAgree {n : MasterNode} (h : n.Agree) : n.RecordsAgree := by
  refine ⟨fun id => ?_, fun id => ?_⟩
  · rw [h.running id]
    split <;> simp_all
  · rw [h.finished id]
    split <;> simp_all

/-- A FinishCompute reports only tasks its sender holds. -/
def ReportsOwn (n : MasterNode) (req : Request) : Prop :=
  ∀ id ∈ req.reported.map Prod.fst, id ∈ (n.getWorker 0 req.workerId).runningTask

instance (n : MasterNode) (req : Request) : Decidable (n.ReportsOwn req) :=
  inferInstanceAs (Decidable (∀ id ∈ _, _))

/-! ## The status of a task -/

theorem statusOf_running {n : MasterNode} (h : n.Inv) (id : Int) :
    id ∈ n.taskRunningQueue ↔ n.statusOf id = some .running := by
  rw [h.running id, ledger, book_eq_some, statusOf, Option.map_eq_some_iff]
  simp

theorem statusOf_pending {n : MasterNode} (h : n.Inv) (id : Int) :
    id ∈ n.taskPendingQueue ↔ n.statusOf id = some .pending := by
  rw [h.pending id, ledger, book_eq_some, statusOf, Option.map_eq_some_iff]
  simp

theorem map_status_insert (m : TreeMap Int TaskItem) (k id : Int) (item : TaskItem) :
    (m.insert k item)[id]?.map TaskItem.status =
      if id = k then some item.status else m[id]?.map TaskItem.status := by
  rw [TreeMap.getElem?_insert]
  by_cases h : id = k
  · rw [if_pos h, if_pos (Std.compare_eq_iff_eq.2 h.symm)]
    rfl
  · rw [if_neg h, if_neg (fun hc => h (Std.compare_eq_iff_eq.1 hc).symm)]

/-- What the GetTask loop does to the status of every task and to the record of the worker. -/
theorem getTaskLoop_status (max : Int) (pending : List Int) :
    ∀ (n : MasterNode) (worker : WorkerStatus) (task : List Int) (added : Int),
      n.taskPendingQueue = pending →
      ∃ taken, pending = taken ++ (getTaskLoop max pending n worker task added).1.taskPendingQueue ∧
        (getTaskLoop max pending n worker task added).2.1 =
          { worker with runningTask := worker.runningTask ++ taken } ∧
        (getTaskLoop max pending n worker task added).1.workerMap = n.workerMap ∧
        ∀ id, (getTaskLoop max pending n worker task added).1.statusOf id =
          if id ∈ taken then some .running else n.statusOf id := by
  induction pending with
  | nil => exact fun n worker _ _ hp => ⟨[], by simp [getTaskLoop, hp]⟩
  | cons k pending ih =>
    intro n worker task added hp
    rw [getTaskLoop]
    split
    · obtain ⟨taken, hrest, hworker, hmap, hstatus⟩ := ih
        { n with
          taskPendingQueue := pending
          taskRunningQueue := n.taskRunningQueue.insert k
          taskMap := setStatus n.taskMap k .running }
        { worker with runningTask := worker.runningTask ++ [k] } (task ++ [k]) (added + 1) rfl
      refine ⟨k :: taken, by rw [List.cons_append, ← hrest],
        by rw [hworker, List.append_assoc]; rfl,
        hmap, fun id => ?_⟩
      rw [hstatus id, statusOf, setStatus, map_status_insert]
      by_cases hid : id = k
      · simp [hid]
      · simp [hid, statusOf]
    · exact ⟨[], by simp [hp]⟩

/-- One reported item makes its task DONE if it is running, and changes nothing otherwise. -/
theorem finishItem_status {f : Finishing} (h : f.node.Inv) (item : TaskItem) (id : Int) :
    (finishItem f item).node.statusOf id =
      if id = item.taskId ∧ f.node.statusOf id = some .running then some .done
      else f.node.statusOf id := by
  by_cases hrun : item.taskId ∈ f.node.taskRunningQueue
  · simp only [finishItem, if_pos hrun]
    rw [statusOf, setDone, map_status_insert]
    by_cases hid : id = item.taskId
    · rw [if_pos hid, if_pos ⟨hid, hid ▸ (statusOf_running h _).1 hrun⟩]
    · rw [if_neg hid, if_neg (fun hc => hid hc.1), statusOf]
  · simp only [finishItem, if_neg hrun]
    rw [if_neg]
    rintro ⟨rfl, hr⟩
    exact hrun ((statusOf_running h _).2 hr)

/-- The loop over the items: each reported task that was running is DONE, and every reported id is
put in `removed_task_id`. -/
theorem finishItems_status (items : List TaskItem) : ∀ f : Finishing, f.node.Inv → ∀ id,
    ((items.foldl finishItem f).node.statusOf id =
      if id ∈ items.map TaskItem.taskId ∧ f.node.statusOf id = some .running then some .done
      else f.node.statusOf id) ∧
    (id ∈ (items.foldl finishItem f).removedTaskId ↔
      id ∈ f.removedTaskId ∨ id ∈ items.map TaskItem.taskId) := by
  induction items with
  | nil => intro f _ id; simp
  | cons item items ih =>
    intro f h id
    obtain ⟨-, -, -, -, -, hinv, -⟩ := finishItem_spec item h
    obtain ⟨hstatus, hremoved⟩ := ih (finishItem f item) hinv id
    have hadd : id ∈ (finishItem f item).removedTaskId ↔
        id = item.taskId ∨ id ∈ f.removedTaskId := by
      rw [finishItem]
      split <;> simp [TreeSet.mem_insert, eq_comm (a := id)]
    simp only [List.foldl_cons, hstatus, hremoved, hadd, finishItem_status h, List.map_cons,
      List.mem_cons]
    refine ⟨?_, by tauto⟩
    by_cases hr : f.node.statusOf id = some .running
    · simp only [hr, and_true]
      by_cases hid : id = item.taskId <;> simp [hid]
    · simp [hr]

/-! ## The lists of the workers -/

theorem listed_congr (g : WorkerStatus → List Int) {n n' : MasterNode}
    (h : n'.workerMap = n.workerMap) : n'.listed g = n.listed g := by
  funext id
  rw [listed, listed, workers, workers, h]

/-- The record that is written back counts in the place of the one that was there. -/
theorem listed_putWorker (g : WorkerStatus → List Int) (n : MasterNode) (now : Int) (k : String)
    (worker : WorkerStatus)
    (hg : g { workerId := k, latencySum := 0, requestCount := 0, updatedTime := now } = [])
    (id : Int) :
    (n.putWorker k worker).listed g id + (g (n.getWorker now k)).count id =
      n.listed g id + (g worker).count id := by
  have h := Filing.weight_insert (fun w => (g w).count id) n.workerMap k worker
  rw [listed, listed, Tokens.count_flatMap_eq_weight, Tokens.count_flatMap_eq_weight]
  refine Eq.trans (congrArg _ ?_) h
  rw [getWorker]
  cases hw : n.workerMap[k]? with
  | none => simp [hg]
  | some w => simp

theorem getWorker_runningTask (n : MasterNode) (now now' : Int) (k : String) :
    (n.getWorker now k).runningTask = (n.getWorker now' k).runningTask := by
  rw [getWorker, getWorker]
  split <;> rfl

theorem count_toList (s : TreeSet Int) (id : Int) :
    s.toList.count id = if id ∈ s then 1 else 0 := by
  split
  · next h =>
    refine List.count_eq_one_of_mem ?_ (TreeSet.mem_toList.2 h)
    exact TreeSet.distinct_toList.imp fun hne he => hne (Std.compare_eq_iff_eq.2 he)
  · next h => exact List.count_eq_zero.2 fun hc => h (TreeSet.mem_toList.1 hc)

/-! ## One request -/

/-- A GetTask hands out PENDING tasks, each once, and puts them on the list of its sender. -/
theorem handleGetTask_agree {n : MasterNode} (h : n.Inv) (ha : n.Agree) (clk : Clock)
    (req : Request) (getTask : GetTaskRequest) (reply : Response) :
    (n.handleGetTask (touchWorker clk n req) req.workerId getTask reply).1.Agree := by
  obtain ⟨taken, hp, hworker, hmap, hstatus⟩ := getTaskLoop_status
    (Max.max getTask.maxTaskCount 1) n.taskPendingQueue n (touchWorker clk n req) [] 0 rfl
  simp only [handleGetTask]
  generalize getTaskLoop (Max.max getTask.maxTaskCount 1) n.taskPendingQueue n
    (touchWorker clk n req) [] 0 = r at hp hworker hmap hstatus
  obtain ⟨n₁, worker, task⟩ := r
  simp only at hp hworker hmap hstatus
  have hnd : taken.Nodup := by
    have := h.pendingNodup
    rw [hp] at this
    exact this.of_append_left
  have hfree : ∀ id ∈ taken, n.statusOf id = some .pending := fun id hid =>
    (statusOf_pending h id).1 (by rw [hp]; exact List.mem_append_left _ hid)
  have hst : ∀ id, (n₁.putWorker req.workerId worker).statusOf id =
      if id ∈ taken then some .running else n.statusOf id := hstatus
  have hget : n₁.getWorker clk.worker req.workerId = n.getWorker clk.worker req.workerId := by
    rw [getWorker, getWorker, hmap]
  have hrun : worker.runningTask = (n.getWorker clk.worker req.workerId).runningTask ++ taken := by
    rw [hworker]
    rfl
  have hfin : worker.finishedTask = (n.getWorker clk.worker req.workerId).finishedTask := by
    rw [hworker]
    rfl
  change (n₁.putWorker req.workerId worker).Agree
  refine ⟨fun id => ?_, fun id => ?_⟩
  · have hl := listed_putWorker WorkerStatus.runningTask n₁ clk.worker req.workerId worker rfl id
    rw [listed_congr _ hmap, ha.running id, hget, hrun, List.count_append] at hl
    rw [hst]
    by_cases hid : id ∈ taken
    · rw [hfree id hid, List.count_eq_one_of_mem hnd hid, if_neg (by simp)] at hl
      rw [if_pos hid, if_pos rfl]
      omega
    · rw [List.count_eq_zero.2 hid] at hl
      rw [if_neg hid]
      omega
  · have hl := listed_putWorker WorkerStatus.finishedTask n₁ clk.worker req.workerId worker rfl id
    rw [listed_congr _ hmap, ha.finished id, hget, hfin] at hl
    rw [hst, Nat.add_right_cancel hl]
    by_cases hid : id ∈ taken
    · rw [hfree id hid]
      simp [hid]
    · rw [if_neg hid]

/-- What a FinishCompute does to the status of every task and to the lists. -/
theorem handleFinishCompute_counts {n : MasterNode} (h : n.Inv) (clk : Clock) (req : Request)
    (data : FinishComputeRequest) (reply : Response) {n' : MasterNode}
    (hn' : (n.handleFinishCompute tf clk (touchWorker clk n req) req.workerId data reply).1 = n')
    {reported : List Int} (hrep : data.taskItem.map TaskItem.taskId = reported) {held : Int → Nat}
    (hheld : (fun id => (n.getWorker 0 req.workerId).runningTask.count id) = held) (id : Int) :
    (n'.statusOf id =
      if id ∈ reported ∧ n.statusOf id = some .running then some .done else n.statusOf id) ∧
    (n'.listed WorkerStatus.runningTask id + held id =
      n.listed WorkerStatus.runningTask id + if id ∈ reported then 0 else held id) ∧
    n'.listed WorkerStatus.finishedTask id =
      n.listed WorkerStatus.finishedTask id + if id ∈ reported then 1 else 0 := by
  obtain ⟨hstatus, hremoved⟩ := finishItems_status data.taskItem { node := n } h id
  obtain ⟨-, -, -, -, -, -, hmap⟩ := finishItems_spec data.taskItem { node := n } h
  generalize hf : data.taskItem.foldl finishItem { node := n } = f at hstatus hremoved hmap
  obtain ⟨t, hn⟩ := handleFinishCompute_node tf clk n (touchWorker clk n req) req.workerId data
    reply hf
  replace hn' := hn'.symm.trans hn
  have hrem : id ∈ f.removedTaskId ↔ id ∈ reported := by
    rw [hremoved, hrep]
    simp
  have hget : f.node.getWorker clk.worker req.workerId = n.getWorker clk.worker req.workerId := by
    rw [getWorker, getWorker, hmap]
  have hheld : held id = (n.getWorker clk.worker req.workerId).runningTask.count id := by
    rw [← hheld, getWorker_runningTask n clk.worker 0]
  rw [hrep] at hstatus
  have hlisted : ∀ g, n'.listed g = (f.node.putWorker req.workerId
      (finishWorker (touchWorker clk n req) f.removedTaskId)).listed g := fun g => by
    rw [hn']
    exact listed_congr g rfl
  refine ⟨by rw [hn']; exact hstatus, ?_, ?_⟩
  · have hl := listed_putWorker WorkerStatus.runningTask f.node clk.worker req.workerId
      (finishWorker (touchWorker clk n req) f.removedTaskId) rfl id
    rw [hget, listed_congr _ hmap, ← hheld] at hl
    rw [hlisted, hl]
    congr 1
    by_cases hid : id ∈ reported
    · rw [if_pos hid, List.count_eq_zero]
      simp [finishWorker, hrem, hid]
    · rw [if_neg hid, hheld]
      exact List.count_filter (by simp [hrem, hid])
  · have hl := listed_putWorker WorkerStatus.finishedTask f.node clk.worker req.workerId
      (finishWorker (touchWorker clk n req) f.removedTaskId) rfl id
    rw [hget, listed_congr _ hmap] at hl
    rw [show (finishWorker (touchWorker clk n req) f.removedTaskId).finishedTask =
        (n.getWorker clk.worker req.workerId).finishedTask ++ f.removedTaskId.toList from rfl,
      List.count_append, count_toList] at hl
    simp only [hrem] at hl
    rw [hlisted]
    omega

/-- A FinishCompute keeps the records in agreement exactly if it reports only what its sender
holds. -/
theorem handleFinishCompute_agree_iff {n : MasterNode} (h : n.Inv) (ha : n.Agree) (clk : Clock)
    (req : Request) (data : FinishComputeRequest) (reply : Response) {n' : MasterNode}
    (hn' : (n.handleFinishCompute tf clk (touchWorker clk n req) req.workerId data reply).1 = n')
    {reported : List Int} (hrep : data.taskItem.map TaskItem.taskId = reported) :
    ((∀ id ∈ reported, id ∈ (n.getWorker 0 req.workerId).runningTask) → n'.Agree) ∧
      (n'.RecordsAgree → ∀ id ∈ reported, id ∈ (n.getWorker 0 req.workerId).runningTask) := by
  have hc := handleFinishCompute_counts tf h clk req data reply hn' hrep rfl
  constructor
  · intro hown
    refine ⟨fun id => ?_, fun id => ?_⟩
    all_goals obtain ⟨hstatus, hrun, hfin⟩ := hc id
    · rw [hstatus]
      have hr := ha.running id
      by_cases hid : id ∈ reported
      · -- the sender holds it, so it is RUNNING and on no other list
        have hheld := List.count_pos_iff.2 (hown id hid)
        rw [if_pos hid] at hrun
        have hrunning : n.statusOf id = some .running := by
          by_contra hne
          rw [if_neg hne] at hr
          omega
        rw [if_pos hrunning] at hr
        simp only [hid, hrunning, and_self, if_true]
        rw [if_neg (by simp)]
        omega
      · rw [if_neg hid] at hrun
        simp only [hid, false_and, if_false]
        rw [← hr]
        omega
    · rw [hstatus, hfin, ha.finished id]
      by_cases hid : id ∈ reported
      · have hheld := List.count_pos_iff.2 (hown id hid)
        have hr := ha.running id
        rw [if_pos hid] at hrun
        have hrunning : n.statusOf id = some .running := by
          by_contra hne
          rw [if_neg hne] at hr
          omega
        simp [hid, hrunning]
      · simp [hid]
  · -- a task that is not held is counted as finished, and its own status does not allow that
    intro hag id hid
    by_contra hno
    obtain ⟨hstatus, hrun, hfin⟩ := hc id
    rw [List.count_eq_zero.2 hno, if_pos hid] at hrun
    rw [if_pos hid, ha.finished id] at hfin
    have hr := ha.running id
    obtain ⟨hle, hdone⟩ := hag.finished id
    rw [hfin] at hle hdone
    by_cases hrunning : n.statusOf id = some .running
    · have h1 : n'.statusOf id = some .done := by
        rw [hstatus, if_pos ⟨hid, hrunning⟩]
      rw [if_pos hrunning] at hr
      have h2 := (hag.running id).2 (by omega)
      rw [h1] at h2
      cases h2
    · have hs := hdone (by omega)
      rw [hstatus, if_neg (fun hc => hrunning hc.2)] at hs
      rw [if_pos hs] at hle
      omega

/-- **One request.**  It keeps the records in agreement exactly if its sender holds what it
reports. -/
theorem handleRequest_agree_iff {n : MasterNode} (h : n.Inv) (ha : n.Agree) (clk : Clock)
    (req : Request) (reply : Response) :
    (n.ReportsOwn req → (n.handleRequest tf clk req reply).1.Agree) ∧
      ((n.handleRequest tf clk req reply).1.RecordsAgree → n.ReportsOwn req) := by
  rw [ReportsOwn, handleRequest, Request.reported]
  cases hget : req.getTask with
  | some getTask => exact ⟨fun _ => handleGetTask_agree h ha clk req getTask reply, by simp⟩
  | none =>
    cases hfin : req.finishCompute with
    | some data =>
      simp only [List.map_map]
      exact handleFinishCompute_agree_iff tf h ha clk req data reply rfl rfl
    | none =>
      refine ⟨fun _ => ⟨fun id => ?_, fun id => ?_⟩, by simp⟩
      · have hl := listed_putWorker WorkerStatus.runningTask n clk.worker req.workerId
          (touchWorker clk n req) rfl id
        exact (Nat.add_right_cancel hl).trans (ha.running id)
      · have hl := listed_putWorker WorkerStatus.finishedTask n clk.worker req.workerId
          (touchWorker clk n req) rfl id
        exact (Nat.add_right_cancel hl).trans (ha.finished id)

/-- The only thing a request may write to the state file is the state it leaves behind. -/
theorem handleRequest_writes (n : MasterNode) (clk : Clock) (req : Request) (reply : Response)
    {data : String} (hw : .writeFile data ∈ (n.handleRequest tf clk req reply).2.2) :
    data = tf.print (n.handleRequest tf clk req reply).1.masterState := by
  have hsave : ∀ (now : Int) (force : Bool) (n : MasterNode) {d : String},
      .writeFile d ∈ (saveState tf now force n).2 →
        d = tf.print (saveState tf now force n).1.masterState := by
    intro now force n d hd
    rw [saveState] at hd ⊢
    split at hd <;> simp_all [masterState]
  revert hw
  rw [handleRequest]
  split
  · simp [handleGetTask]
  · split
    · next req _ _ =>
      simp only [handleFinishCompute]
      split
      · rw [reportResult]
        split
        · intro hw
          exact hsave _ true _ (by simpa using hw)
        · intro hw
          exact hsave _ false _ (by simpa using hw)
      · simp
    · simp

/-! ## One restart -/

/-- A master that took nothing over has only PENDING tasks and no worker. -/
theorem start_agree_of_none {readState : Bool} {file : StateFile} (tasks : List Int)
    (h : restored tf readState file = none) : (start tf true tasks readState file).2.1.Agree := by
  have hs := start_started tf tasks readState file
  have hw := start_workerMap tf tasks readState file
  rw [h] at hw
  have hstatus : ∀ id, (start tf true tasks readState file).2.1.statusOf id =
      if id ∈ tasks then some .pending else none := by
    intro id
    rw [statusOf, hs.item, savedItem, h]
    split <;> rfl
  have hlisted : ∀ g id, (start tf true tasks readState file).2.1.listed g id = 0 := by
    intro g id
    rw [listed, workers, hw]
    rfl
  refine ⟨fun id => ?_, fun id => ?_⟩ <;> rw [hlisted, hstatus] <;> split <;> simp

/-- The workers of a master that starts on the state of `n` are those of `n`, without their running
tasks. -/
theorem loadWorkers_workers {n : MasterNode} (h : n.Inv) :
    (loadWorkers n.masterState.workerStatus ∅).toList.map Prod.snd =
      n.workers.map clearRunning := by
  have hsame : (loadWorkers n.masterState.workerStatus ∅).toList =
      (n.workerMap.map fun _ w => clearRunning w).toList := by
    refine TreeMap.Equiv.toList_eq (TreeMap.Equiv.of_forall_constGet?_eq fun k => ?_)
    rw [Master.loadWorkers_masterState h, TreeMap.getElem?_map]
  rw [hsame, TreeMap.toList_map, workers, List.map_map, List.map_map]
  rfl

/-- A master that starts on the state of `n` has DONE what `n` had DONE, as far as it still has the
task; the lists of finished tasks are those of `n`. -/
theorem start_counts {n : MasterNode} (h : n.Inv) {readState : Bool} {file : StateFile}
    (tasks : List Int) (hr : restored tf readState file = some n.masterState) (id : Int) :
    let n' := (start tf true tasks readState file).2.1
    (n'.statusOf id = if id ∈ tasks then
      if n.statusOf id = some .done then some .done else some .pending else none) ∧
    n'.listed WorkerStatus.runningTask id = 0 ∧
    n'.listed WorkerStatus.finishedTask id = n.listed WorkerStatus.finishedTask id := by
  intro n'
  have hs := start_started tf tasks readState file
  have hw : n'.workers = n.workers.map clearRunning := by
    rw [workers, show n'.workerMap = _ from start_workerMap tf tasks readState file, hr]
    exact loadWorkers_workers h
  refine ⟨?_, ?_, ?_⟩
  · rw [statusOf, show n'.taskMap[id]? = _ from hs.item id, savedItem, hr, Option.bind_some,
      doneItem, Master.cachedStatus_masterState h]
    split
    · cases hitem : n.taskMap[id]? with
      | none => simp [statusOf, hitem]
      | some item => by_cases hd : item.status = .done <;> simp [statusOf, hitem, Option.filter, hd]
    · rfl
  · rw [listed, hw, List.flatMap_map]
    exact List.count_eq_zero.2 (by simp [clearRunning])
  · rw [listed, hw, List.flatMap_map]
    rfl

/-- **One restart.**  It keeps the records in agreement exactly if it still has every task the
workers of the state file have finished. -/
theorem start_agree_iff {n : MasterNode} (h : n.Inv) (ha : n.Agree) {readState : Bool}
    {file : StateFile} (tasks : List Int) (hr : restored tf readState file = some n.masterState) :
    ((∀ w ∈ n.workers, ∀ id ∈ w.finishedTask, id ∈ tasks) →
      (start tf true tasks readState file).2.1.Agree) ∧
    ((start tf true tasks readState file).2.1.RecordsAgree →
      ∀ w ∈ n.workers, ∀ id ∈ w.finishedTask, id ∈ tasks) := by
  have hc := start_counts tf h tasks hr
  generalize (start tf true tasks readState file).2.1 = n' at hc
  have hmem : ∀ id, 0 < n.listed WorkerStatus.finishedTask id ↔
      ∃ w ∈ n.workers, id ∈ w.finishedTask := fun id => by
    rw [listed, List.count_pos_iff, List.mem_flatMap]
  constructor
  · intro hkeep
    refine ⟨fun id => ?_, fun id => ?_⟩ <;> obtain ⟨hstatus, hrun, hfin⟩ := hc id
    · rw [hrun, hstatus]
      split
      · split <;> simp
      · simp
    · rw [hfin, hstatus, ha.finished id]
      by_cases hd : n.statusOf id = some .done
      · obtain ⟨w, hw, hid⟩ := (hmem id).1 (by rw [ha.finished id, if_pos hd]; exact Nat.one_pos)
        simp [hd, hkeep w hw id hid]
      · by_cases hid : id ∈ tasks <;> simp [hd, hid]
  · intro hag w hw id hid
    obtain ⟨hstatus, -, hfin⟩ := hc id
    have hd := (hag.finished id).2 (by rw [hfin]; exact (hmem id).2 ⟨w, hw, hid⟩)
    by_contra hno
    rw [hstatus, if_neg hno] at hd
    cases hd

end MasterNode

/-! ## A master that is stopped and started again -/

/-- The incarnations of a master on one state file: the running one, and the message the file was
printed from, if it was ever written. -/
structure Incarnations where
  master : Master := {}
  saved : Option MasterState := none

namespace Incarnations

variable (tf : TextFormat)

inductive Event where
  /-- The process is stopped and a new one started; `tasks` is what its `Solver` generates. -/
  | restart (tasks : List Int) (readState : Bool)
  | request (d : Master.Dispatch)

/-- The first incarnation: there is no state file yet. -/
def first (tasks : List Int) (readState : Bool) : Incarnations :=
  { master := Master.init tf tasks readState .absent }

def step : Machine Incarnations Event
  | c, .restart tasks readState =>
    some { c with master := Master.init tf tasks readState c.master.file }
  | c, .request d =>
    let m := c.master.handleRequest tf d.clk d.responseTime d.req
    some
      { master := m
        saved := if m.file = c.master.file then c.saved else some m.node.masterState }

/-- Each start has pairwise distinct tasks, and the state file it reads parses back to the message
it was printed from. -/
def Admissible (c : Incarnations) : Event → Prop
  | .restart tasks readState =>
    tasks.Nodup ∧ (readState = true → ∀ st ∈ c.saved, tf.parse (tf.print st) = some st)
  | .request _ => True

/-- A worker reports only what it holds, and a restart has all tasks that the workers in the state
file it reads have finished. -/
def Consistent (c : Incarnations) : Event → Prop
  | .restart tasks readState =>
    readState = true → ∀ st ∈ c.saved, ∀ w ∈ st.workerStatus, ∀ id ∈ w.finishedTask, id ∈ tasks
  | .request d => c.master.node.ReportsOwn d.req

instance (c : Incarnations) : DecidablePred (Admissible tf c)
  | .restart tasks readState =>
    inferInstanceAs (Decidable (tasks.Nodup ∧ (readState = true → ∀ st ∈ c.saved, _)))
  | .request _ => isTrue trivial

instance (c : Incarnations) : DecidablePred (Consistent c)
  | .restart _ readState => inferInstanceAs (Decidable (readState = true → ∀ st ∈ c.saved, _))
  | .request d => inferInstanceAs (Decidable (c.master.node.ReportsOwn d.req))

/-- What the file holds: the text of a state in which the records agreed. -/
def FileAgrees (file : StateFile) (saved : Option MasterState) : Prop :=
  match saved with
  | none => file = .absent
  | some st => file = .text (tf.print st) ∧
    ∃ n : MasterNode, n.Inv ∧ n.Agree ∧ n.masterState = st

structure Inv (c : Incarnations) : Prop where
  node : c.master.node.Inv
  agree : c.master.node.Agree
  file : FileAgrees tf c.master.file c.saved

/-- The state file after effects that write nothing but `d`. -/
theorem writeEffects_cases {effects : List Effect} {d : String}
    (h : ∀ data, .writeFile data ∈ effects → data = d) (file : StateFile) :
    Master.writeEffects file effects = file ∨ Master.writeEffects file effects = .text d := by
  induction effects generalizing file with
  | nil => exact .inl rfl
  | cons e es ih =>
    have hes := fun data hm => h data (List.mem_cons_of_mem e hm)
    cases e with
    | writeFile data =>
      rw [h data List.mem_cons_self]
      exact .inr ((ih hes (.text d)).elim id id)
    | _ => exact ih hes file

theorem writeEffects_of_no_write {effects : List Effect} (h : ∀ data, .writeFile data ∉ effects)
    (file : StateFile) : Master.writeEffects file effects = file := by
  induction effects generalizing file with
  | nil => rfl
  | cons e es ih =>
    have hes := fun data hm => h data (List.mem_cons_of_mem e hm)
    cases e with
    | writeFile data => exact absurd List.mem_cons_self (h data)
    | _ => exact ih hes file

theorem init_node (tasks : List Int) (readState : Bool) (file : StateFile) :
    (Master.init tf tasks readState file).node =
      (MasterNode.start tf true tasks readState file).2.1 := rfl

theorem init_file (tasks : List Int) (readState : Bool) (file : StateFile) :
    (Master.init tf tasks readState file).file = file := by
  have hno : ∀ data, .writeFile data ∉ (MasterNode.start tf true tasks readState file).2.2 := by
    intro data
    rw [MasterNode.start_effects, endJob]
    cases MasterNode.restored tf readState file <;> split <;> simp
  exact writeEffects_of_no_write hno file

/-- What a start makes of the state file. -/
theorem init_agree {file : StateFile} {saved : Option MasterState} (hf : FileAgrees tf file saved)
    (tasks : List Int) {readState : Bool}
    (hparse : readState = true → ∀ st ∈ saved, tf.parse (tf.print st) = some st) :
    ((readState = true → ∀ st ∈ saved, ∀ w ∈ st.workerStatus, ∀ id ∈ w.finishedTask, id ∈ tasks) →
      (Master.init tf tasks readState file).node.Agree) ∧
    ((Master.init tf tasks readState file).node.RecordsAgree →
      readState = true → ∀ st ∈ saved, ∀ w ∈ st.workerStatus, ∀ id ∈ w.finishedTask,
        id ∈ tasks) := by
  rw [init_node]
  cases readState with
  | false =>
    have hr : MasterNode.restored tf false file = none := by cases file <;> rfl
    exact ⟨fun _ => MasterNode.start_agree_of_none tf tasks hr, by simp⟩
  | true =>
    cases saved with
    | none =>
      rw [show file = .absent from hf]
      exact ⟨fun _ => MasterNode.start_agree_of_none tf tasks rfl, by simp⟩
    | some st =>
      obtain ⟨hfile, n, hn, ha, rfl⟩ := hf
      have hr : MasterNode.restored tf true file = some n.masterState := by
        rw [hfile]
        exact hparse rfl _ rfl
      obtain ⟨h1, h2⟩ := MasterNode.start_agree_iff tf hn ha tasks hr
      refine ⟨fun h => h1 (h rfl _ rfl), fun h _ st hst => ?_⟩
      rw [← Option.some_inj.1 hst]
      exact h2 h

/-- **One step.**  In a state that agrees, a step keeps the agreement exactly if it is
consistent. -/
theorem step_agree {c c' : Incarnations} {e : Event} (h : Inv tf c) (hadm : Admissible tf c e)
    (hs : step tf c e = some c') :
    (Consistent c e → Inv tf c') ∧ (c'.master.node.RecordsAgree → Consistent c e) := by
  cases e with
  | restart tasks readState =>
    obtain ⟨hnd, hparse⟩ := hadm
    obtain rfl := Option.some_inj.1 hs
    obtain ⟨h1, h2⟩ := init_agree tf h.file tasks hparse
    refine ⟨fun hc => ⟨MasterNode.start_inv tf hnd readState _, h1 hc, ?_⟩, h2⟩
    rw [init_file]
    exact h.file
  | request d =>
    obtain rfl := Option.some_inj.1 hs
    obtain ⟨h1, h2⟩ := MasterNode.handleRequest_agree_iff tf h.node h.agree d.clk d.req
      { errorCode := -1, name := d.req.name, responseTimestamp := d.responseTime,
        requestTimestamp := d.req.requestTimestamp }
    obtain ⟨rep, effects, hd, -, -⟩ := Master.handled tf h.node d
    have hinv := hd.inv
    refine ⟨fun hc => ⟨hinv, h1 hc, ?_⟩, h2⟩
    dsimp only
    split
    · next hsame => rw [hsame]; exact h.file
    · next hnew =>
      refine ⟨?_, _, hinv, h1 hc, rfl⟩
      exact (writeEffects_cases (fun data hw => MasterNode.handleRequest_writes tf _ _ _ _ hw)
        c.master.file).resolve_left hnew

theorem inv_first {tasks : List Int} (hnd : tasks.Nodup) (readState : Bool) :
    Inv tf (first tf tasks readState) := by
  refine ⟨MasterNode.start_inv tf hnd readState .absent, ?_, init_file tf tasks readState .absent⟩
  have hr : MasterNode.restored tf readState .absent = none := by cases readState <;> rfl
  exact MasterNode.start_agree_of_none tf tasks hr

/-- **The two views agree.**  In every state of a run, over any number of incarnations, an id is
RUNNING exactly if it stands once on one `running_task` list, and stands on the `finished_task`
lists at most once and only if it is DONE — in exactly the runs in which every FinishCompute
reports only ids on the `running_task` list of its sender, and every restart that reads the state
file still has the tasks that the workers in it have finished. -/
theorem records_agree_iff {tasks : List Int} (hnd : tasks.Nodup) (readState : Bool)
    {es : List Event}
    (hadm : (step tf).Meets (Admissible tf) (first tf tasks readState) es) :
    (∀ pre c, pre <+: es → (step tf).run (first tf tasks readState) pre = some c →
      c.master.node.RecordsAgree) ↔
    (step tf).Meets Consistent (first tf tasks readState) es := by
  have hinit := inv_first tf hnd readState
  refine Machine.always_iff_of_meets (I := Inv tf) (fun c e c' hF hinv _ hC hs => ?_)
    (fun c e hF hinv _ => ?_) hadm hinit hinit.agree.recordsAgree
  · exact (step_agree tf hinv hF hs).1 hC
  · refine ⟨fun h => ?_, fun hC c' hs => ((step_agree tf hinv hF hs).1 hC).agree.recordsAgree⟩
    obtain ⟨c', hs⟩ : ∃ c', step tf c e = some c' := by cases e <;> exact ⟨_, rfl⟩
    exact (step_agree tf hinv hF hs).2 (h c' hs)

/-- The text of the state in which the one worker has finished task 1. -/
def finishedFormat : TextFormat where
  print st := if st.workerStatus.map WorkerStatus.finishedTask = [[1]] then "finished" else ""
  parse data := if data = "finished" then
      some
        { taskItem := [{ taskId := 1, status := .done, result := 5 }]
          workerStatus := [{ finishedTask := [1], requestCount := 2 }] }
    else none

/-- A worker asks for one task. -/
def ask : Event := .request { req := { getTask := some { maxTaskCount := 1 } } }

def tell (id : Int) : Event := .request (Master.report id)

theorem records_agree_restart :
    [(1 : Int)].Nodup ∧
    (step finishedFormat).Meets (Admissible finishedFormat)
      (first finishedFormat [1] false) [ask, tell 1, .restart [1, 2] true, ask] ∧
    (∀ pre c, pre <+: [ask, tell 1, .restart [1, 2] true, ask] →
      (step finishedFormat).run (first finishedFormat [1] false) pre = some c →
        c.master.node.RecordsAgree) := by
  have hadm : (step finishedFormat).Meets (Admissible finishedFormat)
      (first finishedFormat [1] false) [ask, tell 1, .restart [1, 2] true, ask] := by
    decide
  exact ⟨by decide, hadm, (records_agree_iff finishedFormat (by decide) false hadm).2 (by decide)⟩

/-- A master is stopped while a worker computes task 1.  The worker reports it to the next one,
where it is PENDING: it is listed as finished all the same. -/
theorem stale_report_finished :
    ¬ ∀ pre c, pre <+: [ask, .restart [1] true, tell 1] →
      (step finishedFormat).run (first finishedFormat [1] false) pre = some c →
        c.master.node.RecordsAgree := by
  intro h
  exact absurd (((h _ _ List.prefix_rfl rfl).finished 1).2 (by decide)) (by decide)

end Incarnations

end Dcfpe

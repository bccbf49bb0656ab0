import Dcfpe.Dpe.MasterNode
import Dcfpe.Lib.Filing
import Dcfpe.Lib.Ledger

/-!
# The master keeps a ledger

`Ledger` says what a work queue is for: an item is free, claimed, or settled with an outcome, and
only claims of free items and settlements of claimed ones are ever written.  Here the four
containers of `DPEMasterNode` are shown to be such a ledger:

* `MasterNode.ledger` reads the book off `task_map_` alone;
* `MasterNode.Inv` says that the pending queue and the running set are the free and the claimed
  items of that book, so that the three containers cannot drift apart;
* `handleRequest_spec` says that every request keeps it, writing to the book exactly the claims of
  the ids it hands out and the settlements it passes to `Solver::SetResult`.
-/

set_option autoImplicit false

namespace Dcfpe

open Std

/-- The ledger entry a record stands for. -/
def TaskItem.entry (item : TaskItem) : Ledger.Entry (Int × Int) :=
  match item.status with
  | .pending => .free
  | .running => .claimed
  | .done => .settled (item.result, item.timeUsage)

/-- The book kept in a task map. -/
def book (m : TreeMap Int TaskItem) : Ledger.Book Int (Int × Int) :=
  fun id => m[id]?.map TaskItem.entry

theorem book_insert (m : TreeMap Int TaskItem) (id : Int) (item : TaskItem) :
    book (m.insert id item) = Function.update (book m) id (some item.entry) := by
  funext i
  rw [book, TreeMap.getElem?_insert, Function.update_apply]
  by_cases h : i = id
  · simp [h]
  · rw [if_neg (by rw [Std.compare_eq_iff_eq]; exact Ne.symm h), if_neg h, book]

@[simp] theorem entry_eq_free {item : TaskItem} : item.entry = .free ↔ item.status = .pending := by
  cases h : item.status <;> simp [TaskItem.entry, h]

@[simp] theorem entry_eq_claimed {item : TaskItem} :
    item.entry = .claimed ↔ item.status = .running := by
  cases h : item.status <;> simp [TaskItem.entry, h]

@[simp] theorem entry_eq_settled {item : TaskItem} {v : Int × Int} :
    item.entry = .settled v ↔ item.status = .done ∧ (item.result, item.timeUsage) = v := by
  cases h : item.status <;> simp [TaskItem.entry, h]

theorem book_eq_some {m : TreeMap Int TaskItem} {id : Int} {e : Ledger.Entry (Int × Int)} :
    book m id = some e ↔ ∃ item, m[id]? = some item ∧ item.entry = e := by
  simp [book]

theorem book_isSome {m : TreeMap Int TaskItem} {id : Int} : (book m id).isSome ↔ id ∈ m := by
  rw [book, Option.isSome_map, TreeMap.isSome_getElem?_iff_mem]

/-! ## What a request passes to the Solver -/

/-- The id array of a call of `SetResult`; no other effect passes ids. -/
def resultIds (effects : List Effect) : List Int :=
  effects.flatMap fun | .setResult taskId _ _ _ => taskId | _ => []

/-- The ids passed to `SetResult`, each with the result and the time usage at its index. -/
def delivered (effects : List Effect) : List (Int × Int × Int) :=
  effects.flatMap fun
    | .setResult taskId result timeUsage _ => taskId.zip (result.zip timeUsage)
    | _ => []

/-- The three arrays of every call of `SetResult` have one length, the `size` it is passed. -/
def WellSized (effects : List Effect) : Prop :=
  ∀ taskId result timeUsage total, .setResult taskId result timeUsage total ∈ effects →
    result.length = taskId.length ∧ timeUsage.length = taskId.length

@[simp] theorem resultIds_append (es fs : List Effect) :
    resultIds (es ++ fs) = resultIds es ++ resultIds fs := List.flatMap_append

@[simp] theorem delivered_append (es fs : List Effect) :
    delivered (es ++ fs) = delivered es ++ delivered fs := List.flatMap_append

theorem wellSized_append {es fs : List Effect} (he : WellSized es) (hf : WellSized fs) :
    WellSized (es ++ fs) := by
  intro taskId result timeUsage total h
  rcases List.mem_append.1 h with h | h
  · exact he _ _ _ _ h
  · exact hf _ _ _ _ h

/-- With arrays of one length nothing is dropped by pairing them up. -/
theorem map_fst_delivered {effects : List Effect} (h : WellSized effects) :
    (delivered effects).map Prod.fst = resultIds effects := by
  induction effects with
  | nil => rfl
  | cons e es ih =>
    have hes : WellSized es := fun _ _ _ _ hm => h _ _ _ _ (List.mem_cons_of_mem _ hm)
    rw [← List.singleton_append, delivered_append, resultIds_append, List.map_append, ih hes]
    congr 1
    cases e with
    | setResult taskId result timeUsage total =>
      obtain ⟨hr, ht⟩ := h _ _ _ _ List.mem_cons_self
      simp [delivered, resultIds, List.map_fst_zip, hr, ht]
    | _ => rfl

/-- The ids a response hands out. -/
def Response.taskIds (rep : Response) : List Int :=
  match rep.getTask with
  | some task => task.taskId
  | none => []

/-- The request is a FinishCompute that reports at least one item. -/
def Request.reportsItems (req : Request) : Bool :=
  match req.getTask, req.finishCompute with
  | none, some data => !data.taskItem.isEmpty
  | _, _ => false

/-- Neither queue holds a task: the test on which both `Start` and `HandleRequest` end the job. -/
def MasterNode.idle (n : MasterNode) : Bool :=
  n.taskPendingQueue.isEmpty && n.taskRunningQueue.isEmpty

/-- The two calls that end the job, if it ends. -/
def endJob (ends : Bool) : List Effect := if ends then [.finish, .willExitDpe] else []

@[simp] theorem resultIds_endJob (b : Bool) : resultIds (endJob b) = [] := by cases b <;> rfl

@[simp] theorem delivered_endJob (b : Bool) : delivered (endJob b) = [] := by cases b <;> rfl

namespace MasterNode

variable (tf : TextFormat)

def ledger (n : MasterNode) : Ledger.Book Int (Int × Int) := book n.taskMap

/-- What the containers of the master say about each other. -/
structure Inv (n : MasterNode) : Prop where
  /-- No id is queued twice. -/
  pendingNodup : n.taskPendingQueue.Nodup
  /-- The pending queue is what is free. -/
  pending : ∀ id, id ∈ n.taskPendingQueue ↔ n.ledger id = some .free
  /-- The running set is what is claimed. -/
  running : ∀ id, id ∈ n.taskRunningQueue ↔ n.ledger id = some .claimed
  /-- Records are filed under their own ids. -/
  itemId : Filing.Filed TaskItem.taskId n.taskMap
  /-- Workers are filed under their own ids. -/
  workerId : Filing.Filed WorkerStatus.workerId n.workerMap

/-- The record filed under a running id exists, so `operator[]` does not make one. -/
theorem Inv.exists_item {n : MasterNode} (h : n.Inv) (id : Int) (hid : (n.ledger id).isSome) :
    ∃ item, n.taskMap[id]? = some item ∧ n.taskMap.getD id {} = item ∧ item.taskId = id := by
  rw [ledger, book, Option.isSome_map, Option.isSome_iff_exists] at hid
  obtain ⟨item, hitem⟩ := hid
  exact ⟨item, hitem, by rw [TreeMap.getD_eq_getD_getElem?, hitem, Option.getD_some],
    h.itemId id item hitem⟩

/-! ## GetTask -/

theorem book_setStatus_running (m : TreeMap Int TaskItem) (id : Int) :
    book (setStatus m id .running) = Function.update (book m) id (some .claimed) :=
  book_insert m id _

/-- One round of the `while` loop keeps the invariant. -/
theorem Inv.handOut {n : MasterNode} (h : n.Inv) {id : Int} {pending : List Int}
    (hp : n.taskPendingQueue = id :: pending) :
    Inv { n with
      taskPendingQueue := pending
      taskRunningQueue := n.taskRunningQueue.insert id
      taskMap := setStatus n.taskMap id .running } := by
  have hnd := h.pendingNodup
  rw [hp, List.nodup_cons] at hnd
  have hfree : n.ledger id = some .free := (h.pending id).1 (by simp [hp])
  refine ⟨hnd.2, fun i => ?_, fun i => ?_, h.itemId.insert ?_, h.workerId⟩
  · have hi := h.pending i
    rw [hp, List.mem_cons] at hi
    rw [ledger, book_setStatus_running, Function.update_apply]
    by_cases hid : i = id
    · simp [hid, hnd.1]
    · simpa [hid, ledger] using hi
  · rw [ledger, book_setStatus_running, Function.update_apply, TreeSet.mem_insert,
      Std.compare_eq_iff_eq, h.running i]
    by_cases hid : i = id
    · simp [hid]
    · simp [hid, Ne.symm hid, ledger]
  · obtain ⟨item, -, hget, hitem⟩ := h.exists_item id (by rw [hfree]; rfl)
    rw [hget]; exact hitem

/-- What the `while` loop of a GetTask request does: it takes a front part of the pending queue, as
long as it may and can, and claims it. -/
theorem getTaskLoop_spec (maxTaskCount : Int) (pending : List Int) :
    ∀ (n : MasterNode) (worker : WorkerStatus) (task : List Int) (added : Int),
      n.Inv → n.taskPendingQueue = pending → added ≤ maxTaskCount →
      ∃ taken n' worker',
        getTaskLoop maxTaskCount pending n worker task added = (n', worker', task ++ taken) ∧
        pending = taken ++ n'.taskPendingQueue ∧
        (n'.taskPendingQueue = [] ∨ added + taken.length = maxTaskCount) ∧
        added + taken.length ≤ maxTaskCount ∧
        Ledger.post.run n.ledger (taken.map .claim) = some n'.ledger ∧ n'.Inv ∧
        n'.workerMap = n.workerMap ∧ worker'.workerId = worker.workerId := by
  induction pending with
  | nil =>
    intro n worker task added hinv hp hle
    exact ⟨[], n, worker, by simp [getTaskLoop], by simp [hp], .inl hp, by simpa using hle,
      rfl, hinv, rfl, rfl⟩
  | cons id pending ih =>
    intro n worker task added hinv hp hle
    rw [getTaskLoop]
    split
    · next hlt =>
      obtain ⟨taken, n', worker', hrun, happ, hend, hlen, hpost, hinv', hw, hid⟩ :=
        ih _ { worker with runningTask := worker.runningTask ++ [id] } (task ++ [id])
          (added + 1) (hinv.handOut hp) rfl (by omega)
      refine ⟨id :: taken, n', worker', by rw [hrun, List.append_assoc]; rfl,
        by rw [List.cons_append, ← happ], ?_, ?_, ?_, hinv', hw, hid⟩
      · rcases hend with hnil | hmax
        · exact .inl hnil
        · exact .inr (by rw [List.length_cons]; push_cast; omega)
      · rw [List.length_cons]; push_cast; omega
      · rw [List.map_cons, Machine.run_cons]
        refine ⟨_, Ledger.post_claim ((hinv.pending id).1 (by simp [hp])), ?_⟩
        rw [ledger, ← book_setStatus_running]
        exact hpost
    · next hge =>
      exact ⟨[], n, worker, by simp, by simp [hp], .inr (by simp; omega), by simpa using hle,
        rfl, hinv, rfl, rfl⟩

/-! ## FinishCompute -/

theorem book_setDone (m : TreeMap Int TaskItem) (item : TaskItem) :
    book (setDone m item) =
      Function.update (book m) item.taskId (some (.settled (item.result, item.timeUsage))) :=
  book_insert m item.taskId _

/-- What one reported item does to the node: nothing, or it settles a claimed id. -/
theorem finishItem_spec {f : Finishing} (item : TaskItem) (h : f.node.Inv) :
    ∃ ps : List (Int × Int × Int),
      (finishItem f item).taskId = f.taskId ++ ps.map Prod.fst ∧
      (finishItem f item).result = f.result ++ ps.map (·.2.1) ∧
      (finishItem f item).timeUsage = f.timeUsage ++ ps.map (·.2.2) ∧
      Ledger.post.run f.node.ledger (ps.map fun p => .settle p.1 p.2) =
        some (finishItem f item).node.ledger ∧
      (finishItem f item).node.Inv ∧
      (finishItem f item).node.workerMap = f.node.workerMap := by
  by_cases hrun : item.taskId ∈ f.node.taskRunningQueue
  · have hclaimed := (h.running item.taskId).1 hrun
    obtain ⟨my, hmy, hget, hmyId⟩ := h.exists_item item.taskId (by rw [hclaimed]; rfl)
    refine ⟨[(item.taskId, item.result, item.timeUsage)], ?_⟩
    simp only [finishItem, if_pos hrun, List.map_cons, List.map_nil, true_and, and_true]
    refine ⟨?_, h.pendingNodup, fun i => ?_, fun i => ?_, h.itemId.insert ?_, h.workerId⟩
    · rw [Machine.run_cons]
      exact ⟨_, Ledger.post_settle _ hclaimed, by
        rw [Machine.run_nil, ledger, ledger, book_setDone]⟩
    · rw [h.pending i, ledger, ledger, book_setDone, Function.update_apply]
      by_cases hid : i = item.taskId
      · rw [ledger] at hclaimed; simp [hid, hclaimed]
      · simp [hid]
    · rw [TreeSet.mem_erase, h.running i, ledger, ledger, book_setDone, Function.update_apply]
      by_cases hid : i = item.taskId
      · simp [hid]
      · simp [hid, Ne.symm hid]
    · rw [hget]; exact hmyId
  · refine ⟨[], ?_⟩
    simp only [finishItem, if_neg hrun]
    simp [h]

/-- The loop over the items: the ids it collects for `SetResult` are those it settles. -/
theorem finishItems_spec (items : List TaskItem) : ∀ f : Finishing, f.node.Inv →
    ∃ ps : List (Int × Int × Int),
      (items.foldl finishItem f).taskId = f.taskId ++ ps.map Prod.fst ∧
      (items.foldl finishItem f).result = f.result ++ ps.map (·.2.1) ∧
      (items.foldl finishItem f).timeUsage = f.timeUsage ++ ps.map (·.2.2) ∧
      Ledger.post.run f.node.ledger (ps.map fun p => .settle p.1 p.2) =
        some (items.foldl finishItem f).node.ledger ∧
      (items.foldl finishItem f).node.Inv ∧
      (items.foldl finishItem f).node.workerMap = f.node.workerMap := by
  induction items with
  | nil => exact fun _ h => ⟨[], by simp, by simp, by simp, rfl, h, rfl⟩
  | cons item items ih =>
    intro f h
    obtain ⟨ps, h1, h2, h3, hpost, hinv, hw⟩ := finishItem_spec item h
    obtain ⟨qs, k1, k2, k3, hpost', hinv', hw'⟩ := ih _ hinv
    refine ⟨ps ++ qs, ?_, ?_, ?_, ?_, hinv', hw'.trans hw⟩
    · rw [List.foldl_cons, k1, h1, List.map_append, List.append_assoc]
    · rw [List.foldl_cons, k2, h2, List.map_append, List.append_assoc]
    · rw [List.foldl_cons, k3, h3, List.map_append, List.append_assoc]
    · rw [List.map_append, Machine.run_append]
      exact ⟨_, hpost, hpost'⟩

/-! ## One request -/

theorem Inv.putWorker {n : MasterNode} (h : n.Inv) {worker : WorkerStatus} {workerId : String}
    (hw : worker.workerId = workerId) : (n.putWorker workerId worker).Inv :=
  ⟨h.pendingNodup, h.pending, h.running, h.itemId, h.workerId.insert hw⟩

theorem Inv.touchWorker_workerId {n : MasterNode} (h : n.Inv) (clk : Clock) (req : Request) :
    (touchWorker clk n req).workerId = req.workerId := by
  rw [touchWorker, getWorker]
  split
  · next w hw => exact h.workerId _ w hw
  · rfl

/-- `SaveState` touches nothing but the time of the last save. -/
theorem saveState_spec (now : Int) (forceSave : Bool) (n : MasterNode) :
    ∃ t, (saveState tf now forceSave n).1 = { n with lastSaveTime := t } ∧
      ∀ e ∈ (saveState tf now forceSave n).2, ∃ data, e = .writeFile data := by
  rw [saveState]
  split
  · exact ⟨now, rfl, by simp⟩
  · exact ⟨n.lastSaveTime, rfl, by simp⟩

/-- What follows the loop over the items: the results are passed on, some state may be saved, and
the job ends if nothing is left. -/
theorem reportResult_spec (clk : Clock) (f : Finishing) (n : MasterNode) (total : Int) :
    ∃ t saves, (reportResult tf clk f n total).1 = { n with lastSaveTime := t } ∧
      (reportResult tf clk f n total).2 =
        .setResult f.taskId f.result f.timeUsage total :: saves ++ endJob n.idle ∧
      ∀ e ∈ saves, ∃ data, e = .writeFile data := by
  have hidle : (n.taskPendingQueue.isEmpty && n.taskRunningQueue.isEmpty) = n.idle := rfl
  rw [reportResult, hidle]
  split
  · next h =>
    obtain ⟨t, ht, hs⟩ := saveState_spec tf clk.save true n
    exact ⟨t, _, ht, by rw [h]; rfl, hs⟩
  · next h =>
    obtain ⟨t, ht, hs⟩ := saveState_spec tf clk.save false n
    exact ⟨t, _, ht, by simp [endJob, h], hs⟩

/-- The node after a FinishCompute: the loop over its items, then the record of its sender, and
perhaps a later time of the last save. -/
theorem handleFinishCompute_node (clk : Clock) (n : MasterNode) (worker : WorkerStatus)
    (workerId : String) (data : FinishComputeRequest) (reply : Response) {f : Finishing}
    (hf : data.taskItem.foldl finishItem { node := n } = f) :
    ∃ t, (n.handleFinishCompute tf clk worker workerId data reply).1 =
      { f.node.putWorker workerId (finishWorker worker f.removedTaskId) with
        lastSaveTime := t } := by
  simp only [handleFinishCompute, hf]
  split
  · obtain ⟨t, -, hn, -⟩ := reportResult_spec tf clk f
      (f.node.putWorker workerId (finishWorker worker f.removedTaskId)) data.totalTimeUsage
    exact ⟨t, hn⟩
  · exact ⟨_, rfl⟩

theorem delivered_saves {saves : List Effect} (h : ∀ e ∈ saves, ∃ data, e = .writeFile data) :
    delivered saves = [] ∧ .finish ∉ saves := by
  refine ⟨?_, fun hf => by obtain ⟨d, hd⟩ := h _ hf; cases hd⟩
  rw [delivered, List.flatMap_eq_nil_iff]
  intro e he
  obtain ⟨d, rfl⟩ := h e he; rfl

/-- What one request does to the ledger, and what the outside sees of it.  The state between two
requests is `n`, the one after it `n'`. -/
structure Handled (n : MasterNode) (req : Request) (n' : MasterNode) (rep : Response)
    (effects : List Effect) : Prop where
  inv : n'.Inv
  /-- What is written: claims of the ids handed out, settlements of the ids delivered. -/
  acts : ∃ acts, Ledger.post.run n.ledger acts = some n'.ledger ∧
    Ledger.claims acts = rep.taskIds ∧ Ledger.settlements acts = delivered effects
  wellSized : WellSized effects
  /-- The job ends with this request if it reports something and leaves nothing to do, after
  everything else the request does. -/
  ending : ∃ body, effects = body ++ endJob (req.reportsItems && n'.idle) ∧ .finish ∉ body
  /-- A request that reports nothing has no effect outside the node. -/
  quiet : req.reportsItems = false → effects = []

theorem handleGetTask_spec {n : MasterNode} (h : n.Inv) {worker : WorkerStatus}
    {req : Request} (hw : worker.workerId = req.workerId) {getTask : GetTaskRequest}
    (hreq : req.getTask = some getTask) (reply : Response) :
    Handled n req (n.handleGetTask worker req.workerId getTask reply).1
      (n.handleGetTask worker req.workerId getTask reply).2.1
      (n.handleGetTask worker req.workerId getTask reply).2.2 := by
  obtain ⟨taken, n', worker', hrun, -, -, -, hpost, hinv, -, hid⟩ :=
    getTaskLoop_spec (max getTask.maxTaskCount 1) _ n worker [] 0 h rfl (by omega)
  simp only [handleGetTask, hrun, List.nil_append]
  refine ⟨hinv.putWorker (hid.trans hw), ⟨taken.map .claim, hpost, ?_, ?_⟩, ?_,
    ⟨[], ?_, by simp⟩, fun _ => rfl⟩
  · rw [Ledger.claims_map_claim]; rfl
  · rw [Ledger.settlements_map_claim]; rfl
  · intro _ _ _ _ hmem; cases hmem
  · simp [Request.reportsItems, hreq, endJob]

theorem handleFinishCompute_spec {n : MasterNode} (h : n.Inv) {worker : WorkerStatus}
    {req : Request} (hw : worker.workerId = req.workerId) {data : FinishComputeRequest}
    (hget : req.getTask = none) (hreq : req.finishCompute = some data) (clk : Clock)
    {reply : Response} (hreply : reply.getTask = none) :
    Handled n req (n.handleFinishCompute tf clk worker req.workerId data reply).1
      (n.handleFinishCompute tf clk worker req.workerId data reply).2.1
      (n.handleFinishCompute tf clk worker req.workerId data reply).2.2 := by
  obtain ⟨ps, h1, h2, h3, hpost, hinv, -⟩ := finishItems_spec data.taskItem { node := n } h
  simp only [List.nil_append] at h1 h2 h3
  simp only [handleFinishCompute]
  generalize hf : data.taskItem.foldl finishItem { node := n } = f at h1 h2 h3 hpost hinv
  have hput : (f.node.putWorker req.workerId (finishWorker worker f.removedTaskId)).Inv :=
    hinv.putWorker hw
  by_cases hitems : data.taskItem = []
  · have hps : ps = [] := by
      rw [hitems, List.foldl_nil] at hf
      simpa [← hf] using h1
    rw [if_neg (by simp [hitems])]
    refine ⟨hput, ⟨[], by rw [hps] at hpost; exact hpost, ?_, rfl⟩, ?_, ⟨[], ?_, by simp⟩,
      fun _ => rfl⟩
    · simp [Response.taskIds, hreply, Ledger.claims]
    · intro _ _ _ _ hmem; cases hmem
    · simp [Request.reportsItems, hget, hreq, hitems, endJob]
  · rw [if_pos (List.length_pos_iff.2 hitems)]
    obtain ⟨t, saves, hn, he, hs⟩ := reportResult_spec tf clk f
      (f.node.putWorker req.workerId (finishWorker worker f.removedTaskId)) data.totalTimeUsage
    obtain ⟨hsd, hsf⟩ := delivered_saves hs
    have hids : delivered [.setResult f.taskId f.result f.timeUsage data.totalTimeUsage] = ps := by
      rw [h1, h2, h3]
      simp [delivered, List.zip_map', List.map_id']
    have hrep : req.reportsItems = true := by simpa [Request.reportsItems, hget, hreq] using hitems
    rw [hn, he]
    refine ⟨⟨hput.pendingNodup, hput.pending, hput.running, hput.itemId, hput.workerId⟩,
      ⟨ps.map fun p => .settle p.1 p.2, hpost, ?_, ?_⟩, ?_,
      ⟨.setResult f.taskId f.result f.timeUsage data.totalTimeUsage :: saves, ?_, ?_⟩, ?_⟩
    · simp [Response.taskIds, hreply]
    · rw [Ledger.settlements_map_settle, ← List.singleton_append, delivered_append,
        delivered_append, hids, hsd, delivered_endJob, List.append_nil, List.append_nil]
    · intro taskId result timeUsage total hmem
      rw [List.mem_append, List.mem_cons] at hmem
      rcases hmem with (hmem | hmem) | hmem
      · cases hmem; simp [h1, h2, h3]
      · obtain ⟨d, hd⟩ := hs _ hmem; cases hd
      · rw [endJob] at hmem; split at hmem <;> simp at hmem
    · rw [hrep, Bool.true_and]; rfl
    · simpa using hsf
    · simp [hrep]

/-- **One request keeps the ledger**, and what it writes there is what the worker and the `Solver`
are told. -/
theorem handleRequest_spec {n : MasterNode} (h : n.Inv) (clk : Clock) (req : Request)
    {reply : Response} (hreply : reply.getTask = none) :
    Handled n req (n.handleRequest tf clk req reply).1 (n.handleRequest tf clk req reply).2.1
      (n.handleRequest tf clk req reply).2.2 := by
  have hw := h.touchWorker_workerId clk req
  rw [handleRequest]
  split
  · next getTask hget => exact handleGetTask_spec h hw hget reply
  · next hget =>
    split
    · next data hreq => exact handleFinishCompute_spec tf h hw hget hreq clk hreply
    · next hreq =>
      refine ⟨h.putWorker hw, ⟨[], rfl, ?_, rfl⟩, ?_, ⟨[], ?_, by simp⟩, fun _ => rfl⟩
      · simp [Response.taskIds, hreply, Ledger.claims]
      · intro _ _ _ _ hmem; cases hmem
      · simp [Request.reportsItems, hget, hreq, endJob]

end MasterNode

end Dcfpe

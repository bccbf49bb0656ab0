import Dcfpe.Dpe.MasterStart

/-!
# One request and the records

`MasterLedger` relates a request to everything the master has done before.  What the other side of
the wire needs is less, and it holds in any state, also one started on a list with repeated ids:
`handleRequest_recorded` says where a record can come from.  A record that changes was handed out
with this reply, or it is DONE with the result this request reported for its id.
-/

set_option autoImplicit false

namespace Dcfpe

open Std

/-- The results a FinishCompute request reports: id, result and time usage. -/
def Request.reported (req : Request) : List (Int × Int × Int) :=
  match req.getTask, req.finishCompute with
  | none, some data => data.taskItem.map fun item => (item.taskId, item.result, item.timeUsage)
  | _, _ => []

namespace MasterNode

variable (tf : TextFormat)

/-- `task_map_` has the task as RUNNING. -/
def Running (n : MasterNode) (id : Int) : Prop :=
  ∃ item, n.taskMap[id]? = some item ∧ item.status = .running

/-- A RUNNING record is in the running set. -/
def Synced (n : MasterNode) : Prop :=
  ∀ id item, n.taskMap[id]? = some item → item.status = .running → id ∈ n.taskRunningQueue

/-- Where the records are after the ids `taken` have been handed out and `reported` has come in. -/
structure Recorded (n : MasterNode) (taken : List Int) (reported : List (Int × Int × Int))
    (n' : MasterNode) : Prop where
  pending : n.taskPendingQueue = taken ++ n'.taskPendingQueue
  record : ∀ id item, n'.taskMap[id]? = some item → n.taskMap[id]? = some item ∨
    (item.status = .running ∧ id ∈ taken) ∨
    (item.status = .done ∧ (id, item.result, item.timeUsage) ∈ reported)
  synced : n.Synced → n'.Synced
  /-- What is still RUNNING has not been reported. -/
  running : n.Synced → ∀ id, n'.Running id →
    id ∈ taken ∨ id ∉ reported.map Prod.fst ∧ n.Running id
  /-- What is handed out is RUNNING, and stays so until it is reported. -/
  handed : ∀ id, id ∈ taken ∨ id ∉ reported.map Prod.fst ∧ n.Running id → n'.Running id

theorem Recorded.refl (n : MasterNode) : Recorded n [] [] n :=
  ⟨rfl, fun _ _ h => .inl h, id, fun _ _ h => .inr ⟨by simp, h⟩,
    fun _ h => (h.resolve_left (by simp)).2⟩

/-- Nothing else of the node matters. -/
theorem Recorded.congr {n n' n'' : MasterNode} {taken : List Int}
    {reported : List (Int × Int × Int)} (h : Recorded n taken reported n')
    (hp : n''.taskPendingQueue = n'.taskPendingQueue) (hm : n''.taskMap = n'.taskMap)
    (hr : n''.taskRunningQueue = n'.taskRunningQueue) : Recorded n taken reported n'' := by
  refine ⟨by rw [hp]; exact h.pending, by rw [hm]; exact h.record, fun hs => ?_,
    fun hs => by unfold Running; rw [hm]; exact h.running hs,
    by unfold Running; rw [hm]; exact h.handed⟩
  intro id item
  rw [hm, hr]
  exact h.synced hs id item

theorem getElem?_insert_self_or {m : TreeMap Int TaskItem} {id i : Int} {item new : TaskItem}
    (h : (m.insert i new)[id]? = some item) :
    (id = i ∧ item = new) ∨ (id ≠ i ∧ m[id]? = some item) := by
  rw [TreeMap.getElem?_insert] at h
  by_cases hi : id = i
  · rw [if_pos (by rw [Std.compare_eq_iff_eq]; exact hi.symm)] at h
    exact .inl ⟨hi, (Option.some_inj.1 h).symm⟩
  · rw [if_neg (by rw [Std.compare_eq_iff_eq]; exact Ne.symm hi)] at h
    exact .inr ⟨hi, h⟩

/-! ## GetTask -/

/-- One round of the GetTask loop. -/
theorem handOut_recorded {n : MasterNode} {id : Int} {pending : List Int}
    (hp : n.taskPendingQueue = id :: pending) :
    Recorded n [id] []
      { n with
        taskPendingQueue := pending
        taskRunningQueue := n.taskRunningQueue.insert id
        taskMap := setStatus n.taskMap id .running } := by
  have hold : ∀ i item, (setStatus n.taskMap id .running)[i]? = some item →
      (i = id ∧ item.status = .running) ∨ (i ≠ id ∧ n.taskMap[i]? = some item) := by
    intro i item hi
    rcases getElem?_insert_self_or hi with ⟨rfl, rfl⟩ | hi
    · exact .inl ⟨rfl, rfl⟩
    · exact .inr hi
  refine ⟨by rw [hp]; rfl, fun i item hi => ?_, fun hs i item hi hr => ?_,
    fun hs i ⟨item, hi, hr⟩ => ?_, fun i hi => ?_⟩
  · rcases hold i item hi with ⟨rfl, hr⟩ | ⟨-, hi⟩
    · exact .inr (.inl ⟨hr, List.mem_cons_self⟩)
    · exact .inl hi
  · rw [TreeSet.mem_insert]
    rcases hold i item hi with ⟨rfl, -⟩ | ⟨-, hi⟩
    · exact .inl (by simp)
    · exact .inr (hs i item hi hr)
  · rcases hold i item hi with ⟨rfl, -⟩ | ⟨-, hi⟩
    · exact .inl List.mem_cons_self
    · exact .inr ⟨by simp, item, hi, hr⟩
  · by_cases hid : i = id
    · exact ⟨{ n.taskMap.getD id {} with status := .running }, by simp [setStatus, hid], rfl⟩
    · obtain ⟨-, item, hi, hr⟩ := hi.resolve_left (by simpa using hid)
      refine ⟨item, ?_, hr⟩
      rw [setStatus, TreeMap.getElem?_insert,
        if_neg (by rw [Std.compare_eq_iff_eq]; exact Ne.symm hid)]
      exact hi

theorem Recorded.trans_taken {n n' n'' : MasterNode} {taken taken' : List Int}
    (h : Recorded n taken [] n') (h' : Recorded n' taken' [] n'') :
    Recorded n (taken ++ taken') [] n'' := by
  refine ⟨by rw [h.pending, h'.pending, List.append_assoc], fun i item hi => ?_,
    fun hs => h'.synced (h.synced hs), fun hs i hi => ?_, fun i hi => h'.handed i ?_⟩
  · rcases h'.record i item hi with hi | ⟨hr, hm⟩ | ⟨-, hm⟩
    · exact (h.record i item hi).imp_right (.imp_left fun ⟨hr, hm⟩ =>
        ⟨hr, List.mem_append_left _ hm⟩)
    · exact .inr (.inl ⟨hr, List.mem_append_right _ hm⟩)
    · simp at hm
  · rcases h'.running (h.synced hs) i hi with hm | ⟨-, hi⟩
    · exact .inl (List.mem_append_right _ hm)
    · exact (h.running hs i hi).imp_left (List.mem_append_left _)
  · rcases hi with hi | ⟨hm, hi⟩
    · exact (List.mem_append.1 hi).symm.imp_right fun hi => ⟨by simp, h.handed i (.inl hi)⟩
    · exact .inr ⟨by simp, h.handed i (.inr ⟨hm, hi⟩)⟩

theorem getTaskLoop_recorded (max : Int) (pending : List Int) :
    ∀ (n : MasterNode) (worker : WorkerStatus) (task : List Int) (added : Int),
    n.taskPendingQueue = pending →
    ∃ taken, (getTaskLoop max pending n worker task added).2.2 = task ++ taken ∧
      Recorded n taken [] (getTaskLoop max pending n worker task added).1 ∧
      (added < max → pending ≠ [] → taken ≠ []) := by
  induction pending with
  | nil => exact fun n _ task _ _ => ⟨[], by simp [getTaskLoop], Recorded.refl n, by simp⟩
  | cons id pending ih =>
    intro n worker task added hp
    rw [getTaskLoop]
    split
    · obtain ⟨taken, htask, h, -⟩ := ih
        { n with
          taskPendingQueue := pending
          taskRunningQueue := n.taskRunningQueue.insert id
          taskMap := setStatus n.taskMap id .running }
        { worker with runningTask := worker.runningTask ++ [id] } (task ++ [id]) (added + 1) rfl
      refine ⟨id :: taken, by rw [htask, List.append_assoc]; rfl, ?_, by simp⟩
      exact (handOut_recorded hp).trans_taken h
    · next hge => exact ⟨[], by simp, Recorded.refl n, fun hlt => absurd hlt hge⟩

/-! ## FinishCompute -/

theorem finishItem_recorded (f : Finishing) (item : TaskItem) :
    Recorded f.node [] [(item.taskId, item.result, item.timeUsage)] (finishItem f item).node := by
  by_cases hrun : item.taskId ∈ f.node.taskRunningQueue
  · simp only [finishItem, if_pos hrun]
    have hnew : ∀ i my, (setDone f.node.taskMap item)[i]? = some my →
        (i = item.taskId ∧ my.status = .done ∧ my.result = item.result ∧
          my.timeUsage = item.timeUsage) ∨
        (i ≠ item.taskId ∧ f.node.taskMap[i]? = some my) := by
      intro i my hi
      rcases getElem?_insert_self_or hi with ⟨rfl, rfl⟩ | hi
      · exact .inl ⟨rfl, rfl, rfl, rfl⟩
      · exact .inr hi
    refine ⟨rfl, fun i my hi => ?_, fun hs i my hi hr => ?_, fun hs i hi => ?_, fun i hi => ?_⟩
    · rcases hnew i my hi with ⟨rfl, hd, hres, htime⟩ | ⟨-, hi⟩
      · exact .inr (.inr ⟨hd, by simp [hres, htime]⟩)
      · exact .inl hi
    · rcases hnew i my hi with ⟨rfl, hd, -, -⟩ | ⟨hne, hi⟩
      · simp [hr] at hd
      · rw [TreeSet.mem_erase]
        exact ⟨by simpa using Ne.symm hne, hs i my hi hr⟩
    · obtain ⟨my, hi, hr⟩ := hi
      rcases hnew i my hi with ⟨rfl, hd, -, -⟩ | ⟨hne, hi⟩
      · simp [hr] at hd
      · exact .inr ⟨by simpa using hne, my, hi, hr⟩
    · obtain ⟨hne, my, hi, hr⟩ := hi.resolve_left (by simp)
      refine ⟨my, ?_, hr⟩
      simp only [List.map_cons, List.map_nil, List.mem_singleton] at hne
      rw [setDone, TreeMap.getElem?_insert,
        if_neg (by rw [Std.compare_eq_iff_eq]; exact Ne.symm hne)]
      exact hi
  · simp only [finishItem, if_neg hrun]
    refine ⟨rfl, fun _ _ hi => .inl hi, id, fun hs i hi => .inr ⟨?_, hi⟩,
      fun i hi => (hi.resolve_left (by simp)).2⟩
    obtain ⟨my, hi, hr⟩ := hi
    have hmem := hs i my hi hr
    simp only [List.map_cons, List.map_nil, List.mem_singleton]
    rintro rfl
    exact hrun hmem

theorem Recorded.trans {n n' n'' : MasterNode} {rs ss : List (Int × Int × Int)}
    (h : Recorded n [] rs n') (h' : Recorded n' [] ss n'') : Recorded n [] (rs ++ ss) n'' := by
  refine ⟨h.pending.trans h'.pending, fun i item hi => ?_, fun hs => h'.synced (h.synced hs),
    fun hs i hi => ?_, fun i hi => ?_⟩
  · rcases h'.record i item hi with hi | ⟨-, hm⟩ | ⟨hd, hm⟩
    · rcases h.record i item hi with hi | ⟨-, hm⟩ | ⟨hd, hm⟩
      · exact .inl hi
      · simp at hm
      · exact .inr (.inr ⟨hd, List.mem_append_left _ hm⟩)
    · simp at hm
    · exact .inr (.inr ⟨hd, List.mem_append_right _ hm⟩)
  · rcases h'.running (h.synced hs) i hi with hm | ⟨hm', hi'⟩
    · simp at hm
    · rcases h.running hs i hi' with hm | ⟨hm, hold⟩
      · simp at hm
      · exact .inr ⟨by rw [List.map_append, List.mem_append, not_or]; exact ⟨hm, hm'⟩, hold⟩
  · obtain ⟨hne, hi⟩ := hi.resolve_left (by simp)
    rw [List.map_append, List.mem_append, not_or] at hne
    exact h'.handed i (.inr ⟨hne.2, h.handed i (.inr ⟨hne.1, hi⟩)⟩)

theorem finishItems_recorded (items : List TaskItem) : ∀ f : Finishing,
    Recorded f.node [] (items.map fun item => (item.taskId, item.result, item.timeUsage))
      (items.foldl finishItem f).node := by
  induction items with
  | nil => exact fun f => Recorded.refl f.node
  | cons item items ih => exact fun f => (finishItem_recorded f item).trans (ih _)

/-! ## One request -/

/-- **Where a record comes from.**  Every request, in every state. -/
theorem handleRequest_recorded (n : MasterNode) (clk : Clock) (req : Request) {reply : Response}
    (hreply : reply.getTask = none) :
    Recorded n (n.handleRequest tf clk req reply).2.1.taskIds req.reported
      (n.handleRequest tf clk req reply).1 := by
  rw [handleRequest]
  split
  · next getTask hget =>
    obtain ⟨taken, htask, h, -⟩ := getTaskLoop_recorded (Max.max getTask.maxTaskCount 1)
      n.taskPendingQueue n (touchWorker clk n req) [] 0 rfl
    have hrep : req.reported = [] := by simp [Request.reported, hget]
    rw [hrep, List.nil_append] at *
    simp only [handleGetTask, Response.taskIds]
    rw [htask]
    exact h.congr rfl rfl rfl
  · next hget =>
    split
    · next data hreq =>
      have hrep : req.reported =
          data.taskItem.map fun item => (item.taskId, item.result, item.timeUsage) := by
        simp [Request.reported, hget, hreq]
      have h := finishItems_recorded data.taskItem { node := n }
      have hids : (n.handleFinishCompute tf clk (touchWorker clk n req) req.workerId data
          reply).2.1.taskIds = [] := by
        simp [handleFinishCompute, Response.taskIds, hreply]
      obtain ⟨t, hn⟩ := handleFinishCompute_node tf clk n (touchWorker clk n req) req.workerId data
        reply rfl
      rw [hrep, hids, hn]
      exact h.congr rfl rfl rfl
    · next hreq =>
      have hrep : req.reported = [] := by simp [Request.reported, hget, hreq]
      have hids : reply.taskIds = [] := by simp [Response.taskIds, hreply]
      rw [hrep, hids]
      exact (Recorded.refl n).congr rfl rfl rfl

/-- Only a GetTask hands out tasks. -/
theorem handleRequest_taskIds (n : MasterNode) (clk : Clock) {req : Request} {reply : Response}
    (hget : req.getTask = none) (hreply : reply.getTask = none) :
    (n.handleRequest tf clk req reply).2.1.taskIds = [] := by
  rw [handleRequest, hget]
  rcases hreq : req.finishCompute with _ | data <;>
    simp [handleFinishCompute, Response.taskIds, hreply]

/-- A GetTask that finds tasks pending is given at least one, whatever number it asks for. -/
theorem handleRequest_taskIds_ne_nil (n : MasterNode) (clk : Clock) {req : Request}
    (reply : Response) (hget : req.getTask.isSome) (hp : n.taskPendingQueue ≠ []) :
    (n.handleRequest tf clk req reply).2.1.taskIds ≠ [] := by
  obtain ⟨getTask, hget⟩ := Option.isSome_iff_exists.1 hget
  obtain ⟨taken, htask, -, hne⟩ := getTaskLoop_recorded (Max.max getTask.maxTaskCount 1)
    n.taskPendingQueue n (touchWorker clk n req) [] 0 rfl
  rw [handleRequest, hget]
  simp only [handleGetTask, Response.taskIds]
  rw [htask]
  exact hne (by omega) hp

theorem start_synced (tasks : List Int) (readState : Bool) (file : StateFile) :
    (start tf true tasks readState file).2.1.Synced := by
  intro id item hi hr
  rw [(start_started tf tasks readState file).item] at hi
  split at hi
  · rw [← Option.some_inj.1 hi] at hr
    cases h : savedItem tf readState file id with
    | none => simp [h] at hr
    | some saved => simp [h, (savedItem_spec tf h).1] at hr
  · cases hi

end MasterNode

end Dcfpe

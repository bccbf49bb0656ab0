import Dcfpe.Dpe.MasterLedger

/-!
# What a start makes of the state file

`Start` files every generated task as PENDING and, if it may, hands the state file to `LoadState`,
which takes over the DONE items of the generated ids and queues the others.  The state file is
input like any other — absent, unreadable, or holding items that are repeated, unknown or not DONE —
so everything here is for an arbitrary one:

* `start_started` says what the task containers hold afterwards, in terms of the items taken over
  (`savedItem`), and `start_workerMap` and `start_effects` what becomes of the worker records and
  what is passed to the `Solver`;
* `start_inv` concludes that the master's ledger is set up.
-/

set_option autoImplicit false

namespace Dcfpe

open Std

namespace MasterNode

variable (tf : TextFormat)

/-! ## Start -/

theorem enqueueTasks_spec (tasks : List Int) : ∀ n : MasterNode,
    (tasks.foldl enqueueTask n).taskPendingQueue = n.taskPendingQueue ++ tasks ∧
    (∀ id : Int, (tasks.foldl enqueueTask n).taskMap[id]? =
      if id ∈ tasks then some { taskId := id } else n.taskMap[id]?) ∧
    (tasks.foldl enqueueTask n).taskQueue = n.taskQueue ∧
    (tasks.foldl enqueueTask n).taskRunningQueue = n.taskRunningQueue ∧
    (tasks.foldl enqueueTask n).workerMap = n.workerMap ∧
    (tasks.foldl enqueueTask n).lastSaveTime = n.lastSaveTime := by
  induction tasks with
  | nil => simp
  | cons t tasks ih =>
    intro n
    obtain ⟨hp, hm, hq, hr, hw, hl⟩ := ih (n.enqueueTask t)
    refine ⟨?_, fun id => ?_, hq, hr, hw, hl⟩
    · rw [List.foldl_cons, hp, enqueueTask, List.append_assoc]; rfl
    · rw [List.foldl_cons, hm, enqueueTask, TreeMap.getElem?_insert]
      by_cases h1 : id ∈ tasks
      · simp [h1]
      · by_cases h2 : t = id
        · simp [h2]
        · simp [h1, h2, Ne.symm h2]

/-- The message `LoadState` gets out of the state file, when it gets one. -/
def restored (readState : Bool) (file : StateFile) : Option MasterState :=
  match readState, file with
  | true, .text data => tf.parse data
  | _, _ => none

/-- The item of an id that `LoadState` takes over: the cached one, if it is DONE. -/
def doneItem (cached : TreeMap Int TaskItem) (id : Int) : Option TaskItem :=
  cached[id]?.filter fun item => item.status = .done

/-- The item that a start takes over from the state file for an id, if any. -/
def savedItem (readState : Bool) (file : StateFile) (id : Int) : Option TaskItem :=
  (restored tf readState file).bind fun st => doneItem (cachedStatus st.taskItem) id

/-- `cached_status_` is the items of the file, filed. -/
theorem cachedStatus_filed (items : List TaskItem) :
    Filing.Filed TaskItem.taskId (cachedStatus items) := Filing.filed_empty.fileAll items

theorem doneItem_eq_some {cached : TreeMap Int TaskItem} {id : Int} {item : TaskItem} :
    doneItem cached id = some item ↔ cached[id]? = some item ∧ item.status = .done := by
  simp [doneItem, Option.filter_eq_some_iff]

theorem savedItem_spec {readState : Bool} {file : StateFile} {id : Int} {item : TaskItem}
    (h : savedItem tf readState file id = some item) :
    item.status = .done ∧ item.taskId = id := by
  rw [savedItem, Option.bind_eq_some_iff] at h
  obtain ⟨st, -, h⟩ := h
  rw [doneItem_eq_some] at h
  exact ⟨h.2, cachedStatus_filed _ id item h.1⟩

/-- The loop of `LoadState`: the ids with a DONE item go to `SetResult` with it, the others to the
new pending queue, both in generation order. -/
theorem loadTasks_spec (cached : TreeMap Int TaskItem) (tasks : List Int) : ∀ l : Loading,
    (tasks.foldl (loadTask cached) l).taskId =
      l.taskId ++ tasks.filter (fun id => (doneItem cached id).isSome) ∧
    (tasks.foldl (loadTask cached) l).result =
      l.result ++ (tasks.filterMap (doneItem cached)).map TaskItem.result ∧
    (tasks.foldl (loadTask cached) l).timeUsage =
      l.timeUsage ++ (tasks.filterMap (doneItem cached)).map TaskItem.timeUsage ∧
    (tasks.foldl (loadTask cached) l).newTaskPendingQueue =
      l.newTaskPendingQueue ++ tasks.filter (fun id => (doneItem cached id).isNone) ∧
    ∀ id : Int, (tasks.foldl (loadTask cached) l).taskMap[id]? =
      if id ∈ tasks then (doneItem cached id).or l.taskMap[id]? else l.taskMap[id]? := by
  induction tasks with
  | nil => simp
  | cons t tasks ih =>
    intro l
    obtain ⟨h1, h2, h3, h4, h5⟩ := ih (loadTask cached l t)
    cases ht : doneItem cached t with
    | some item =>
      obtain ⟨hc, hs⟩ := doneItem_eq_some.1 ht
      have hl : loadTask cached l t =
          { l with
            taskId := l.taskId ++ [t], result := l.result ++ [item.result]
            timeUsage := l.timeUsage ++ [item.timeUsage]
            taskMap := l.taskMap.insert t item } := by
        simp [loadTask, hc, hs]
      rw [hl] at h1 h2 h3 h4 h5
      refine ⟨?_, ?_, ?_, ?_, fun id => ?_⟩
      · simp [hl, h1, ht]
      · simp [hl, h2, ht]
      · simp [hl, h3, ht]
      · simp [hl, h4, ht]
      · rw [List.foldl_cons, hl, h5, TreeMap.getElem?_insert]
        by_cases hid : t = id
        · subst hid; simp [ht]
        · simp [hid, Ne.symm hid]
    | none =>
      have hl : loadTask cached l t =
          { l with newTaskPendingQueue := l.newTaskPendingQueue ++ [t] } := by
        rw [doneItem, Option.filter_eq_none_iff] at ht
        cases hc : cached[t]? with
        | none => simp [loadTask, hc]
        | some item =>
          have hs : item.status ≠ .done := by simpa using ht item hc
          simp [loadTask, hc, hs]
      rw [hl] at h1 h2 h3 h4 h5
      refine ⟨?_, ?_, ?_, ?_, fun id => ?_⟩
      · simp [hl, h1, ht]
      · simp [hl, h2, ht]
      · simp [hl, h3, ht]
      · simp [hl, h4, ht]
      · rw [List.foldl_cons, hl, h5]
        by_cases hid : id = t
        · subst hid; simp [ht]
        · simp [hid]

/-- What the containers hold when `Start` returns: `saved` are the items taken over. -/
structure Started (tasks : List Int) (saved : Int → Option TaskItem) (n : MasterNode) : Prop where
  queue : n.taskQueue = tasks
  item : ∀ id : Int, n.taskMap[id]? =
    if id ∈ tasks then some ((saved id).getD { taskId := id }) else none
  pending : n.taskPendingQueue = tasks.filter fun id => (saved id).isNone
  running : n.taskRunningQueue = ∅

theorem started_enqueueTasks (tasks : List Int) :
    Started tasks (fun _ => none) (tasks.foldl enqueueTask { taskQueue := tasks }) := by
  obtain ⟨hp, hm, hq, hr, -, -⟩ := enqueueTasks_spec tasks { taskQueue := tasks }
  exact ⟨hq, fun id => by simp [hm], by simp [hp], hr⟩

theorem start_false (tasks : List Int) (file : StateFile) :
    start tf true tasks false file =
      (true, tasks.foldl enqueueTask { taskQueue := tasks }, []) := by
  simp [start]

theorem start_true (tasks : List Int) (file : StateFile) :
    start tf true tasks true file =
      let r := loadState tf file (tasks.foldl enqueueTask { taskQueue := tasks })
      (true, r.1, r.2 ++ endJob r.1.idle) := by
  have hidle : ∀ n : MasterNode,
      (n.taskPendingQueue.isEmpty && n.taskRunningQueue.isEmpty) = n.idle := fun _ => rfl
  simp only [start, hidle, if_true]
  split
  · next h => rw [h]; rfl
  · next h => simp [endJob, h]

theorem loadState_none {file : StateFile} (n : MasterNode) (h : restored tf true file = none) :
    loadState tf file n = (n, []) := by
  cases file with
  | absent => rfl
  | unreadable => rfl
  | text data =>
    rw [restored] at h
    simp [loadState, h]

theorem loadState_some {file : StateFile} {st : MasterState} (tasks : List Int)
    (h : restored tf true file = some st) :
    let r := loadState tf file (tasks.foldl enqueueTask { taskQueue := tasks })
    Started tasks (doneItem (cachedStatus st.taskItem)) r.1 ∧
      r.1.workerMap = loadWorkers st.workerStatus ∅ ∧
      r.2 = [.setResult (tasks.filter fun id => (doneItem (cachedStatus st.taskItem) id).isSome)
        ((tasks.filterMap (doneItem (cachedStatus st.taskItem))).map TaskItem.result)
        ((tasks.filterMap (doneItem (cachedStatus st.taskItem))).map TaskItem.timeUsage) 0] := by
  cases file with
  | absent => cases h
  | unreadable => cases h
  | text data =>
    rw [restored] at h
    obtain ⟨hp, hm, hq, hr, hw, -⟩ := enqueueTasks_spec tasks { taskQueue := tasks }
    obtain ⟨h1, h2, h3, h4, h5⟩ := loadTasks_spec (cachedStatus st.taskItem) tasks
      { taskMap := (tasks.foldl enqueueTask { taskQueue := tasks }).taskMap }
    simp only [loadState, h, hq]
    refine ⟨⟨rfl, fun id => ?_, by simp [h4], hr⟩, by rw [hw], by simp [h1, h2, h3]⟩
    rw [h5, hm]
    by_cases hid : id ∈ tasks
    · cases hd : doneItem (cachedStatus st.taskItem) id <;> simp [hid]
    · simp [hid]

/-- What `Start` leaves in the containers, whatever the state file holds. -/
theorem start_started (tasks : List Int) (readState : Bool) (file : StateFile) :
    Started tasks (savedItem tf readState file) (start tf true tasks readState file).2.1 := by
  have hnone : restored tf readState file = none →
      savedItem tf readState file = fun _ => none := by
    intro h; funext id; rw [savedItem, h]; rfl
  cases readState with
  | false => rw [start_false, hnone (by cases file <;> rfl)]; exact started_enqueueTasks tasks
  | true =>
    rw [start_true]
    cases h : restored tf true file with
    | none => rw [loadState_none tf _ h, hnone h]; exact started_enqueueTasks tasks
    | some st =>
      have hsaved : savedItem tf true file = doneItem (cachedStatus st.taskItem) := by
        funext id; rw [savedItem, h]; rfl
      rw [hsaved]
      exact (loadState_some tf tasks h).1

theorem start_workerMap (tasks : List Int) (readState : Bool) (file : StateFile) :
    (start tf true tasks readState file).2.1.workerMap =
      match restored tf readState file with
      | none => ∅
      | some st => loadWorkers st.workerStatus ∅ := by
  have hw := (enqueueTasks_spec tasks { taskQueue := tasks }).2.2.2.2.1
  cases readState with
  | false => rw [start_false, show restored tf false file = none by cases file <;> rfl]; exact hw
  | true =>
    rw [start_true]
    cases h : restored tf true file with
    | none => rw [loadState_none tf _ h]; exact hw
    | some st => exact (loadState_some tf tasks h).2.1

/-- The effects of `Start`: the results taken over, if a state was read, and the end of the job if
that leaves nothing to do. -/
theorem start_effects (tasks : List Int) (readState : Bool) (file : StateFile) :
    (start tf true tasks readState file).2.2 =
      (match restored tf readState file with
        | none => []
        | some _ =>
          [.setResult (tasks.filter fun id => (savedItem tf readState file id).isSome)
            ((tasks.filterMap (savedItem tf readState file)).map TaskItem.result)
            ((tasks.filterMap (savedItem tf readState file)).map TaskItem.timeUsage) 0]) ++
      endJob (readState && (start tf true tasks readState file).2.1.idle) := by
  cases readState with
  | false => rw [start_false, show restored tf false file = none by cases file <;> rfl]; rfl
  | true =>
    rw [start_true]
    cases h : restored tf true file with
    | none => rw [loadState_none tf _ h]; rfl
    | some st =>
      have hsaved : savedItem tf true file = doneItem (cachedStatus st.taskItem) := by
        funext id; rw [savedItem, h]; rfl
      rw [hsaved]
      simp only [(loadState_some tf tasks h).2.2, Bool.true_and]

/-- The record a worker is restored with. -/
def clearRunning (w : WorkerStatus) : WorkerStatus := { w with runningTask := [] }

/-- The restored workers are the saved ones, cleared and filed. -/
theorem loadWorkers_eq (workers : List WorkerStatus) (m : TreeMap String WorkerStatus) :
    loadWorkers workers m =
      Filing.fileAll WorkerStatus.workerId (workers.map clearRunning) m := by
  rw [Filing.fileAll, List.foldl_map]
  rfl

/-- **`Start` sets the invariant up**, for pairwise distinct tasks and whatever the state file
holds. -/
theorem start_inv {tasks : List Int} (hnd : tasks.Nodup) (readState : Bool) (file : StateFile) :
    (start tf true tasks readState file).2.1.Inv := by
  have hs := start_started tf tasks readState file
  have hw := start_workerMap tf tasks readState file
  have hbook : ∀ id, (start tf true tasks readState file).2.1.ledger id =
      if id ∈ tasks then
        some ((savedItem tf readState file id).getD { taskId := id }).entry else none := by
    intro id
    rw [ledger, book, hs.item]
    split <;> rfl
  generalize (start tf true tasks readState file).2.1 = n at hs hw hbook
  refine ⟨by rw [hs.pending]; exact hnd.filter _, fun id => ?_, fun id => ?_,
    fun id item hi => ?_, ?_⟩
  · rw [hs.pending, List.mem_filter, hbook]
    by_cases hid : id ∈ tasks
    · cases h : savedItem tf readState file id with
      | none => simp [hid]
      | some item => simp [hid, (savedItem_spec tf h).1]
    · simp [hid]
  · rw [hs.running, hbook]
    by_cases hid : id ∈ tasks
    · cases h : savedItem tf readState file id with
      | none => simp [hid]
      | some item => simp [hid, (savedItem_spec tf h).1]
    · simp [hid]
  · rw [hs.item] at hi
    split at hi
    · rw [← Option.some_inj.1 hi]
      cases h : savedItem tf readState file id with
      | none => rfl
      | some item => exact (savedItem_spec tf h).2
    · cases hi
  · rw [hw]
    cases restored tf readState file with
    | none => exact Filing.filed_empty
    | some st => simp only [loadWorkers_eq]; exact Filing.filed_empty.fileAll _

end MasterNode

end Dcfpe

import Dcfpe.Dpe.MasterRun

/-!
# Saving the master and starting again

The state file is where two incarnations of the master meet: `SaveState` writes every record of
the first one, RUNNING ones included, and `LoadState` of the second takes over what is DONE.  For
the second one nothing is in between: a task some worker of the first was computing is PENDING
again.  `restart_spec` is the whole of what one incarnation hands to the next, for any state the
first can be in and any tasks of the second.

protobuf's printer and parser are parameters; what is used of them is that the text of the one
state that was saved parses back to it.
-/

set_option autoImplicit false

namespace Dcfpe

open Std

namespace Master

variable (tf : TextFormat)

/-- The records of a master are restored from the message it saves. -/
theorem cachedStatus_masterState {n : MasterNode} (h : n.Inv) (id : Int) :
    (MasterNode.cachedStatus n.masterState.taskItem)[id]? = n.taskMap[id]? := by
  have hv := h.itemId.getElem?_fileAll_values (f := fun item => item) (fun _ => rfl) id
  rw [List.map_id', Option.map_id'] at hv
  exact hv

theorem loadWorkers_masterState {n : MasterNode} (h : n.Inv) (k : String) :
    (MasterNode.loadWorkers n.masterState.workerStatus ∅)[k]? =
      n.workerMap[k]?.map MasterNode.clearRunning := by
  rw [MasterNode.loadWorkers_eq]
  exact h.workerId.getElem?_fileAll_values (f := MasterNode.clearRunning) (fun _ => rfl) k

/-- The DONE record of a task, if it has one. -/
def doneRecord (m : Master) (id : Int) : Option TaskItem :=
  m.node.taskMap[id]?.filter fun item => item.status = .done

/-- The state file after `SaveState(true)`. -/
def savedFile (now : Int) (m : Master) : StateFile :=
  writeEffects m.file (m.node.saveState tf now true).2

theorem savedFile_eq (now : Int) (m : Master) :
    m.savedFile tf now = .text (tf.print m.node.masterState) := by
  simp [savedFile, MasterNode.saveState, writeEffects]

/-- What the second incarnation takes over is what the first had DONE. -/
theorem savedItem_savedFile {m : Master} (h : m.node.Inv) (now : Int)
    (hparse : tf.parse (tf.print m.node.masterState) = some m.node.masterState) (id : Int) :
    MasterNode.restored tf true (m.savedFile tf now) = some m.node.masterState ∧
      MasterNode.savedItem tf true (m.savedFile tf now) id = m.doneRecord id := by
  have hr : MasterNode.restored tf true (m.savedFile tf now) = some m.node.masterState := by
    rw [savedFile_eq]; exact hparse
  refine ⟨hr, ?_⟩
  rw [MasterNode.savedItem, hr, Option.bind_some, MasterNode.doneItem, cachedStatus_masterState h]
  rfl

/-- **What a restart keeps.**  Let `m` be any state of a master of `tasks`, saved by
`SaveState(true)`, and `m'` a master of `tasks'` that starts on that file.  Then `m'` has a record
for each of its tasks: the one `m` had, if that was DONE, and a PENDING one otherwise; the tasks
not taken over are queued once each, in generation order; the `Solver` is given those taken over,
in generation order and with their results, in one call, and is told at once that the job is
finished exactly if all of `tasks'` were DONE; and every worker is there as saved, with no running
task. -/
theorem restart_spec {tasks tasks' : List Int} (hnd : tasks.Nodup) (hnd' : tasks'.Nodup)
    (readState : Bool) (file : StateFile) (ds : List Dispatch) (now : Int)
    (hparse :
      tf.parse (tf.print ((init tf tasks readState file).serve tf ds).node.masterState) =
        some ((init tf tasks readState file).serve tf ds).node.masterState) :
    let m := (init tf tasks readState file).serve tf ds
    let m' := init tf tasks' true (m.savedFile tf now)
    (∀ id : Int, m'.node.taskMap[id]? =
      if id ∈ tasks' then some ((m.doneRecord id).getD { taskId := id, status := .pending })
      else none) ∧
    m'.node.taskPendingQueue = tasks'.filter (fun id => (m.doneRecord id).isNone) ∧
    (∀ id ∈ tasks', m.doneRecord id = none → m'.node.taskPendingQueue.count id = 1) ∧
    m'.node.taskRunningQueue = ∅ ∧
    m'.effects =
      [.setResult (tasks'.filter fun id => (m.doneRecord id).isSome)
        ((tasks'.filterMap m.doneRecord).map TaskItem.result)
        ((tasks'.filterMap m.doneRecord).map TaskItem.timeUsage) 0] ++
      endJob m'.node.idle ∧
    (m'.node.idle = true ↔ ∀ id ∈ tasks', (m.doneRecord id).isSome) ∧
    ∀ k : String, m'.node.workerMap[k]? =
      m.node.workerMap[k]?.map fun w => { w with runningTask := [] } := by
  intro m m'
  have hinv : m.node.Inv := (history_serve tf (history_init tf hnd readState file) ds).inv
  have hsaved : MasterNode.savedItem tf true (m.savedFile tf now) = m.doneRecord :=
    funext fun id => (savedItem_savedFile tf hinv now hparse id).2
  have hrest := (savedItem_savedFile tf hinv now hparse 0).1
  have hs := MasterNode.start_started tf tasks' true (m.savedFile tf now)
  have he := MasterNode.start_effects tf tasks' true (m.savedFile tf now)
  have hw := MasterNode.start_workerMap tf tasks' true (m.savedFile tf now)
  rw [hsaved] at hs he
  simp only [hrest, Bool.true_and] at he hw
  refine ⟨hs.item, hs.pending, fun id hid hnone => ?_, hs.running, he, ?_, fun k => ?_⟩
  · have hmem : id ∈ m'.node.taskPendingQueue := by
      rw [show m'.node.taskPendingQueue = _ from hs.pending, List.mem_filter]
      exact ⟨hid, by rw [hnone]; rfl⟩
    refine List.count_eq_one_of_mem ?_ hmem
    rw [show m'.node.taskPendingQueue = _ from hs.pending]
    exact hnd'.filter _
  · have hempty : m'.node.taskRunningQueue.isEmpty = true := by
      rw [show m'.node.taskRunningQueue = ∅ from hs.running]; rfl
    rw [MasterNode.idle, hempty, Bool.and_true, List.isEmpty_iff,
      show m'.node.taskPendingQueue = _ from hs.pending, List.filter_eq_nil_iff]
    refine forall₂_congr fun id _ => ?_
    cases m.doneRecord id <;> simp
  · rw [show m'.node.workerMap = _ from hw, loadWorkers_masterState hinv]
    rfl

/-- A master of task 1 is saved with it DONE, and a master of tasks 2 and 1 starts on the file. -/
theorem restart_spec_saved :
    [(1 : Int)].Nodup ∧ [(2 : Int), 1].Nodup ∧
      (init savedFormat [2, 1] true
        (((init savedFormat [1] true (.text savedText)).serve savedFormat []).savedFile
          savedFormat 0)).node.taskPendingQueue = [2] :=
  ⟨by decide, by decide,
    (restart_spec savedFormat (show [1].Nodup by decide) (show [2, 1].Nodup by decide) true
      (.text savedText) [] 0 (by decide)).2.1.trans (by decide)⟩

end Master

end Dcfpe

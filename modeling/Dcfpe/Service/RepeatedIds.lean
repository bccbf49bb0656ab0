import Dcfpe.Service.Accounting
import Dcfpe.Service.JobSuccess

/-!
# Lines with one id

The source may print an id twice.  `task_queue_` has the tasks by id and index, so each line is
handed out, and `GetTask` finds each by its index; but `running_queue_` has only the ids, and
forgets one when the first of its tasks is finished or its device lost.

Without the map each line can be followed (`LineBooks`): its task is pending and in the queue,
running, or finished, and a device that has not answered has a running task, each its own, with the
input of its line.  So a result is always that of its own line.  The map has the ids of the lines
that run and have not been overtaken, and `reduced_iff` says when the results are complete that are
written.
-/

set_option autoImplicit false

namespace Dcfpe

/-- What `DoTask` sends of a task. -/
def DPETask.data (task : DPETask) : String := String.ofList (Decimal.chars (task.input ++ [10]))

/-- A `DoTask` that was answered with success: the index and the input it was sent with, and the
output that came back. -/
structure TaskAnswer where
  idx : Int
  input : String
  output : Bytes
  deriving DecidableEq, Repr

/-! ## The tasks -/

/-- The tasks are those of the lines, and the queue has those that are pending. -/
structure Queued (lines : List Bytes) (p : DPEProjectState) (queue : List (Int × Int)) : Prop where
  lines : p.taskData.map DPETask.line =
    lines.map fun line => (DPEProjectState.taskOfLine line).line
  fits : ∀ (i : Nat) (task : DPETask), p.taskData[i]? = some task →
    -2 ^ 31 ≤ task.id ∧ task.id ≤ 2 ^ 31 - 1
  sound : ∀ (i : Nat) (task : DPETask), p.taskData[i]? = some task → task.state ≠ .error
  queued : ∀ id idx, (id, idx) ∈ queue ↔ p.Has .pending id idx
  once : queue.Nodup

namespace Queued

variable {lines : List Bytes} {p : DPEProjectState} {queue queue' : List (Int × Int)} {i : Nat}
  {task : DPETask}

/-- A task is put into another state, and the queue follows. -/
theorem change (h : Queued lines p queue) (htask : p.taskData[i]? = some task)
    {f : DPETask → DPETask} {state : DPETaskState} (hid : (f task).id = task.id)
    (hinput : (f task).input = task.input) (hstate : (f task).state = state) (hne : state ≠ .error)
    (hqueue : ∀ id idx, (id, idx) ∈ queue' ↔
      state = .pending ∧ id = task.id ∧ idx = i ∨ idx ≠ i ∧ (id, idx) ∈ queue)
    (honce : queue'.Nodup) : Queued lines (p.setTask i f) queue' := by
  have hold : ∀ (j : Nat) task', (p.setTask i f).taskData[j]? = some task' →
      ∃ task, p.taskData[j]? = some task ∧ task'.id = task.id ∧ task'.line = task.line ∧
        task'.state ≠ .error := by
    intro j task' hj
    rw [DPEProjectState.setTask_getElem?] at hj
    split at hj
    · next hij =>
      rw [← hij, htask, Option.map_some, Option.some_inj] at hj
      subst hj
      have hsound := h.sound i task htask
      exact ⟨task, hij ▸ htask, hid, by simp [DPETask.line, hid, hinput, hstate, hne, hsound],
        hstate ▸ hne⟩
    · exact ⟨task', hj, rfl, rfl, h.sound j task' hj⟩
  refine ⟨?_, fun j task' hj => ?_, fun j task' hj => ?_, fun id idx => ?_, honce⟩
  · rw [← h.lines]
    refine List.ext_getElem? fun j => ?_
    rw [List.getElem?_map, List.getElem?_map]
    cases hj : (p.setTask i f).taskData[j]? with
    | some task' =>
      obtain ⟨task₀, hj₀, -, hline, -⟩ := hold j task' hj
      rw [hj₀, Option.map_some, Option.map_some, hline]
    | none =>
      rw [DPEProjectState.setTask_getElem?] at hj
      split at hj
      · rw [Option.map_eq_none_iff.1 hj]
      · rw [hj]
  · obtain ⟨task₀, hj₀, hid', -, -⟩ := hold j task' hj
    rw [hid']
    exact h.fits j task₀ hj₀
  · exact (hold j task' hj).choose_spec.2.2.2
  · rw [hqueue, DPEProjectState.has_setTask htask hid hstate, h.queued]
    constructor
    · rintro (⟨hp, rfl, rfl⟩ | ⟨hne', hhas⟩)
      · exact .inl ⟨rfl, rfl, hp.symm⟩
      · exact .inr ⟨hne', hhas⟩
    · rintro (⟨rfl, rfl, hp⟩ | ⟨hne', hhas⟩)
      · exact .inl ⟨hp.symm, rfl, rfl⟩
      · exact .inr ⟨hne', hhas⟩

/-- The front of the queue is handed out. -/
theorem hand {id idx : Int} (h : Queued lines p ((id, idx) :: queue))
    (hget : p.getTask id idx = some i) (htask : p.taskData[i]? = some task) :
    idx = i ∧ id = task.id ∧ task.state = .pending ∧
      Queued lines (p.setTask i fun task => { task with state := .running }) queue := by
  obtain ⟨j, task₀, rfl, hj, htask₀, rfl, hpending⟩ :=
    DPEProjectState.getTask_of_has ((h.queued id idx).1 List.mem_cons_self)
  obtain rfl := Option.some.inj (hj.symm.trans hget)
  obtain rfl := Option.some.inj (htask₀.symm.trans htask)
  obtain ⟨hnew, honce⟩ := List.nodup_cons.1 h.once
  refine ⟨rfl, rfl, hpending, h.change htask rfl rfl (rfl : _ = DPETaskState.running) (by decide)
    (fun id' idx' => ?_) honce⟩
  constructor
  · intro hmem
    refine .inr ⟨?_, List.mem_cons_of_mem _ hmem⟩
    rintro rfl
    have hhas := (h.queued id' j).1 (List.mem_cons_of_mem _ hmem)
    obtain ⟨rfl, -⟩ := hhas.state_unique ⟨j, task₀, rfl, htask, rfl, hpending⟩
    exact hnew hmem
  · rintro (⟨hc, -⟩ | ⟨hne, hmem⟩)
    · cases hc
    · exact (List.mem_cons.1 hmem).resolve_left fun heq => hne (Prod.ext_iff.1 heq).2

/-- A running task is not in the queue. -/
theorem not_mem (h : Queued lines p queue) (htask : p.taskData[i]? = some task)
    (hrunning : task.state = .running) (id : Int) : (id, (i : Int)) ∉ queue := fun hmem => by
  have hhas : p.Has .running task.id i := ⟨i, task, rfl, htask, rfl, hrunning⟩
  cases (((h.queued _ _).1 hmem).state_unique hhas).2

/-- A running task is finished. -/
theorem finish (h : Queued lines p queue) (htask : p.taskData[i]? = some task)
    (hrunning : task.state = .running) (result : Bytes) :
    Queued lines (p.setTask i fun task => { task with result := result, state := .finish })
      queue := by
  refine h.change htask rfl rfl (rfl : _ = DPETaskState.finish) (by decide) (fun id idx => ?_)
    h.once
  constructor
  · intro hmem
    refine .inr ⟨?_, hmem⟩
    rintro rfl
    exact h.not_mem htask hrunning id hmem
  · rintro (⟨hc, -⟩ | ⟨-, hmem⟩)
    · cases hc
    · exact hmem

/-- A running task goes back to the end of the queue. -/
theorem giveBack (h : Queued lines p queue) (htask : p.taskData[i]? = some task)
    (hrunning : task.state = .running) :
    Queued lines (p.setTask i fun task => { task with state := .pending })
      (queue ++ [(task.id, (i : Int))]) := by
  refine h.change htask rfl rfl (rfl : _ = DPETaskState.pending) (by decide) (fun id idx => ?_) ?_
  · rw [List.mem_append, List.mem_singleton, Prod.mk.injEq]
    constructor
    · rintro (hmem | heq)
      · refine .inr ⟨?_, hmem⟩
        rintro rfl
        exact h.not_mem htask hrunning id hmem
      · exact .inl ⟨rfl, heq⟩
    · rintro (⟨-, heq⟩ | ⟨-, hmem⟩)
      · exact .inr heq
      · exact .inl hmem
  · refine List.nodup_append.2 ⟨h.once, List.nodup_singleton _, ?_⟩
    rintro _ hmem _ hsingle rfl
    rw [List.mem_singleton.1 hsingle] at hmem
    exact h.not_mem htask hrunning task.id hmem

end Queued

/-! ## The devices -/

/-- The device has a running task, with its input. -/
def Carries (p : DPEProjectState) (w : Listed) : Prop :=
  ∃ (i : Nat) (task : DPETask), w.device.currTaskIdx = i ∧ p.taskData[i]? = some task ∧
    task.state = .running ∧ w.device.currTaskId = toString task.id ∧
    w.device.currTaskInput = task.data

/-- The devices that have not answered have running tasks, each its own. -/
def Carried (p : DPEProjectState) (workers : List Listed) : Prop := Outstanding (Carries p) workers

/-- The device keeps the `DoTask` it was sent last. -/
structure Listed.SameRequest (w w' : Listed) : Prop extends w.SameTask w' where
  input : w'.device.currTaskInput = w.device.currTaskInput

namespace Carried

variable {p : DPEProjectState} {workers : List Listed} {k : Nat} {w w' : Listed}

/-- A device keeps its task, if it has not answered. -/
theorem set (h : Carried p workers) (hw : workers[k]? = some w) (hsame : w.SameRequest w')
    (hun : w'.unanswered = true → w.unanswered = true)
    (hbusy : w'.device.deviceState = .running → w'.unanswered = true) :
    Carried p (workers.set k w') := by
  refine Outstanding.set h hw hsame.toSameTask ?_ hun hbusy
  rintro ⟨i, task, hidx, htask, hstate, hid, hinput⟩
  exact ⟨i, task, hsame.taskIdx.trans hidx, htask, hstate, hsame.taskId.trans hid,
    hsame.input.trans hinput⟩

/-- The task of no device is changed. -/
theorem change (h : Carried p workers) {i : Nat} (f : DPETask → DPETask)
    (hnone : ∀ (j : Nat) (v : Listed), workers[j]? = some v → v.unanswered = true →
      v.device.currTaskIdx ≠ i) : Carried (p.setTask i f) workers := by
  refine Outstanding.imp h ?_
  rintro j v hv hvun ⟨l, task, hidx, htask, hrest⟩
  have hil : i ≠ l := fun heq => hnone j v hv hvun (heq ▸ hidx)
  refine ⟨l, task, hidx, ?_, hrest⟩
  rw [DPEProjectState.setTask_getElem?, if_neg hil]
  exact htask

/-- A device gets a task that was not running. -/
theorem give (h : Carried p workers) {i : Nat} {task : DPETask} (htask : p.taskData[i]? = some task)
    (hstate : task.state ≠ .running) (k : Nat) (w : Listed) :
    Carried (p.setTask i fun task => { task with state := .running })
      (workers.set k (w.given task.id i task)) := by
  have hother : ∀ (j : Nat) (v : Listed), workers[j]? = some v → v.unanswered = true →
      v.device.currTaskIdx ≠ i := by
    intro j v hv hvun heq
    obtain ⟨l, task', hidx, htask', hrunning, -⟩ := h.has j v hv hvun
    obtain rfl : l = i := Int.ofNat_inj.1 (hidx.symm.trans heq)
    rw [Option.some.inj (htask'.symm.trans htask)] at hrunning
    exact hstate hrunning
  have hchange := h.change (fun task => { task with state := .running }) hother
  refine Outstanding.put hchange (fun _ => ?_) (fun _ => rfl) fun _ j v hv _ => hother j v hv
  refine ⟨i, { task with state := .running }, rfl, ?_, rfl, rfl, rfl⟩
  rw [DPEProjectState.setTask_getElem?, if_pos rfl, htask]
  rfl

end Carried

/-! ## The answers -/

/-- The finished tasks are those that were answered, and their results the outputs that came back
with their own inputs. -/
structure Answered (p : DPEProjectState) (answers : List TaskAnswer) : Prop where
  earned : ∀ (i : Nat) (task : DPETask), p.taskData[i]? = some task → task.state = .finish →
    ∃ a ∈ answers, a.idx = i ∧ a.input = task.data ∧ a.output = task.result
  only : ∀ a ∈ answers, ∃ (i : Nat) (task : DPETask), a.idx = i ∧
    p.taskData[i]? = some task ∧ task.state = .finish

namespace Answered

variable {p : DPEProjectState} {answers : List TaskAnswer} {i : Nat} {task : DPETask}

/-- The finished tasks stay when another one is changed. -/
theorem only_setTask (h : Answered p answers) (htask : p.taskData[i]? = some task)
    (hnot : task.state ≠ .finish) (f : DPETask → DPETask) :
    ∀ a ∈ answers, ∃ (j : Nat) (task' : DPETask), a.idx = j ∧
      (p.setTask i f).taskData[j]? = some task' ∧ task'.state = .finish := by
  intro a ha
  obtain ⟨j, task', hidx, hj, hfinish⟩ := h.only a ha
  refine ⟨j, task', hidx, ?_, hfinish⟩
  rw [DPEProjectState.setTask_getElem?, if_neg]
  · exact hj
  · rintro rfl
    rw [Option.some.inj (hj.symm.trans htask)] at hfinish
    exact hnot hfinish

/-- A task that is not finished is put into another state. -/
theorem change (h : Answered p answers) (htask : p.taskData[i]? = some task)
    (hnot : task.state ≠ .finish) {f : DPETask → DPETask} (hf : (f task).state ≠ .finish) :
    Answered (p.setTask i f) answers := by
  refine ⟨fun j task' hj hfinish => ?_, h.only_setTask htask hnot f⟩
  rw [DPEProjectState.setTask_getElem?] at hj
  split at hj
  · next hij =>
    rw [← hij, htask, Option.map_some, Option.some_inj] at hj
    subst hj
    exact absurd hfinish hf
  · exact h.earned j task' hj hfinish

/-- A task is finished with the output of an answer. -/
theorem finish (h : Answered p answers) (htask : p.taskData[i]? = some task)
    (hnot : task.state ≠ .finish) (output : Bytes) :
    Answered (p.setTask i fun task => { task with result := output, state := .finish })
      (answers ++ [⟨i, task.data, output⟩]) := by
  refine ⟨fun j task' hj hfinish => ?_, fun a ha => ?_⟩
  · rw [DPEProjectState.setTask_getElem?] at hj
    split at hj
    · next hij =>
      rw [← hij, htask, Option.map_some, Option.some_inj] at hj
      subst hj
      exact ⟨_, List.mem_append_right _ (List.mem_singleton_self _), by rw [hij], rfl, rfl⟩
    · obtain ⟨a, ha, hrest⟩ := h.earned j task' hj hfinish
      exact ⟨a, List.mem_append_left _ ha, hrest⟩
  · rcases List.mem_append.1 ha with ha | ha
    · exact h.only_setTask htask hnot _ a ha
    · rw [List.mem_singleton.1 ha]
      refine ⟨i, { task with result := output, state := .finish }, rfl, ?_, rfl⟩
      rw [DPEProjectState.setTask_getElem?, if_pos rfl, htask]
      rfl

end Answered

/-! ## The map -/

namespace DPEProjectState

/-- The ids and the indices of the tasks that are running. -/
def runningTasks (p : DPEProjectState) : List (Int × Int) :=
  (p.taskData.zipIdx.filter fun (task, _) => task.state = .running).map fun (task, i) =>
    (task.id, (i : Int))

theorem mem_runningTasks (p : DPEProjectState) {id idx : Int} :
    (id, idx) ∈ p.runningTasks ↔ p.Has .running id idx := by
  rw [runningTasks, List.mem_map]
  constructor
  · rintro ⟨⟨task, i⟩, hmem, heq⟩
    obtain ⟨hmem, hrunning⟩ := List.mem_filter.1 hmem
    obtain ⟨rfl, rfl⟩ := Prod.mk.inj heq
    exact ⟨i, task, rfl, List.mem_zipIdx_iff_getElem?.1 hmem, rfl, of_decide_eq_true hrunning⟩
  · rintro ⟨i, task, rfl, hi, rfl, hrunning⟩
    exact ⟨(task, i), List.mem_filter.2 ⟨List.mem_zipIdx_iff_getElem?.2 hi,
      decide_eq_true hrunning⟩, rfl⟩

/-- The task of the line at `idx` stops running.  The lines that run with its id are overtaken. -/
def overtake (idx : Int) (overtaken : List Int) (p : DPEProjectState) : List Int :=
  (overtaken ++ (p.runningTasks.filter fun (id, _) => p.runningTasks.contains (id, idx)).map
    Prod.snd).filter (· ≠ idx)

theorem mem_overtake {p : DPEProjectState} {idx j : Int} {overtaken : List Int} :
    j ∈ p.overtake idx overtaken ↔
      j ≠ idx ∧ (j ∈ overtaken ∨ ∃ id, p.Has .running id idx ∧ p.Has .running id j) := by
  rw [overtake, List.mem_filter, List.mem_append, List.mem_map, decide_eq_true_eq, and_comm]
  refine and_congr_right fun _ => or_congr_right ⟨?_, ?_⟩
  · rintro ⟨⟨id, j⟩, hmem, rfl⟩
    obtain ⟨hj, hidx⟩ := List.mem_filter.1 hmem
    exact ⟨id, p.mem_runningTasks.1 (List.contains_iff_mem.1 hidx), p.mem_runningTasks.1 hj⟩
  · rintro ⟨id, hidx, hj⟩
    exact ⟨(id, j), List.mem_filter.2 ⟨p.mem_runningTasks.2 hj,
      List.contains_iff_mem.2 (p.mem_runningTasks.2 hidx)⟩, rfl⟩

end DPEProjectState

/-- The map has the ids of the tasks that are running and have not been overtaken. -/
structure Mapped (p : DPEProjectState) (running : Std.TreeMap Int Int) (overtaken : List Int) :
    Prop where
  covers : ∀ id, id ∈ running ↔ ∃ idx, p.Has .running id idx ∧ idx ∉ overtaken
  live : ∀ idx ∈ overtaken, ∃ id, p.Has .running id idx

namespace Mapped

variable {p : DPEProjectState} {running : Std.TreeMap Int Int} {overtaken : List Int} {i : Nat}
  {task : DPETask}

/-- A task starts to run. -/
theorem hand (h : Mapped p running overtaken) (htask : p.taskData[i]? = some task)
    (hstate : task.state ≠ .running) (idx : Int) :
    Mapped (p.setTask i fun task => { task with state := .running })
      (running.insertIfNew task.id idx) overtaken := by
  have hset := fun id idx => @DPEProjectState.has_setTask p i task
    (fun task => { task with state := .running }) .running htask rfl rfl .running id idx
  have hfresh : ∀ id, ¬ p.Has .running id i := by
    rintro id ⟨j, task', hij, htask', -, hrunning⟩
    rw [← Int.ofNat_inj.1 hij, htask] at htask'
    exact hstate (Option.some.inj htask' ▸ hrunning)
  refine ⟨fun id => ?_, fun idx hidx => ?_⟩
  · rw [Std.TreeMap.mem_insertIfNew, Std.LawfulEqCmp.compare_eq_iff_eq, h.covers]
    constructor
    · rintro (rfl | ⟨idx, hhas, hnot⟩)
      · refine ⟨i, (hset _ _).2 (.inl ⟨rfl, rfl, rfl⟩), fun hmem => ?_⟩
        exact (h.live i hmem).elim hfresh
      · exact ⟨idx, (hset _ _).2 (.inr ⟨fun heq => hfresh id (heq ▸ hhas), hhas⟩), hnot⟩
    · rintro ⟨idx, hhas, hnot⟩
      rcases (hset _ _).1 hhas with ⟨-, rfl, -⟩ | ⟨-, hhas⟩
      · exact .inl rfl
      · exact .inr ⟨idx, hhas, hnot⟩
  · obtain ⟨id, hhas⟩ := h.live idx hidx
    exact ⟨id, (hset _ _).2 (.inr ⟨fun heq => hfresh id (heq ▸ hhas), hhas⟩)⟩

/-- A task stops to run. -/
theorem leave (h : Mapped p running overtaken) (htask : p.taskData[i]? = some task)
    (hrunning : task.state = .running) {f : DPETask → DPETask} {state : DPETaskState}
    (hid : (f task).id = task.id) (hstate : (f task).state = state) (hne : state ≠ .running) :
    Mapped (p.setTask i f) (running.erase task.id) (p.overtake i overtaken) := by
  have hset : ∀ id idx, (p.setTask i f).Has .running id idx ↔ idx ≠ i ∧ p.Has .running id idx := by
    intro id idx
    rw [DPEProjectState.has_setTask htask hid hstate]
    exact or_iff_right fun hc => hne hc.2.2.symm
  have hhas : p.Has .running task.id i := ⟨i, task, rfl, htask, rfl, hrunning⟩
  refine ⟨fun id => ?_, fun idx hidx => ?_⟩
  · rw [Std.TreeMap.mem_erase, Ne, Std.LawfulEqCmp.compare_eq_iff_eq, h.covers]
    constructor
    · rintro ⟨hother, idx, hidx, hnot⟩
      have hi : idx ≠ i := by
        rintro rfl
        exact hother (hhas.state_unique hidx).1
      refine ⟨idx, (hset _ _).2 ⟨hi, hidx⟩, fun hmem => ?_⟩
      obtain ⟨-, hmem | ⟨id', hi', hidx'⟩⟩ := DPEProjectState.mem_overtake.1 hmem
      · exact hnot hmem
      · rw [← (hi'.state_unique hhas).1, (hidx'.state_unique hidx).1] at hother
        exact hother rfl
    · rintro ⟨idx, hidx, hnot⟩
      obtain ⟨hi, hidx⟩ := (hset _ _).1 hidx
      refine ⟨?_, idx, hidx, fun hmem => hnot (DPEProjectState.mem_overtake.2 ⟨hi, .inl hmem⟩)⟩
      rintro rfl
      exact hnot (DPEProjectState.mem_overtake.2 ⟨hi, .inr ⟨_, hhas, hidx⟩⟩)
  · obtain ⟨hi, hmem | ⟨id, -, hidx⟩⟩ := DPEProjectState.mem_overtake.1 hidx
    · obtain ⟨id, hidx⟩ := h.live idx hmem
      exact ⟨id, (hset _ _).2 ⟨hi, hidx⟩⟩
    · exact ⟨id, (hset _ _).2 ⟨hi, hidx⟩⟩

end Mapped

/-! ## The scheduler -/

/-- The books of a scheduler, line by line, with the answers it has got. -/
structure LineBooks (lines : List Bytes) (answers : List TaskAnswer) (overtaken : List Int)
    (s : DPEScheduler) : Prop where
  tasks : Queued lines s.projectState s.taskQueue
  devices : Carried s.projectState s.deviceList
  answered : Answered s.projectState answers
  mapped : Mapped s.projectState s.runningQueue overtaken

namespace LineBooks

open DPEScheduler

variable {lines : List Bytes} {answers : List TaskAnswer} {overtaken : List Int}
  {s : DPEScheduler} {k : Nat} {w w' : Listed}

theorem handOut {t : DPEScheduler} (h : LineBooks lines answers overtaken s) (hout : s.HandOut t) :
    LineBooks lines answers overtaken t := by
  obtain ⟨hqueued, hcarried, hanswered, hmapped⟩ := h
  cases hout with
  | @dropped id idx queue hqueue htask =>
    obtain ⟨i, -, -, hget, -⟩ := DPEProjectState.getTask_of_has
      ((hqueued.queued id idx).1 (hqueue ▸ List.mem_cons_self))
    cases htask.symm.trans hget
  | @handed id idx queue k i worker task hqueue hget htask hworker hidle =>
    rw [hqueue] at hqueued
    obtain ⟨rfl, rfl, hpending, hhand⟩ := hqueued.hand hget htask
    have hstate : task.state ≠ .running := by
      rw [hpending]
      decide
    exact ⟨hhand, hcarried.give htask hstate k worker,
      hanswered.change htask (by rw [hpending]; decide) DPETaskState.noConfusion,
      hmapped.hand htask hstate i⟩

theorem onDeviceAvailable (h : LineBooks lines answers overtaken s) :
    LineBooks lines answers overtaken s.onDeviceAvailable :=
  onDeviceAvailable_induction (P := LineBooks lines answers overtaken) (fun _ _ h => h.handOut) h

theorem setDevice (h : LineBooks lines answers overtaken s) (hw : s.deviceList[k]? = some w)
    (hsame : w.SameRequest w') (hun : w'.unanswered = true → w.unanswered = true)
    (hbusy : w'.device.deviceState = .running → w'.unanswered = true) :
    LineBooks lines answers overtaken (s.setDevice k w') :=
  ⟨h.tasks, h.devices.set hw hsame hun hbusy, h.answered, h.mapped⟩

/-- The task that a device has not answered. -/
theorem current (h : LineBooks lines answers overtaken s) (hw : s.deviceList[k]? = some w)
    (hun : w.unanswered = true) :
    ∃ (i : Nat) (task : DPETask), w.device.currTaskIdx = i ∧
      s.projectState.taskData[i]? = some task ∧ task.state = .running ∧
      w.device.currTaskInput = task.data ∧ w.device.currTaskId = toString task.id ∧
      atoi w.device.currTaskId = task.id ∧
      s.projectState.getTask task.id i = some i := by
  obtain ⟨i, task, hidx, htask, hstate, hid, hinput⟩ := h.devices.has k w hw hun
  have hfits := h.tasks.fits i task htask
  obtain ⟨j, -, hij, hget, -⟩ := DPEProjectState.getTask_of_has
    (⟨i, task, rfl, htask, rfl, hstate⟩ : s.projectState.Has .running task.id i)
  obtain rfl : i = j := Int.ofNat_inj.1 hij
  exact ⟨i, task, hidx, htask, hstate, hinput, hid, hid ▸ atoi_toString hfits.1 hfits.2, hget⟩

/-- A device has answered with success. -/
theorem succeed (h : LineBooks lines answers overtaken s) (hw : s.deviceList[k]? = some w)
    (hun : w.unanswered = true) (hsame : w.SameRequest w') (hun' : w'.unanswered = false)
    (hstate' : w'.device.deviceState ≠ .running) :
    LineBooks lines (answers ++ [⟨w.device.currTaskIdx, w.device.currTaskInput,
        w'.device.currTaskOutput⟩])
      (s.projectState.overtake w.device.currTaskIdx overtaken)
      ((s.setDevice k w').onTaskSucceed w'.device).1 := by
  obtain ⟨i, task, hidx, htask, hstate, hinput, -, hatoi, hget⟩ := h.current hw hun
  have hset := h.devices.set hw hsame (fun hc => absurd (hun'.symm.trans hc) Bool.false_ne_true)
    fun hc => absurd hc hstate'
  have hnone := hidx ▸ h.devices.set_ne hw hun hun'
  have hbooks : LineBooks lines (answers ++ [⟨i, task.data, w'.device.currTaskOutput⟩])
      (s.projectState.overtake i overtaken)
      { s with
        projectState := s.projectState.setTask i fun task =>
          { task with result := w'.device.currTaskOutput, state := .finish }
        deviceList := s.deviceList.set k w'
        runningQueue := s.runningQueue.erase task.id } :=
    ⟨h.tasks.finish htask hstate w'.device.currTaskOutput, hset.change _ hnone,
      h.answered.finish htask (by rw [hstate]; decide) w'.device.currTaskOutput,
      h.mapped.leave htask hstate rfl (rfl : _ = DPETaskState.finish) (by decide)⟩
  rw [hidx, hinput]
  simp only [onTaskSucceed, DPEScheduler.setDevice, hsame.taskId, hsame.taskIdx, hidx, hatoi, hget]
  split
  · exact hbooks
  · split
    · exact hbooks.onDeviceAvailable
    · exact hbooks

/-- A device is lost. -/
theorem lose (h : LineBooks lines answers overtaken s) (hw : s.deviceList[k]? = some w)
    (hsame : w.SameRequest w') :
    let t := (s.setDevice k w').onDeviceLose w'.device w.device.deviceState
    LineBooks lines answers
      (if w.device.deviceState = .running then
        s.projectState.overtake w.device.currTaskIdx overtaken else overtaken)
      { t with deviceList := t.deviceList.eraseIdx k } := by
  have herase : (s.deviceList.set k w').eraseIdx k = s.deviceList.eraseIdx k :=
    List.eraseIdx_set_eq
  simp only [onDeviceLose, DPEScheduler.setDevice]
  split
  · next hrunning =>
    have hun := h.devices.busy k w hw hrunning
    obtain ⟨i, task, hidx, htask, hstate, -, -, hatoi, hget⟩ := h.current hw hun
    have hnone := hidx ▸ h.devices.eraseIdx_ne hw hun
    simp only [hsame.taskId, hsame.taskIdx, hidx, hatoi, hget, herase]
    exact ⟨h.tasks.giveBack htask hstate, Carried.change (h.devices.eraseIdx k) _ hnone,
      h.answered.change htask (by rw [hstate]; decide) DPETaskState.noConfusion,
      h.mapped.leave htask hstate rfl (rfl : _ = DPETaskState.pending) (by decide)⟩
  · rw [herase]
    exact ⟨h.tasks, h.devices.eraseIdx k, h.answered, h.mapped⟩

/-- A device is added. -/
theorem add (h : LineBooks lines answers overtaken s) (hun : w.unanswered = false)
    (hstate : w.device.deviceState ≠ .running) :
    LineBooks lines answers overtaken { s with deviceList := s.deviceList ++ [w] } :=
  ⟨h.tasks, h.devices.append hun hstate, h.answered, h.mapped⟩

/-- Before the source has stopped there are no tasks, and nothing was answered. -/
theorem blank (h : LineBooks [] answers overtaken s) :
    s.projectState.taskData = [] ∧ answers = [] ∧ overtaken = [] ∧
      ∀ (j : Nat) (w : Listed), s.deviceList[j]? = some w → w.unanswered = false := by
  have hnil : s.projectState.taskData = [] := List.map_eq_nil_iff.1 h.tasks.lines
  have hnone : ∀ (i : Nat) (task : DPETask), s.projectState.taskData[i]? ≠ some task := by
    simp [hnil]
  refine ⟨hnil, List.eq_nil_iff_forall_not_mem.2 fun a ha => ?_,
    List.eq_nil_iff_forall_not_mem.2 fun idx hidx => ?_, fun j w hw => ?_⟩
  · obtain ⟨i, task, -, htask, -⟩ := h.answered.only a ha
    exact hnone i task htask
  · obtain ⟨id, i, task, -, htask, -⟩ := h.mapped.live idx hidx
    exact hnone i task htask
  · refine Bool.eq_false_iff.2 fun hun => ?_
    obtain ⟨i, task, -, htask, -⟩ := h.devices.has j w hw hun
    exact hnone i task htask

end LineBooks

/-- Every line has a colon, and an id that fits in 32 bits. -/
def Readable (lines : List Bytes) : Prop :=
  Split lines ∧ ∀ id ∈ lineIds lines, -2 ^ 31 ≤ id ∧ id ≤ 2 ^ 31 - 1

instance : DecidablePred Readable := fun lines =>
  inferInstanceAs (Decidable (Split lines ∧ ∀ id ∈ lineIds lines, _))

theorem Readable.task {lines : List Bytes} (h : Readable lines) {i : Nat} {line : Bytes}
    (hline : lines[i]? = some line) :
    (DPEProjectState.taskOfLine line).state = .pending ∧
      -2 ^ 31 ≤ (DPEProjectState.taskOfLine line).id ∧
      (DPEProjectState.taskOfLine line).id ≤ 2 ^ 31 - 1 := by
  obtain ⟨⟨pre, input⟩, hsplit⟩ :=
    Option.isSome_iff_exists.1 (h.1 line (List.mem_of_getElem? hline))
  have hfits := h.2 _ (mem_lineIds hline hsplit)
  rw [DPEProjectState.taskOfLine, hsplit]
  exact ⟨rfl, hfits⟩

/-- The source has stopped, and the tasks are made. -/
theorem LineBooks.sourceStopped {answers : List TaskAnswer} {overtaken : List Int}
    {s : DPEScheduler} (h : LineBooks [] answers overtaken s) (env : ProjectEnv) {fs : FileSystem}
    (hlines : Readable (tokenize s.inputData)) (hsaved : fs s.project.dpeStatePath = none) :
    LineBooks (tokenize s.inputData) answers overtaken (s.sourceStopped env fs) := by
  obtain ⟨-, rfl, rfl, hquiet⟩ := h.blank
  have hproject : (s.sourceStopped env fs).projectState =
      s.projectState.addInputData s.inputData := by
    simp only [DPEScheduler.sourceStopped, DPEProject.loadSavedState, hsaved]
  have htask : ∀ (i : Nat) (task : DPETask),
      (s.projectState.addInputData s.inputData).taskData[i]? = some task →
      task.state = .pending ∧ -2 ^ 31 ≤ task.id ∧ task.id ≤ 2 ^ 31 - 1 := by
    intro i task hi
    rw [DPEProjectState.addInputData, List.getElem?_map, Option.map_eq_some_iff] at hi
    obtain ⟨line, hline, rfl⟩ := hi
    exact hlines.task hline
  refine ⟨?_, ?_, ?_, ?_⟩
  · refine ⟨?_, ?_, ?_, fun id idx => DPEProjectState.mem_makeTaskQueue _,
      DPEProjectState.nodup_makeTaskQueue _⟩
    · rw [hproject, DPEProjectState.addInputData, List.map_map]
      rfl
    · rw [hproject]
      exact fun i task hi => (htask i task hi).2
    · rw [hproject]
      intro i task hi hc
      cases (htask i task hi).1.symm.trans hc
  · refine ⟨fun j w hw hun => ?_, h.devices.busy, h.devices.alone⟩
    exact absurd ((hquiet j w hw).symm.trans hun) Bool.false_ne_true
  · rw [hproject]
    refine ⟨fun i task hi hfinish => ?_, fun a ha => ?_⟩
    · cases (htask i task hi).1.symm.trans hfinish
    · cases ha
  · rw [hproject]
    refine ⟨fun id => ⟨fun hmem => ?_, ?_⟩, fun idx hidx => ?_⟩
    · exact absurd hmem Std.TreeMap.not_mem_emptyc
    · rintro ⟨idx, ⟨i, task, -, hi, -, hrunning⟩, -⟩
      cases (htask i task hi).1.symm.trans hrunning
    · cases hidx

/-! ## The events -/

/-- What the device is taken to have answered with a reply. -/
def Listed.answer (w : Listed) : RscReply → Option TaskAnswer
  | .doTask errorCode taskId (some output) =>
    if ¬ (w.device.deviceState = .failed ∨ w.device.deviceState = .idle) ∧ errorCode = "0" ∧
        taskId = some w.device.currTaskId then
      some ⟨w.device.currTaskIdx, w.device.currTaskInput, output⟩
    else none
  | _ => none

namespace JobRun

open DPEScheduler

/-- The answer that an event brings. -/
def answer (s : JobRun) : Event → Option TaskAnswer
  | .reply k reply => s.scheduler.deviceList[k]?.bind fun w => w.answer reply
  | _ => none

/-- The line whose task an event finishes or puts back into the queue. -/
def leaving (s : JobRun) : Event → Option Int
  | .reply k reply => (s.answer (.reply k reply)).map TaskAnswer.idx
  | .checkHeartBeat k expired =>
    s.scheduler.deviceList[k]?.bind fun w =>
      if w.lost expired ∧ w.device.deviceState = .running then some w.device.currTaskIdx else none
  | _ => none

/-- What an event of the device at place `k`, which is `w`, does to the scheduler, with the answer
and the line that leaves. -/
inductive LineStep (s : DPEScheduler) (k : Nat) (w : Listed) :
    Option TaskAnswer → Option Int → DPEScheduler × List SchedulerDeed → Prop where
  | kept {w' : Listed} (hsame : w.SameRequest w')
      (hun : w'.unanswered = true → w.unanswered = true)
      (hbusy : w'.device.deviceState = .running →
        w.device.deviceState = .running ∧ w'.unanswered = w.unanswered) :
      LineStep s k w none none (s.setDevice k w', [])
  | ready {w' : Listed} (hsame : w.SameRequest w') (hun : w'.unanswered = w.unanswered)
      (hstate : w'.device.deviceState = .runningIdle) :
      LineStep s k w none none ((s.setDevice k w').onDeviceAvailable, [])
  | failed {w' : Listed} : LineStep s k w none none ((s.setDevice k w').onTaskFailed w'.device)
  | succeeded {w' : Listed} {output : Bytes} (hsame : w.SameRequest w') (hun : w.unanswered = true)
      (hun' : w'.unanswered = false) (hstate : w'.device.deviceState = .runningIdle)
      (houtput : w'.device.currTaskOutput = output) :
      LineStep s k w (some ⟨w.device.currTaskIdx, w.device.currTaskInput, output⟩)
        (some w.device.currTaskIdx) ((s.setDevice k w').onTaskSucceed w'.device)
  | lost {w' : Listed} (hsame : w.SameRequest w') :
      LineStep s k w none
        (if w.device.deviceState = .running then some w.device.currTaskIdx else none)
        ({ (s.setDevice k w').onDeviceLose w'.device w.device.deviceState with
          deviceList :=
            ((s.setDevice k w').onDeviceLose w'.device
              w.device.deviceState).deviceList.eraseIdx k }, [])

variable {s : DPEScheduler} {k : Nat} {w : Listed}

theorem lineStep_doAction {cookie : Int} {r : RemoteDPEDevice × List RscRequest}
    (h : w.ready.doAction cookie = some r) :
    LineStep s k w none none (s.putDevice k { w with device := r.1 }) := by
  rw [RemoteDPEDevice.doAction_eq h]
  exact .kept ⟨⟨rfl, rfl⟩, rfl⟩ id fun hrunning => ⟨hrunning, rfl⟩

theorem lineStep_checkHeartBeat (s : DPEScheduler) (k : Nat) (w : Listed) (expired : Bool) :
    LineStep s k w none
      (if w.lost expired ∧ w.device.deviceState = .running then some w.device.currTaskIdx else none)
      (s.putDevice k { w with device := (w.ready.checkHeartBeat expired).1 }) := by
  have hquiet : ∀ w' : Listed, w.SameRequest w' → w'.device.deviceState = w.device.deviceState →
      w'.unanswered = w.unanswered → LineStep s k w none none (s.setDevice k w', []) :=
    fun w' hsame hstate hun => .kept hsame (hun ▸ id) fun hrunning => ⟨hstate ▸ hrunning, hun⟩
  have hready : w.ready.hasReply = w.device.hasReply := rfl
  rw [RemoteDPEDevice.checkHeartBeat, Listed.lost, hready]
  cases w.device.hasReply with
  | true => exact hquiet _ ⟨⟨rfl, rfl⟩, rfl⟩ rfl rfl
  | false =>
    cases expired with
    | true =>
      simp only [Bool.not_false, Bool.and_self, true_and]
      exact .lost ⟨⟨rfl, rfl⟩, rfl⟩
    | false => exact hquiet _ ⟨⟨rfl, rfl⟩, rfl⟩ rfl rfl

theorem lineStep_reply (s : DPEScheduler) (k : Nat) {w : Listed} {reply : RscReply}
    (honce : w.AnsweredBy reply → w.unanswered = true) :
    LineStep s k w (w.answer reply) ((w.answer reply).map TaskAnswer.idx)
      (s.putDevice k
        { device := w.ready.handleMessage reply
          unanswered := w.unanswered && !decide (w.AnsweredBy reply) }) := by
  have hheard := w.ready.heard reply
  generalize w.ready.handleMessage reply = device at hheard
  cases hheard with
  | dead hdead =>
    have hanswer : w.answer reply = none := by
      rw [Listed.answer.eq_def]
      split
      · exact if_neg fun hc => hc.1 hdead
      · rfl
    rw [hanswer, putDevice_quiet rfl]
    refine .kept ⟨⟨rfl, rfl⟩, rfl⟩ (fun hun => (Bool.and_eq_true_iff.1 hun).1) fun hrunning => ?_
    rcases hdead with hdead | hdead <;> cases hrunning.symm.trans hdead
  | heartBeat =>
    rw [putDevice_quiet rfl]
    exact .kept ⟨⟨rfl, rfl⟩, rfl⟩ (fun hun => (Bool.and_eq_true_iff.1 hun).1)
      fun hrunning => ⟨hrunning, Bool.and_true _⟩
  | initJobFailed =>
    rw [putDevice_call rfl]
    exact .kept ⟨⟨rfl, rfl⟩, rfl⟩ (fun hun => (Bool.and_eq_true_iff.1 hun).1)
      RemoteDeviceState.noConfusion
  | initJobDone =>
    rw [putDevice_call rfl]
    exact .ready ⟨⟨rfl, rfl⟩, rfl⟩ (Bool.and_true _) rfl
  | @taskFailed errorCode taskId taskOutput halive hbad =>
    have hanswer : w.answer (.doTask errorCode taskId taskOutput) = none := by
      cases taskOutput with
      | none => rfl
      | some output =>
        refine if_neg fun hc => ?_
        rcases hbad with hcode | hid | hnone
        · exact hcode hc.2.1
        · exact hid hc.2.2
        · cases hnone
    rw [hanswer, putDevice_call rfl]
    exact .failed
  | @taskSucceeded output halive =>
    have hanswer : w.answer (.doTask "0" (some w.device.currTaskId) (some output)) =
        some ⟨w.device.currTaskIdx, w.device.currTaskInput, output⟩ := if_pos ⟨halive, rfl, rfl⟩
    rw [show w.ready.currTaskId = w.device.currTaskId from rfl, hanswer, putDevice_call rfl]
    exact .succeeded ⟨⟨rfl, rfl⟩, rfl⟩ (honce rfl)
      (by simp [Listed.AnsweredBy]) rfl rfl

theorem lineStep_inputData {a : Option TaskAnswer} {l : Option Int}
    {r : DPEScheduler × List SchedulerDeed} (h : LineStep s k w a l r) :
    r.1.inputData = s.inputData := by
  cases h with
  | kept => rfl
  | ready => exact onDeviceAvailable_inputData _
  | failed => rfl
  | succeeded => exact onTaskSucceed_inputData _ _
  | lost => exact onDeviceLose_inputData _ _ _

/-- A device keeps the books, and it posts `ReduceResult` only when it has answered. -/
theorem lineStep_books {lines : List Bytes} {answers : List TaskAnswer} {overtaken : List Int}
    {a : Option TaskAnswer} {l : Option Int} {r : DPEScheduler × List SchedulerDeed}
    (h : LineBooks lines answers overtaken s) (hw : s.deviceList[k]? = some w)
    (hstep : LineStep s k w a l r) :
    r.2 = [.onRunningError] ∨
      LineBooks lines (answers ++ a.toList)
          (l.elim overtaken fun idx => s.projectState.overtake idx overtaken) r.1 ∧
        (r.2 = [] ∨ r.2 = [.willReduceResult] ∧ w.unanswered = true) := by
  cases hstep with
  | kept hsame hun hbusy =>
    refine .inr ⟨?_, .inl rfl⟩
    rw [Option.toList_none, List.append_nil]
    refine h.setDevice hw hsame hun fun hrunning => ?_
    obtain ⟨hrunning, hun'⟩ := hbusy hrunning
    exact hun'.trans (h.devices.busy k w hw hrunning)
  | ready hsame hun hstate =>
    refine .inr ⟨?_, .inl rfl⟩
    rw [Option.toList_none, List.append_nil]
    refine (h.setDevice hw hsame (hun ▸ id) fun hrunning => ?_).onDeviceAvailable
    cases hstate.symm.trans hrunning
  | failed => exact .inl rfl
  | succeeded hsame hun hun' hstate houtput =>
    refine .inr ⟨?_, ?_⟩
    · rw [← houtput]
      exact h.succeed hw hun hsame hun' (by rw [hstate]; decide)
    · simp only [onTaskSucceed]
      split
      · exact .inr ⟨rfl, hun⟩
      · exact .inl rfl
  | lost hsame =>
    refine .inr ⟨?_, .inl rfl⟩
    rw [Option.toList_none, List.append_nil]
    have hlose := h.lose hw hsame
    split <;> simpa [*] using hlose

/-- What a step does, line by line. -/
inductive LineStepped (env : ProjectEnv) (s : JobRun) : Event → JobRun → Prop where
  | sourceOutput {isStdOut : Bool} {data inputData : Bytes} (hsource : s.source = none) :
      LineStepped env s (.sourceOutput isStdOut data)
        { s with scheduler := { s.scheduler with inputData := inputData } }
  | sourceStop {exitReason : ExitReason} {exitCode : Int} {fs : FileSystem} {sinkStarts : Bool}
      (hsource : s.source = none) :
      LineStepped env s (.sourceStop exitReason exitCode fs sinkStarts)
        ({ s with source := some (exitReason, exitCode) }.put
          (s.scheduler.onSourceStop env fs sinkStarts))
  | reduce {exit : Option (Nat × ExitReason × Int)} (hposted : s.reduces ≠ 0) :
      LineStepped env s (.reduce exit) (s.reduce exit)
  | addDevice {pa session : String} {args : Option InitJobArgs} {device : RemoteDPEDevice}
      (hstate : device.deviceState ≠ .running) :
      LineStepped env s (.addDevice pa session args)
        { s with
          scheduler :=
            { s.scheduler with deviceList := s.scheduler.deviceList ++ [{ device := device }] } }
  | sink {e : Event} {t : JobRun} {outputData : Bytes} (hanswer : s.answer e = none)
      (hleaving : s.leaving e = none)
      (hscheduler : t.scheduler = { s.scheduler with outputData := outputData })
      (hsource : t.source = s.source) (hreduces : t.reduces = s.reduces)
      (hreductions : t.reductions = s.reductions) : LineStepped env s e t
  | device {e : Event} {k : Nat} {w : Listed} {r : DPEScheduler × List SchedulerDeed}
      (hw : s.scheduler.deviceList[k]? = some w)
      (hstep : LineStep s.scheduler k w (s.answer e) (s.leaving e) r) :
      LineStepped env s e (s.put r)

theorem lineStepped_of_step {env : ProjectEnv} {s t : JobRun} {e : Event} (honce : AnsweredOnce s e)
    (h : step env s e = some t) : LineStepped env s e t := by
  cases (taken_of_step h).2 with
  | sourceOutput hsource => exact .sourceOutput hsource
  | sourceStop hsource => exact .sourceStop hsource
  | sinkOutput => exact .sink rfl rfl rfl rfl rfl rfl
  | sinkExit => exact .sink rfl rfl rfl rfl rfl rfl
  | sinkStop =>
    rw [onSinkStop]
    split
    · exact .sink rfl rfl rfl rfl rfl rfl
    · exact .sink rfl rfl rfl rfl rfl rfl
  | reduce hposted => exact .reduce hposted
  | @addDevice pa session args =>
    refine .addDevice ?_
    cases args with
    | none => exact RemoteDeviceState.noConfusion
    | some args => exact RemoteDeviceState.noConfusion
  | doAction hw hr => exact .device hw (lineStep_doAction hr)
  | checkHeartBeat hw =>
    refine .device hw ?_
    rw [leaving, hw, Option.bind_some]
    exact lineStep_checkHeartBeat s.scheduler _ _ _
  | reply hw =>
    refine .device hw ?_
    rw [leaving, answer, hw, Option.bind_some]
    exact lineStep_reply s.scheduler _ (honce _ hw)

/-! ## The runs -/

/-- The lines of the source, when it has stopped. -/
def lines (s : JobRun) : List Bytes :=
  if s.source.isSome then tokenize s.scheduler.inputData else []

/-- The lines of the source can be read, and no state was saved. -/
def Fresh (s : JobRun) : Event → Prop
  | .sourceStop _ _ fs _ =>
    Readable (tokenize s.scheduler.inputData) ∧ fs s.scheduler.project.dpeStatePath = none
  | _ => True

instance (s : JobRun) : DecidablePred s.Fresh
  | .sourceStop _ _ fs _ =>
    inferInstanceAs (Decidable
      (Readable (tokenize s.scheduler.inputData) ∧ fs s.scheduler.project.dpeStatePath = none))
  | .sourceOutput _ _ | .sinkOutput _ _ | .sinkExit _ _ | .sinkStop | .reduce _
  | .addDevice _ _ _ | .doAction _ _ | .checkHeartBeat _ _ | .reply _ _ => isTrue trivial

end JobRun

/-- A job, with the answers it has got, and the lines that run but were overtaken: another line
with their id was finished, or put back into the queue, after they were handed out. -/
structure JobWatch where
  run : JobRun
  answers : List TaskAnswer := []
  overtaken : List Int := []

namespace JobWatch

open DPEScheduler JobRun

def start (project : DPEProject) : JobWatch := { run := JobRun.start project }

def step (env : ProjectEnv) : Machine JobWatch Event
  | w, e =>
    (JobRun.step env w.run e).map fun run =>
      { run := run
        answers := w.answers ++ (w.run.answer e).toList
        overtaken := (w.run.leaving e).elim w.overtaken fun idx =>
          w.run.scheduler.projectState.overtake idx w.overtaken }

/-- The job is not changed by being watched. -/
theorem run_run (env : ProjectEnv) (w : JobWatch) (es : List Event) :
    ((step env).run w es).map run = (JobRun.step env).run w.run es := by
  induction es generalizing w with
  | nil => rfl
  | cons e es ih =>
    rw [Machine.run, Machine.run, step]
    cases JobRun.step env w.run e with
    | none => rfl
    | some t => exact ih _

/-- Each line has its answer: what came back from a device that was sent the input of this line is
its result. -/
def Complete (lines : List Bytes) (answers : List TaskAnswer) (tasks : List DPETask) : Prop :=
  tasks.length = lines.length ∧
    ∀ (i : Nat) (line : Bytes), lines[i]? = some line →
      ∃ task a, tasks[i]? = some task ∧ a ∈ answers ∧ a.idx = i ∧
        a.input = (DPEProjectState.taskOfLine line).data ∧ task.result = a.output

/-- The results that have been written are complete. -/
def Reduced (w : JobWatch) : Prop :=
  ∀ r ∈ w.run.reductions, Complete w.run.lines w.answers r.tasks

/-- When `ReduceResult` runs and no line waits, one of the lines that run, if there are any, has not
been overtaken. -/
def NotEarly (w : JobWatch) : Event → Prop
  | .reduce _ => w.run.scheduler.taskQueue = [] →
      w.run.scheduler.projectState.runningTasks ≠ [] →
      ∃ t ∈ w.run.scheduler.projectState.runningTasks, t.2 ∉ w.overtaken
  | _ => True

instance (w : JobWatch) : DecidablePred w.NotEarly
  | .reduce _ =>
    inferInstanceAs (Decidable (w.run.scheduler.taskQueue = [] →
      w.run.scheduler.projectState.runningTasks ≠ [] →
      ∃ t ∈ w.run.scheduler.projectState.runningTasks, t.2 ∉ w.overtaken))
  | .sourceOutput _ _ | .sourceStop _ _ _ _ | .sinkOutput _ _ | .sinkExit _ _ | .sinkStop
  | .addDevice _ _ _ | .doAction _ _ | .checkHeartBeat _ _ | .reply _ _ => isTrue trivial

/-- Each `DoTask` is answered once, the lines can be read, and no state was saved. -/
def Premise (w : JobWatch) (e : Event) : Prop := w.run.AnsweredOnce e ∧ w.run.Fresh e

instance (w : JobWatch) : DecidablePred w.Premise := fun e =>
  inferInstanceAs (Decidable (w.run.AnsweredOnce e ∧ w.run.Fresh e))

structure Inv (w : JobWatch) : Prop where
  blank : w.run.source = none → w.run.reductions = [] ∧ w.run.reduces = 0
  books : w.run.ended = none → LineBooks w.run.lines w.answers w.overtaken w.run.scheduler

theorem inv_start (project : DPEProject) : (start project).Inv := by
  have hnone : ∀ state id idx, ¬ DPEProjectState.Has state id idx {} := by
    rintro state id idx ⟨i, task, -, hi, -⟩
    cases hi
  refine ⟨fun _ => ⟨rfl, rfl⟩, fun _ => ⟨⟨rfl, ?_, ?_, fun id idx => ?_, List.nodup_nil⟩,
    ⟨?_, ?_, ?_⟩, ⟨?_, ?_⟩, ⟨fun id => ?_, fun idx hidx => ?_⟩⟩⟩
  · rintro i task ⟨⟩
  · rintro i task ⟨⟩
  · exact iff_of_false List.not_mem_nil (hnone _ _ _)
  · rintro j w ⟨⟩
  · rintro j w ⟨⟩
  · rintro j k v w ⟨⟩
  · rintro i task ⟨⟩
  · rintro a ⟨⟩
  · refine iff_of_false Std.TreeMap.not_mem_emptyc ?_
    rintro ⟨idx, hhas, -⟩
    exact hnone _ _ _ hhas
  · cases hidx

theorem blank_lines {w : JobWatch} (hsource : w.run.source = none) : w.run.lines = [] := by
  rw [lines, hsource]
  rfl

theorem lines_put {s : JobRun} {r : DPEScheduler × List SchedulerDeed}
    (hinput : r.1.inputData = s.scheduler.inputData) : (s.put r).lines = s.lines := by
  rw [lines, put_source, put_scheduler, hinput]
  rfl

/-- The source stops. -/
theorem inv_sourceStop {env : ProjectEnv} {w : JobWatch} {exit : ExitReason × Int} {fs : FileSystem}
    {starts : Bool} (h : w.Inv) (hended : w.run.ended = none) (hsource : w.run.source = none)
    (hlines : Readable (tokenize w.run.scheduler.inputData))
    (hsaved : fs w.run.scheduler.project.dpeStatePath = none) :
    let run := { w.run with source := some exit }.put
      (w.run.scheduler.onSourceStop env fs starts)
    Inv { w with run := run } ∧ run.reductions = [] := by
  have hbooks := h.books hended
  rw [blank_lines hsource] at hbooks
  have hstopped := hbooks.sourceStopped env hlines hsaved
  obtain ⟨hreductions, -⟩ := h.blank hsource
  refine ⟨⟨fun hs => ?_, fun he => ?_⟩, (put_reductions _ _).trans hreductions⟩
  · rw [put_source] at hs
    cases hs
  · rcases onSourceStop_cases env fs starts w.run.scheduler with ⟨hdeeds, -⟩ | ⟨-, hr⟩ | ⟨-, hr⟩
    · rw [put, hdeeds] at he
      cases he
    · rw [hr, put_scheduler, lines_put rfl]
      exact hstopped
    · rw [hr, put_scheduler, lines_put (onDeviceAvailable_inputData _)]
      exact hstopped.onDeviceAvailable

/-- What a step keeps; only `ReduceResult` writes results. -/
theorem inv_step {env : ProjectEnv} {w t : JobWatch} {e : Event} (h : w.Inv) (hpre : w.Premise e)
    (hs : step env w e = some t) :
    t.Inv ∧ t.answers = w.answers ++ (w.run.answer e).toList ∧
      (t.run.reductions = w.run.reductions ∧ (w.run.reductions = [] ∨ t.run.lines = w.run.lines) ∨
        ∃ exit, e = .reduce exit) := by
  obtain ⟨run, hrun, rfl⟩ := Option.map_eq_some_iff.1 hs
  obtain ⟨hended, -⟩ := stepped_of_step hrun
  have hbooks := h.books hended
  cases lineStepped_of_step hpre.1 hrun with
  | sourceOutput hsource =>
    refine ⟨⟨fun _ => h.blank hsource, fun _ => ?_⟩, rfl, .inl ⟨rfl, .inl (h.blank hsource).1⟩⟩
    rw [blank_lines hsource] at hbooks
    simp only [answer, leaving, Option.toList_none, List.append_nil, Option.elim_none]
    rw [lines, hsource]
    exact ⟨hbooks.tasks, hbooks.devices, hbooks.answered, hbooks.mapped⟩
  | sourceStop hsource =>
    obtain ⟨hinv, hnil⟩ := @inv_sourceStop env _ _ _ _ h hended hsource hpre.2.1 hpre.2.2
    obtain ⟨hreductions, -⟩ := h.blank hsource
    simp only [answer, leaving, Option.toList_none, List.append_nil, Option.elim_none]
    exact ⟨hinv, trivial, .inl ⟨hnil.trans hreductions.symm, .inl hreductions⟩⟩
  | @reduce exit hposted =>
    refine ⟨?_, rfl, .inr ⟨exit, rfl⟩⟩
    have hblank : w.run.source ≠ none := fun hsource => hposted (h.blank hsource).2
    simp only [answer, leaving, Option.toList_none, List.append_nil, Option.elim_none]
    rcases reduce_cases exit w.run with ⟨-, heq⟩ | ⟨-, taken, sink, heq⟩
    · rw [heq]
      exact ⟨fun hsource => absurd hsource hblank, fun _ => hbooks⟩
    · rw [heq]
      exact ⟨fun hsource => absurd hsource hblank, fun _ => hbooks⟩
  | addDevice hstate =>
    refine ⟨⟨h.blank, fun _ => ?_⟩, rfl, .inl ⟨rfl, .inr rfl⟩⟩
    simp only [answer, leaving, Option.toList_none, List.append_nil, Option.elim_none]
    exact hbooks.add rfl hstate
  | sink hanswer hleaving hscheduler hsource hreduces hreductions =>
    have hlines : run.lines = w.run.lines := by
      rw [lines, hsource, hscheduler]
      rfl
    refine ⟨⟨fun hs => ?_, fun _ => ?_⟩, rfl, .inl ⟨hreductions, .inr hlines⟩⟩
    · rw [hreductions, hreduces]
      exact h.blank (hsource.symm.trans hs)
    · simp only [hanswer, hleaving, Option.toList_none, List.append_nil, Option.elim_none]
      rw [hlines, hscheduler]
      exact ⟨hbooks.tasks, hbooks.devices, hbooks.answered, hbooks.mapped⟩
  | @device _ k v r hv hstep =>
    have hlines := lines_put (s := w.run) (lineStep_inputData hstep)
    refine ⟨⟨fun hs => ?_, fun he => ?_⟩, rfl, .inl ⟨put_reductions _ _, .inr hlines⟩⟩
    · rw [put_source] at hs
      obtain ⟨hreductions, hreduces⟩ := h.blank hs
      refine ⟨(put_reductions _ _).trans hreductions, ?_⟩
      rw [blank_lines hs] at hbooks
      rcases lineStep_books hbooks hv hstep with hdeeds | ⟨-, hdeeds | ⟨-, hun⟩⟩
      · rw [put, hdeeds]
        exact hreduces
      · rw [put, hdeeds]
        exact hreduces
      · obtain ⟨-, -, -, hquiet⟩ := hbooks.blank
        cases (hquiet k v hv).symm.trans hun
    · rcases lineStep_books hbooks hv hstep with hdeeds | ⟨hnext, -⟩
      · rw [put, hdeeds] at he
        cases he
      · rw [hlines, put_scheduler]
        exact hnext

/-! ## Whether the results are complete -/

section
variable {lines : List Bytes} {answers : List TaskAnswer} {overtaken : List Int} {s : DPEScheduler}

/-- When no line waits, all have been answered if none runs. -/
theorem complete_iff (h : LineBooks lines answers overtaken s) (hqueue : s.taskQueue = []) :
    Complete lines answers s.projectState.taskData ↔ s.projectState.runningTasks = [] := by
  have hlength : s.projectState.taskData.length = lines.length := by
    rw [← List.length_map (f := DPETask.line), h.tasks.lines, List.length_map]
  constructor
  · rintro ⟨-, hall⟩
    refine List.eq_nil_iff_forall_not_mem.2 fun t hmem => ?_
    obtain ⟨id, idx⟩ := t
    obtain ⟨i, task, -, hi, -, hrunning⟩ := s.projectState.mem_runningTasks.1 hmem
    obtain ⟨hlt, -⟩ := List.getElem?_eq_some_iff.1 hi
    obtain ⟨-, a, -, ha, hidx, -⟩ := hall i _ (List.getElem?_eq_getElem (hlength ▸ hlt))
    obtain ⟨j, task', hidx', hj, hfinish⟩ := h.answered.only a ha
    obtain rfl : i = j := Int.ofNat_inj.1 (hidx.symm.trans hidx')
    obtain rfl := Option.some.inj (hi.symm.trans hj)
    cases hrunning.symm.trans hfinish
  · intro hnone
    refine ⟨hlength, fun i line hline => ?_⟩
    have hi := congrArg (fun l => l[i]?) h.tasks.lines
    simp only [List.getElem?_map, hline, Option.map_some, Option.map_eq_some_iff] at hi
    obtain ⟨task, hi, heq⟩ := hi
    have hdata : task.data = (DPEProjectState.taskOfLine line).data :=
      congrArg (fun input : Bytes => String.ofList (Decimal.chars (input ++ [10])))
        (congrArg (fun l : Int × Bytes × Bool => l.2.1) heq)
    have hfinish : task.state = .finish := by
      cases hstate : task.state with
      | pending =>
        have hmem := (h.tasks.queued task.id i).2 ⟨i, task, rfl, hi, rfl, hstate⟩
        rw [hqueue] at hmem
        cases hmem
      | running =>
        have hmem := s.projectState.mem_runningTasks.2 ⟨i, task, rfl, hi, rfl, hstate⟩
        rw [hnone] at hmem
        cases hmem
      | finish => rfl
      | error => exact absurd hstate (h.tasks.sound i task hi)
    obtain ⟨a, ha, hidx, hinput, houtput⟩ := h.answered.earned i task hi hfinish
    exact ⟨task, a, hi, ha, hidx, hinput.trans hdata, houtput.symm⟩

/-- The map is empty when all that run have been overtaken. -/
theorem runningQueue_isEmpty_iff (h : LineBooks lines answers overtaken s) :
    s.runningQueue.isEmpty = true ↔
      ∀ t ∈ s.projectState.runningTasks, t.2 ∈ overtaken := by
  rw [Std.TreeMap.isEmpty_iff_forall_not_mem]
  constructor
  · rintro hnone ⟨id, idx⟩ hmem
    by_contra hnot
    exact hnone id ((h.mapped.covers id).2 ⟨idx, s.projectState.mem_runningTasks.1 hmem, hnot⟩)
  · intro hall id hmem
    obtain ⟨idx, hhas, hnot⟩ := (h.mapped.covers id).1 hmem
    exact hnot (hall (id, idx) (s.projectState.mem_runningTasks.2 hhas))

end

theorem Complete.mono {lines : List Bytes} {answers more : List TaskAnswer} {tasks : List DPETask}
    (h : Complete lines answers tasks) : Complete lines (answers ++ more) tasks := by
  refine ⟨h.1, fun i line hline => ?_⟩
  obtain ⟨task, a, hi, ha, hrest⟩ := h.2 i line hline
  exact ⟨task, a, hi, List.mem_append_left _ ha, hrest⟩

/-- The results stay complete when none are written. -/
theorem Reduced.keep {w t : JobWatch} {more : List TaskAnswer} (h : w.Reduced)
    (hreductions : t.run.reductions = w.run.reductions)
    (hlines : w.run.reductions = [] ∨ t.run.lines = w.run.lines)
    (hanswers : t.answers = w.answers ++ more) : t.Reduced := by
  intro r hr
  rw [hreductions] at hr
  rcases hlines with hnil | hlines
  · rw [hnil] at hr
    cases hr
  · rw [hlines, hanswers]
    exact (h r hr).mono

/-- A posted `ReduceResult` writes complete results exactly if it is not early. -/
theorem reduced_reduce_iff {env : ProjectEnv} {w t : JobWatch}
    {exit : Option (Nat × ExitReason × Int)} (h : w.Inv) (hred : w.Reduced)
    (hs : step env w (.reduce exit) = some t) : t.Reduced ↔ w.NotEarly (.reduce exit) := by
  obtain ⟨run, hrun, rfl⟩ := Option.map_eq_some_iff.1 hs
  obtain ⟨hended, htaken⟩ := taken_of_step hrun
  have hbooks := h.books hended
  cases htaken
  rcases reduce_cases exit w.run with ⟨hbusy, heq⟩ | ⟨⟨hqueue, hempty⟩, taken, sink, heq⟩
  · rw [heq]
    refine iff_of_true (hred.keep rfl (.inr rfl) rfl) fun hqueue hsome => ?_
    by_contra hnot
    refine hbusy ⟨hqueue, (runningQueue_isEmpty_iff hbooks).2 fun t ht => ?_⟩
    by_contra hmem
    exact hnot ⟨t, ht, hmem⟩
  · have hall := (runningQueue_isEmpty_iff hbooks).1 hempty
    rw [heq]
    constructor
    · intro hreduced _ hsome
      have hcomplete := hreduced ⟨w.run.scheduler.projectState.taskData, taken⟩
        (List.mem_append_right _ (List.mem_singleton_self _))
      simp only [answer, Option.toList_none, List.append_nil] at hcomplete
      exact absurd ((complete_iff hbooks hqueue).1 hcomplete) hsome
    · intro hearly r hr
      simp only [answer, Option.toList_none, List.append_nil]
      rcases List.mem_append.1 hr with hr | hr
      · exact hred r hr
      · rw [List.mem_singleton.1 hr]
        refine (complete_iff hbooks hqueue).2 (by_contra fun hsome => ?_)
        obtain ⟨t, ht, hnot⟩ := hearly hqueue hsome
        exact hnot (hall t ht)

theorem reduced_step_iff {env : ProjectEnv} {w : JobWatch} {e : Event} (h : w.Inv)
    (hred : w.Reduced) (hpre : w.Premise e) (hsome : (step env w e).isSome = true) :
    (∀ t, step env w e = some t → t.Reduced) ↔ w.NotEarly e := by
  obtain ⟨t, hs⟩ := Option.isSome_iff_exists.1 hsome
  have hone : (∀ u, step env w e = some u → u.Reduced) ↔ t.Reduced := by
    simp only [hs, Option.some_inj, forall_eq']
  rw [hone]
  cases e with
  | reduce exit => exact reduced_reduce_iff h hred hs
  | _ =>
    refine iff_of_true ?_ trivial
    obtain ⟨-, hanswers, ⟨hreductions, hlines⟩ | ⟨_, ⟨⟩⟩⟩ := inv_step h hpre hs
    exact hred.keep hreductions hlines hanswers

/-- **When the results are all there.**  The source prints lines that can be read, ids may be
repeated, and each `DoTask` is answered once.  In every state of a run each line whose results were
written had been answered before, with the output for its own input, exactly in the runs in which
`ReduceResult` is never early. -/
theorem reduced_iff {env : ProjectEnv} {project : DPEProject} {es : List Event} {w : JobWatch}
    (hrun : (step env).run (start project) es = some w)
    (hpre : (step env).Meets Premise (start project) es) :
    (∀ pre t, pre <+: es → (step env).run (start project) pre = some t → t.Reduced) ↔
      (step env).Meets NotEarly (start project) es := by
  have hstart : (start project).Reduced := by
    rintro r ⟨⟩
  exact Machine.always_iff_of_meets (fun w e t hF hinv _ _ hs => (inv_step hinv hF.1 hs).1)
    (fun w e hF hinv hreduced => reduced_step_iff hinv hreduced hF.1 hF.2)
    (hpre.and (Machine.meets_isSome hrun)) (inv_start project) hstart

/-- As long as the job goes on, the result of a finished line is what came back with the input of
this line. -/
theorem answered_run {env : ProjectEnv} {project : DPEProject} {es : List Event} {w : JobWatch}
    (hrun : (step env).run (start project) es = some w)
    (hpre : (step env).Meets Premise (start project) es) (hended : w.run.ended = none) :
    Answered w.run.scheduler.projectState w.answers := by
  have hinv : w.Inv := Machine.run_invariant_of_meets
    (fun _ _ _ hinv hF hs => (inv_step hinv hF hs).1) (inv_start project) hpre hrun
  exact (hinv.books hended).answered

/-- Two lines with one id. -/
def twoLines : List Event :=
  [.sourceOutput true (Decimal.bytes "5:x\n5:y\n".toList),
    .sourceStop .exit 0 (fun _ => none) true]

/-- One device runs them, one after the other. -/
def oneDeviceEvents : List Event :=
  twoLines ++ ([.addDevice "pa" "1" (some sampleArgs), .reply 0 (.initJob "0"),
    .reply 0 (.doTask "0" (some "5") (some [88])), .reply 0 (.doTask "0" (some "5") (some [89])),
    .reduce none] : List Event)

theorem oneDeviceEvents_run :
    ((step sampleEnv).run (start {}) oneDeviceEvents).isSome = true := by decide

theorem reduced_iff_one_device : ∃ w, (step sampleEnv).run (start {}) oneDeviceEvents = some w ∧
    w.run.reductions.map (fun r => r.tasks.map DPETask.result) = [[[88], [89]]] ∧ w.Reduced := by
  have hrun := (Option.some_get oneDeviceEvents_run).symm
  exact ⟨_, hrun, by decide,
    (reduced_iff hrun (by decide)).2 (by decide) _ _ List.prefix_rfl hrun⟩

/-- Two devices run them, and one has answered when `ReduceResult` runs. -/
def twoDeviceEvents : List Event :=
  twoLines ++ ([.addDevice "pa" "1" (some sampleArgs), .addDevice "pa" "2" (some sampleArgs),
    .reply 0 (.initJob "0"), .reply 1 (.initJob "0"),
    .reply 0 (.doTask "0" (some "5") (some [88])), .reduce none] : List Event)

/-- The other one answers. -/
def lateEvents : List Event :=
  twoDeviceEvents ++ ([.reply 1 (.doTask "0" (some "5") (some [89]))] : List Event)

theorem twoDeviceEvents_run :
    ((step sampleEnv).run (start {}) twoDeviceEvents).isSome = true := by decide

theorem lateEvents_run : ((step sampleEnv).run (start {}) lateEvents).isSome = true := by decide

theorem reduced_before_answered :
    ¬ ∀ (env : ProjectEnv) (project : DPEProject) (es : List Event) (w : JobWatch),
      (step env).run (start project) es = some w →
      (step env).Meets Premise (start project) es →
      ∀ pre t, pre <+: es → (step env).run (start project) pre = some t → t.Reduced := by
  intro h
  have hred := h sampleEnv {} lateEvents _ (Option.some_get lateEvents_run).symm (by decide)
    twoDeviceEvents _ (List.prefix_append _ _) (Option.some_get twoDeviceEvents_run).symm
  obtain ⟨r, hr⟩ : ∃ r, r ∈ (Option.get _ twoDeviceEvents_run).run.reductions :=
    List.exists_mem_of_ne_nil _ (by decide)
  obtain ⟨-, a, -, ha, hidx, -⟩ := (hred r hr).2 1 (Decimal.bytes "5:y".toList) (by decide)
  have hfirst : ∀ a ∈ (Option.get _ twoDeviceEvents_run).answers, a.idx = 0 := by decide
  cases (hfirst a ha).symm.trans hidx

end JobWatch

end Dcfpe

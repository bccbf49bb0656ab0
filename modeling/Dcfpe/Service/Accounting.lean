import Dcfpe.Service.JobStep
import Mathlib.Data.List.Nodup

/-!
# Where the tasks of a job are

The scheduler keeps the state of each task, and next to it two containers: `task_queue_`, by id and
index, and `running_queue_`, by id.  With distinct ids that fit in 32 bits these agree (`Tidy`): the
queue has exactly the pending tasks, and the map exactly the running ones.  A device that has not
answered has one of the running tasks, each a different one (`Sent`).

From this follow where each task is in every state of a run, and that its results are written to the
sink at most once, all of them and in order.
-/

set_option autoImplicit false

namespace Dcfpe

/-! ## The tasks by state -/

namespace DPEProjectState

/-- The task with this id and this index is in this state. -/
def Has (state : DPETaskState) (id idx : Int) (p : DPEProjectState) : Prop :=
  ∃ (i : Nat) (task : DPETask),
    idx = i ∧ p.taskData[i]? = some task ∧ task.id = id ∧ task.state = state

/-- The index leads to the tasks of the lines that have an id. -/
def Indexed (p : DPEProjectState) : Prop :=
  ∀ (id : Int) (i : Nat), p.id2idx[id]? = some i ↔
    ∃ task, p.taskData[i]? = some task ∧ task.id = id ∧ task.state ≠ .error

theorem Indexed.idx_inj {p : DPEProjectState} (h : p.Indexed) {state state' : DPETaskState}
    {id idx idx' : Int} (hs : state ≠ .error) (hs' : state' ≠ .error) (h₁ : p.Has state id idx)
    (h₂ : p.Has state' id idx') : idx = idx' := by
  obtain ⟨i, task, rfl, htask, hid, rfl⟩ := h₁
  obtain ⟨j, task', rfl, htask', hid', rfl⟩ := h₂
  have hi := (h id i).2 ⟨task, htask, hid, hs⟩
  have hj := (h id j).2 ⟨task', htask', hid', hs'⟩
  rw [hi] at hj
  rw [Option.some.inj hj]

theorem Has.state_unique {p : DPEProjectState} {state state' : DPETaskState} {id id' idx : Int}
    (h : p.Has state id idx) (h' : p.Has state' id' idx) : id = id' ∧ state = state' := by
  obtain ⟨i, task, rfl, htask, rfl, rfl⟩ := h
  obtain ⟨j, task', hij, htask', rfl, rfl⟩ := h'
  rw [← Int.ofNat_inj.1 hij, htask] at htask'
  rw [Option.some.inj htask']
  exact ⟨rfl, rfl⟩

theorem getTask_of_has {p : DPEProjectState} {state : DPETaskState} {id idx : Int}
    (h : p.Has state id idx) :
    ∃ (i : Nat) (task : DPETask), idx = i ∧ p.getTask id idx = some i ∧
      p.taskData[i]? = some task ∧ task.id = id ∧ task.state = state := by
  obtain ⟨i, task, rfl, htask, hid, hstate⟩ := h
  obtain ⟨hlt, -⟩ := List.getElem?_eq_some_iff.1 htask
  refine ⟨i, task, rfl, ?_, htask, hid, hstate⟩
  have hin : ¬ ((i : Int) < 0 ∨ (i : Int) ≥ p.taskData.length) := by omega
  simp only [getTask, if_neg hin, Int.toNat_natCast, htask, if_neg (not_not.2 hid)]

/-- The tasks that `GetTask` finds by their id alone. -/
theorem index_of_getTask {p : DPEProjectState} {id : Int} {i : Nat}
    (h : p.getTask id (-1) = some i) : p.id2idx[id]? = some i := by
  simp only [getTask, if_pos (Or.inl (by decide : (-1 : Int) < 0))] at h
  split at h
  · next j hj =>
    split at h
    · cases h
    · split at h
      · split at h
        · cases h
        · rw [hj, ← Option.some.inj h, Int.toNat_natCast]
      · cases h
  · cases h

section
variable {p : DPEProjectState} {i : Nat} {task : DPETask} {f : DPETask → DPETask}
  {state : DPETaskState}

/-- A task is put into another state. -/
theorem has_setTask (htask : p.taskData[i]? = some task) (hid : (f task).id = task.id)
    (hstate : (f task).state = state) {state' : DPETaskState} {id idx : Int} :
    (p.setTask i f).Has state' id idx ↔
      idx = i ∧ id = task.id ∧ state' = state ∨ idx ≠ i ∧ p.Has state' id idx := by
  constructor
  · rintro ⟨j, task', rfl, htask', rfl, rfl⟩
    rw [setTask_getElem?] at htask'
    split at htask'
    · next hij =>
      subst hij
      rw [htask] at htask'
      obtain rfl := Option.some.inj htask'
      exact .inl ⟨rfl, hid, hstate⟩
    · next hij => exact .inr ⟨by omega, j, task', rfl, htask', rfl, rfl⟩
  · rintro (⟨rfl, rfl, rfl⟩ | ⟨hne, j, task', rfl, htask', rfl, rfl⟩)
    · exact ⟨i, f task, rfl, by simp [setTask_getElem?, htask], hid, hstate⟩
    · have hij : i ≠ j := fun hij => hne (by rw [hij])
      exact ⟨j, task', rfl, by rw [setTask_getElem?, if_neg hij, htask'], rfl, rfl⟩

end

theorem mem_makeTaskQueue (p : DPEProjectState) {id idx : Int} :
    (id, idx) ∈ p.makeTaskQueue ↔ p.Has .pending id idx := by
  rw [makeTaskQueue, List.mem_filterMap]
  constructor
  · rintro ⟨⟨task, i⟩, hmem, heq⟩
    rw [List.mem_zipIdx_iff_getElem?] at hmem
    dsimp only at heq
    split at heq
    · next hpending =>
      obtain ⟨rfl, rfl⟩ := Prod.ext_iff.1 (Option.some.inj heq)
      exact ⟨i, task, rfl, hmem, rfl, hpending⟩
    · cases heq
  · rintro ⟨i, task, rfl, hi, rfl, hpending⟩
    exact ⟨(task, i), List.mem_zipIdx_iff_getElem?.2 hi, if_pos hpending⟩

theorem nodup_makeTaskQueue (p : DPEProjectState) : p.makeTaskQueue.Nodup := by
  rw [makeTaskQueue, List.Nodup, List.pairwise_filterMap]
  have hrange : (p.taskData.zipIdx.map Prod.snd).Pairwise (· < ·) := by
    rw [List.zipIdx_map_snd]
    exact List.pairwise_lt_range'
  refine (List.pairwise_map.1 hrange).imp fun {a b} hlt x hx y hy hxy => ?_
  obtain ⟨task, i⟩ := a
  obtain ⟨task', j⟩ := b
  dsimp only at hx hy
  split at hx
  · split at hy
    · rw [← Option.some.inj hx, ← Option.some.inj hy] at hxy
      have hsnd := (Prod.ext_iff.1 hxy).2
      simp only at hsnd
      omega
    · cases hy
  · cases hx

end DPEProjectState

/-- What a task has from its line. -/
def DPETask.line (task : DPETask) : Int × Bytes × Bool := (task.id, task.input, task.state = .error)

/-- The tasks are those of the lines. -/
structure Loaded (lines : List Bytes) (p : DPEProjectState) : Prop where
  indexed : p.Indexed
  fits : ∀ (i : Nat) (task : DPETask), p.taskData[i]? = some task → task.state ≠ .error →
    -2 ^ 31 ≤ task.id ∧ task.id ≤ 2 ^ 31 - 1
  lines : p.taskData.map DPETask.line =
    lines.map fun line => (DPEProjectState.taskOfLine line).line

theorem Loaded.length {lines : List Bytes} {p : DPEProjectState} (h : Loaded lines p) :
    p.taskData.length = lines.length := by
  rw [← List.length_map (f := DPETask.line), h.lines, List.length_map]

theorem Loaded.setTask {lines : List Bytes} {p : DPEProjectState} (h : Loaded lines p) {i : Nat}
    {task : DPETask} {f : DPETask → DPETask} (htask : p.taskData[i]? = some task)
    (hline : (f task).line = task.line) : Loaded lines (p.setTask i f) := by
  obtain ⟨hid, -, herror⟩ : (f task).id = task.id ∧ (f task).input = task.input ∧
      ((f task).state = .error ↔ task.state = .error) := by
    simpa [DPETask.line] using hline
  have hold : ∀ (j : Nat) task', (p.setTask i f).taskData[j]? = some task' →
      ∃ task, p.taskData[j]? = some task ∧ task'.line = task.line := by
    intro j task' htask'
    rw [DPEProjectState.setTask_getElem?] at htask'
    split at htask'
    · next hij =>
      rw [← hij, htask, Option.map_some] at htask'
      obtain rfl := Option.some.inj htask'
      exact ⟨task, hij ▸ htask, hline⟩
    · exact ⟨task', htask', rfl⟩
  refine ⟨fun id j => (h.indexed id j).trans ?_, fun j task' htask' hne => ?_, ?_⟩
  · rw [DPEProjectState.setTask_getElem?]
    split
    · next hij =>
      rw [← hij, htask]
      simp [hid, herror]
    · exact Iff.rfl
  · obtain ⟨task₀, htask₀, heq⟩ := hold j task' htask'
    simp only [DPETask.line, Prod.mk.injEq, decide_eq_decide] at heq
    rw [heq.1]
    exact h.fits j task₀ htask₀ fun hc => hne (heq.2.2.2 hc)
  · rw [← h.lines]
    refine List.ext_getElem? fun j => ?_
    rw [List.getElem?_map, List.getElem?_map, DPEProjectState.setTask_getElem?]
    split
    · next hij =>
      rw [← hij, htask, Option.map_some, Option.map_some, Option.map_some, hline]
    · rfl

/-- No two lines have the same id, and the ids fit in 32 bits. -/
def Distinct (lines : List Bytes) : Prop :=
  (lineIds lines).Nodup ∧ ∀ id ∈ lineIds lines, -2 ^ 31 ≤ id ∧ id ≤ 2 ^ 31 - 1

instance : DecidablePred Distinct := fun lines =>
  inferInstanceAs (Decidable ((lineIds lines).Nodup ∧ ∀ id ∈ lineIds lines, _))

theorem mem_lineIds {lines : List Bytes} {j : Nat} {line pre input : Bytes}
    (hline : lines[j]? = some line) (hsplit : splitColon line = some (pre, input)) :
    atoll pre ∈ lineIds lines :=
  List.mem_filterMap.2 ⟨line, List.mem_of_getElem? hline, by rw [hsplit, Option.map_some]⟩

theorem loaded_addInputData {data : Bytes} (h : Distinct (tokenize data)) :
    Loaded (tokenize data) (DPEProjectState.addInputData data {}) := by
  have htask : ∀ (i : Nat) task,
      (DPEProjectState.addInputData data {}).taskData[i]? = some task → task.state ≠ .error →
      ∃ line pre, (tokenize data)[i]? = some line ∧ splitColon line = some (pre, task.input) ∧
        task.id = atoll pre := by
    intro i task htask hne
    rw [DPEProjectState.addInputData, List.getElem?_map, Option.map_eq_some_iff] at htask
    obtain ⟨line, hline, rfl⟩ := htask
    rw [DPEProjectState.taskOfLine] at hne ⊢
    split at hne
    · next pre input hsplit => exact ⟨line, pre, hline, hsplit, rfl⟩
    · exact absurd rfl hne
  refine ⟨fun id i => ⟨fun hi => ?_, ?_⟩, fun i task hi hne => ?_, ?_⟩
  · obtain ⟨j, line, p, hij, hj, hp, rfl⟩ :=
      DPEProjectState.of_indexLines_getElem? 0 hi (by simp)
    rw [Nat.zero_add] at hij
    refine ⟨DPEProjectState.taskOfLine line, ?_, ?_, ?_⟩
    · rw [DPEProjectState.addInputData, List.getElem?_map, hij, hj, Option.map_some]
    · rw [DPEProjectState.taskOfLine, hp]
    · rw [DPEProjectState.taskOfLine, hp]
      simp
  · rintro ⟨task, hi, rfl, hne⟩
    obtain ⟨line, pre, hline, hsplit, hid⟩ := htask i task hi hne
    have hfound := DPEProjectState.indexLines_getElem? h.1 hline hsplit 0 ∅
    rwa [Nat.zero_add, ← hid] at hfound
  · obtain ⟨line, pre, hline, hsplit, hid⟩ := htask i task hi hne
    rw [hid]
    exact h.2 _ (mem_lineIds hline hsplit)
  · rw [DPEProjectState.addInputData, List.map_map]
    rfl

/-- No task is running. -/
def Unstarted (p : DPEProjectState) : Prop := ∀ task ∈ p.taskData, task.state ≠ .running

theorem unstarted_addInputData (data : Bytes) :
    Unstarted (DPEProjectState.addInputData data {}) := by
  intro task htask
  obtain ⟨line, -, rfl⟩ := List.mem_map.1 htask
  rw [DPEProjectState.taskOfLine]
  split <;> exact DPETaskState.noConfusion

/-- What the state file says about the tasks. -/
theorem loaded_loadLines {lines : List Bytes} (saved : List Bytes) {p : DPEProjectState}
    (h : Loaded lines p) (hu : Unstarted p) :
    Loaded lines (DPEProject.loadLines saved p).2 ∧ Unstarted (DPEProject.loadLines saved p).2 := by
  induction saved generalizing p with
  | nil => exact ⟨h, hu⟩
  | cons line saved ih =>
    rw [DPEProject.loadLines]
    split
    · next id result hsplit =>
      split
      · next i hget =>
        obtain ⟨task, htask, -, hne⟩ := (h.indexed _ i).1 (DPEProjectState.index_of_getTask hget)
        refine ih (h.setTask htask (by simp [DPETask.line, hne])) fun task' htask' => ?_
        obtain ⟨j, hj⟩ := List.getElem?_of_mem htask'
        rw [DPEProjectState.setTask_getElem?] at hj
        split at hj
        · obtain ⟨task₀, -, rfl⟩ := Option.map_eq_some_iff.1 hj
          exact DPETaskState.noConfusion
        · exact hu task' (List.mem_of_getElem? hj)
      · exact ih h hu
    · exact ⟨h, hu⟩

theorem loaded_loadSavedState {lines : List Bytes} (env : ProjectEnv) (fs : FileSystem)
    (project : DPEProject) {p : DPEProjectState} (h : Loaded lines p) (hu : Unstarted p) :
    Loaded lines (project.loadSavedState env fs p).2 ∧
      Unstarted (project.loadSavedState env fs p).2 := by
  rw [DPEProject.loadSavedState]
  split
  · exact ⟨h, hu⟩
  · split
    · exact ⟨h, hu⟩
    · exact loaded_loadLines _ h hu

/-! ## The containers -/

/-- The containers of the scheduler agree with the states of the tasks. -/
structure Tidy (lines : List Bytes) (p : DPEProjectState) (queue : List (Int × Int))
    (running : Std.TreeMap Int Int) : Prop extends Loaded lines p where
  queued : ∀ id idx, (id, idx) ∈ queue ↔ p.Has .pending id idx
  once : queue.Nodup
  running : ∀ id idx, running[id]? = some idx ↔ p.Has .running id idx

namespace Tidy

variable {lines : List Bytes} {p : DPEProjectState} {queue : List (Int × Int)}
  {running : Std.TreeMap Int Int} {id idx : Int}

theorem blank : Tidy [] {} [] ∅ := by
  refine ⟨⟨fun id i => ⟨fun hi => ?_, ?_⟩, ?_, rfl⟩, fun id idx => ⟨?_, ?_⟩, List.nodup_nil,
    fun id idx => ⟨fun hi => ?_, ?_⟩⟩
  · simp at hi
  · rintro ⟨task, hi, -⟩
    cases hi
  · intro i task hi
    cases hi
  · intro hmem
    cases hmem
  · rintro ⟨i, task, -, hi, -⟩
    cases hi
  · simp at hi
  · rintro ⟨i, task, -, hi, -⟩
    cases hi

/-- The queue is made of the tasks. -/
theorem start (h : Loaded lines p) (hu : Unstarted p) : Tidy lines p p.makeTaskQueue ∅ := by
  refine ⟨h, fun id idx => p.mem_makeTaskQueue, p.nodup_makeTaskQueue, fun id idx => ?_⟩
  refine ⟨fun hrun => ?_, ?_⟩
  · simp at hrun
  · rintro ⟨i, task, -, hi, -, hstate⟩
    exact absurd hstate (hu task (List.mem_of_getElem? hi))

/-- The front of the queue is handed out. -/
theorem hand (h : Tidy lines p ((id, idx) :: queue) running) {i : Nat}
    (hget : p.getTask id idx = some i) :
    idx = i ∧ Tidy lines (p.setTask i fun task => { task with state := .running }) queue
      (running.insertIfNew id idx) := by
  have hhas := (h.queued id idx).1 List.mem_cons_self
  obtain ⟨j, task, rfl, hj, htask, rfl, hpending⟩ := DPEProjectState.getTask_of_has hhas
  obtain rfl := Option.some.inj (hj.symm.trans hget)
  have hset := @DPEProjectState.has_setTask p j task
    (fun task => { task with state := .running }) .running htask rfl rfl
  obtain ⟨hnew, honce⟩ := List.nodup_cons.1 h.once
  refine ⟨rfl, h.toLoaded.setTask htask (by simp [DPETask.line, hpending]), ?_, honce, ?_⟩
  · intro id' idx'
    rw [hset, ← h.queued, List.mem_cons]
    constructor
    · intro hmem
      refine .inr ⟨?_, .inr hmem⟩
      rintro rfl
      have hhas' := (h.queued id' j).1 (List.mem_cons_of_mem _ hmem)
      rw [(hhas'.state_unique hhas).1] at hmem
      exact hnew hmem
    · rintro (⟨-, -, heq⟩ | ⟨hne', heq | hmem⟩)
      · cases heq
      · exact absurd (Prod.ext_iff.1 heq).2 hne'
      · exact hmem
  · intro id' idx'
    have hfresh : task.id ∉ running := by
      intro hmem
      rw [Std.TreeMap.mem_iff_isSome_getElem?, Option.isSome_iff_exists] at hmem
      obtain ⟨idx'', hrun⟩ := hmem
      have hrun := (h.running _ _).1 hrun
      have heq := h.indexed.idx_inj (by decide) (by decide) hhas hrun
      rw [← heq] at hrun
      cases (hhas.state_unique hrun).2
    have hother : ∀ id' idx' : Int, running[id']? = some idx' → idx' ≠ j := by
      rintro id' idx' hrun rfl
      cases (hhas.state_unique ((h.running _ _).1 hrun)).2
    rw [Std.TreeMap.getElem?_insertIfNew, hset, ← h.running]
    by_cases heq : id' = task.id
    · rw [heq, if_pos ⟨Std.ReflCmp.compare_self, hfresh⟩, Std.TreeMap.getElem?_eq_none hfresh]
      simp [eq_comm]
    · rw [if_neg fun hc => heq (Std.LawfulEqCmp.eq_of_compare hc.1).symm]
      exact ⟨fun hrun => .inr ⟨hother id' idx' hrun, hrun⟩,
        fun hc => hc.elim (fun hc => absurd hc.2.1 heq) And.right⟩

/-- The running tasks without that of some id. -/
theorem erase_running (h : Tidy lines p queue running) (hrun : running[id]? = some idx)
    (id' idx' : Int) :
    (running.erase id)[id']? = some idx' ↔ idx' ≠ idx ∧ p.Has .running id' idx' := by
  rw [Std.TreeMap.getElem?_erase, ← h.running]
  by_cases heq : id = id'
  · subst heq
    rw [if_pos Std.ReflCmp.compare_self, hrun]
    simp [eq_comm]
  · rw [if_neg fun hc => heq (Std.LawfulEqCmp.eq_of_compare hc)]
    refine ⟨fun hrun' => ⟨?_, hrun'⟩, And.right⟩
    rintro rfl
    exact heq (((h.running _ _).1 hrun).state_unique ((h.running _ _).1 hrun')).1

/-- A running task is put into another state. -/
theorem leave (h : Tidy lines p queue running) (hrun : running[id]? = some idx) :
    ∃ i : Nat, idx = i ∧ p.getTask id idx = some i ∧
      ∀ (f : DPETask → DPETask) (state : DPETaskState), (∀ task, (f task).id = task.id) →
        (∀ task, (f task).input = task.input) → (∀ task, (f task).state = state) →
        state ≠ .error → state ≠ .running →
        Loaded lines (p.setTask i f) ∧
        (∀ id' idx', (running.erase id)[id']? = some idx' ↔
          (p.setTask i f).Has .running id' idx') ∧
        (∀ id' idx', (p.setTask i f).Has .pending id' idx' ↔
          state = .pending ∧ id' = id ∧ idx' = idx ∨ (id', idx') ∈ queue) := by
  have hhas := (h.running id idx).1 hrun
  obtain ⟨i, task, rfl, hget, htask, rfl, hstate⟩ := DPEProjectState.getTask_of_has hhas
  refine ⟨i, rfl, hget, fun f state hid hinput hf herror hother => ?_⟩
  have hset := fun state' id' idx' => @DPEProjectState.has_setTask p i task f state htask (hid task)
    (hf task) state' id' idx'
  have hline : (f task).line = task.line := by
    simp [DPETask.line, hid, hinput, hf, hstate, herror]
  refine ⟨h.toLoaded.setTask htask hline, fun id' idx' => ?_, fun id' idx' => ?_⟩
  · rw [h.erase_running hrun, hset]
    exact ⟨.inr, fun hc => hc.elim (fun hc => absurd hc.2.2.symm hother) id⟩
  · rw [hset, h.queued]
    constructor
    · rintro (⟨rfl, rfl, rfl⟩ | ⟨-, hpend⟩)
      · exact .inl ⟨rfl, rfl, rfl⟩
      · exact .inr hpend
    · rintro (⟨rfl, rfl, rfl⟩ | hpend)
      · exact .inl ⟨rfl, rfl, rfl⟩
      · refine .inr ⟨?_, hpend⟩
        rintro rfl
        cases (hhas.state_unique hpend).2

/-- A running task is finished. -/
theorem finish (h : Tidy lines p queue running) (hrun : running[id]? = some idx) (result : Bytes) :
    ∃ i : Nat, idx = i ∧ p.getTask id idx = some i ∧
      Tidy lines (p.setTask i fun task => { task with result := result, state := .finish }) queue
        (running.erase id) := by
  obtain ⟨i, hi, hget, hleave⟩ := h.leave hrun
  obtain ⟨hloaded, hrunning, hpending⟩ :=
    hleave (fun task => { task with result := result, state := .finish }) .finish
      (fun _ => rfl) (fun _ => rfl) (fun _ => rfl) (by decide) (by decide)
  refine ⟨i, hi, hget, hloaded, fun id' idx' => ?_, h.once, hrunning⟩
  rw [hpending]
  simp

/-- A running task goes back to the end of the queue. -/
theorem giveBack (h : Tidy lines p queue running) (hrun : running[id]? = some idx) :
    ∃ i : Nat, idx = i ∧ p.getTask id idx = some i ∧
      Tidy lines (p.setTask i fun task => { task with state := .pending }) (queue ++ [(id, idx)])
        (running.erase id) := by
  obtain ⟨i, hi, hget, hleave⟩ := h.leave hrun
  obtain ⟨hloaded, hrunning, hpending⟩ :=
    hleave (fun task => { task with state := .pending }) .pending
      (fun _ => rfl) (fun _ => rfl) (fun _ => rfl) (by decide) (by decide)
  refine ⟨i, hi, hget, hloaded, fun id' idx' => ?_, ?_, hrunning⟩
  · rw [hpending, List.mem_append, List.mem_singleton, Prod.mk.injEq]
    tauto
  · refine List.nodup_append.2 ⟨h.once, by simp, ?_⟩
    rintro _ hmem _ hsingle rfl
    rw [List.mem_singleton.1 hsingle] at hmem
    cases (((h.running _ _).1 hrun).state_unique ((h.queued _ _).1 hmem)).2

end Tidy

/-! ## The devices -/

/-- The devices that have not answered have something, and each a task of its own. -/
structure Outstanding (Has : Listed → Prop) (workers : List Listed) : Prop where
  has : ∀ (j : Nat) (w : Listed), workers[j]? = some w → w.unanswered = true → Has w
  busy : ∀ (j : Nat) (w : Listed), workers[j]? = some w → w.device.deviceState = .running →
    w.unanswered = true
  alone : ∀ (j k : Nat) (v w : Listed), workers[j]? = some v → workers[k]? = some w →
    v.unanswered = true → w.unanswered = true →
    v.device.currTaskIdx = w.device.currTaskIdx → j = k

namespace Outstanding

variable {Has Has' : Listed → Prop} {workers : List Listed} {k : Nat} {w w' : Listed}

theorem imp (h : Outstanding Has workers)
    (himp : ∀ (j : Nat) (v : Listed), workers[j]? = some v → v.unanswered = true → Has v → Has' v) :
    Outstanding Has' workers :=
  ⟨fun j v hv hvun => himp j v hv hvun (h.has j v hv hvun), h.busy, h.alone⟩

/-- The task of the device that is changed is that of no other one. -/
theorem put (h : Outstanding Has workers) (hhas : w'.unanswered = true → Has w')
    (hbusy : w'.device.deviceState = .running → w'.unanswered = true)
    (hother : w'.unanswered = true → ∀ (j : Nat) (v : Listed), workers[j]? = some v → k ≠ j →
      v.unanswered = true → v.device.currTaskIdx ≠ w'.device.currTaskIdx) :
    Outstanding Has (workers.set k w') := by
  have hset := fun j v (hv : (workers.set k w')[j]? = some v) => getElem?_set_cases hv
  refine ⟨fun j v hv hvun => ?_, fun j v hv hrun => ?_, fun i j u v hu hv huun hvun heq => ?_⟩
  · rcases hset j v hv with ⟨rfl, rfl⟩ | ⟨-, hv'⟩
    · exact hhas hvun
    · exact h.has j v hv' hvun
  · rcases hset j v hv with ⟨rfl, rfl⟩ | ⟨-, hv'⟩
    · exact hbusy hrun
    · exact h.busy j v hv' hrun
  · rcases hset i u hu with ⟨rfl, rfl⟩ | ⟨hki, hu'⟩
    · rcases hset j v hv with ⟨rfl, rfl⟩ | ⟨hkj, hv'⟩
      · rfl
      · exact absurd heq.symm (hother huun j v hv' hkj hvun)
    · rcases hset j v hv with ⟨rfl, rfl⟩ | ⟨-, hv'⟩
      · exact absurd heq (hother hvun i u hu' hki huun)
      · exact h.alone i j u v hu' hv' huun hvun heq

/-- A device keeps its task, if it has not answered. -/
theorem set (h : Outstanding Has workers) (hw : workers[k]? = some w) (htask : w.SameTask w')
    (hkeep : Has w → Has w') (hun : w'.unanswered = true → w.unanswered = true)
    (hbusy : w'.device.deviceState = .running → w'.unanswered = true) :
    Outstanding Has (workers.set k w') := by
  refine h.put (fun hun' => hkeep (h.has k w hw (hun hun'))) hbusy ?_
  intro hun' j v hv hkj hvun heq
  exact hkj (h.alone j k v w hv hw hvun (hun hun') (heq.trans htask.taskIdx)).symm

theorem append (h : Outstanding Has workers) (hun : w.unanswered = false)
    (hstate : w.device.deviceState ≠ .running) : Outstanding Has (workers ++ [w]) := by
  have hold : ∀ (j : Nat) v, (workers ++ [w])[j]? = some v → v.unanswered = true →
      workers[j]? = some v := by
    intro j v hv hvun
    rw [List.getElem?_append] at hv
    split at hv
    · exact hv
    · obtain rfl := List.mem_singleton.1 (List.mem_of_getElem? hv)
      rw [hun] at hvun
      cases hvun
  refine ⟨fun j v hv hvun => h.has j v (hold j v hv hvun) hvun, fun j v hv hrun => ?_,
    fun i j u v hu hv huun hvun heq =>
      h.alone i j u v (hold i u hu huun) (hold j v hv hvun) huun hvun heq⟩
  rw [List.getElem?_append] at hv
  split at hv
  · exact h.busy j v hv hrun
  · obtain rfl := List.mem_singleton.1 (List.mem_of_getElem? hv)
    exact absurd hrun hstate

theorem eraseIdx (h : Outstanding Has workers) (k : Nat) :
    Outstanding Has (workers.eraseIdx k) := by
  have hold : ∀ (j : Nat) v, (workers.eraseIdx k)[j]? = some v →
      workers[if j < k then j else j + 1]? = some v := by
    intro j v hv
    rw [List.getElem?_eraseIdx] at hv
    split at hv
    · next hjk => rwa [if_pos hjk]
    · next hjk => rwa [if_neg hjk]
  refine ⟨fun j v hv => h.has _ v (hold j v hv), fun j v hv => h.busy _ v (hold j v hv),
    fun i j u v hu hv huun hvun heq => ?_⟩
  have hij := h.alone _ _ u v (hold i u hu) (hold j v hv) huun hvun heq
  split at hij <;> split at hij <;> omega

/-- When a device has answered, no other one has its task. -/
theorem set_ne (h : Outstanding Has workers) (hw : workers[k]? = some w)
    (hun : w.unanswered = true) (hun' : w'.unanswered = false) (j : Nat) (v : Listed)
    (hv : (workers.set k w')[j]? = some v) (hvun : v.unanswered = true) :
    v.device.currTaskIdx ≠ w.device.currTaskIdx := by
  intro heq
  rcases getElem?_set_cases hv with ⟨-, rfl⟩ | ⟨hkj, hv'⟩
  · rw [hun'] at hvun
    cases hvun
  · exact hkj (h.alone j k v w hv' hw hvun hun heq).symm

/-- When a device is taken away, no other one has its task. -/
theorem eraseIdx_ne (h : Outstanding Has workers) (hw : workers[k]? = some w)
    (hun : w.unanswered = true) (j : Nat) (v : Listed) (hv : (workers.eraseIdx k)[j]? = some v)
    (hvun : v.unanswered = true) : v.device.currTaskIdx ≠ w.device.currTaskIdx := by
  intro heq
  rw [List.getElem?_eraseIdx] at hv
  split at hv
  · have hjk := h.alone j k v w hv hw hvun hun heq
    omega
  · have hjk := h.alone (j + 1) k v w hv hw hvun hun heq
    omega

end Outstanding

/-- The devices that have not answered have running tasks, each its own. -/
structure Sent (running : Std.TreeMap Int Int) (workers : List Listed) : Prop where
  sent : ∀ (j : Nat) (w : Listed), workers[j]? = some w → w.unanswered = true →
    ∃ id : Int, w.device.currTaskId = toString id ∧ running[id]? = some w.device.currTaskIdx
  busy : ∀ (j : Nat) (w : Listed), workers[j]? = some w → w.device.deviceState = .running →
    w.unanswered = true
  alone : ∀ (j k : Nat) (v w : Listed), workers[j]? = some v → workers[k]? = some w →
    v.unanswered = true → w.unanswered = true →
    v.device.currTaskIdx = w.device.currTaskIdx → j = k

namespace Sent

variable {running : Std.TreeMap Int Int} {workers : List Listed} {k : Nat} {w w' : Listed}

/-- What a device has that was sent a task. -/
def HasTask (running : Std.TreeMap Int Int) (w : Listed) : Prop :=
  ∃ id : Int, w.device.currTaskId = toString id ∧ running[id]? = some w.device.currTaskIdx

theorem outstanding (h : Sent running workers) : Outstanding (HasTask running) workers :=
  ⟨h.sent, h.busy, h.alone⟩

theorem of_outstanding (h : Outstanding (HasTask running) workers) : Sent running workers :=
  ⟨h.has, h.busy, h.alone⟩

/-- A device keeps its task, if it has not answered. -/
theorem set (h : Sent running workers) (hw : workers[k]? = some w) (htask : w.SameTask w')
    (hun : w'.unanswered = true → w.unanswered = true)
    (hbusy : w'.device.deviceState = .running → w'.unanswered = true) :
    Sent running (workers.set k w') := by
  refine .of_outstanding (h.outstanding.set hw htask ?_ hun hbusy)
  rintro ⟨id, hid, hrun⟩
  exact ⟨id, htask.taskId.trans hid, htask.taskIdx ▸ hrun⟩

/-- Where no device has a task, the running tasks do not matter. -/
theorem of_rest (h : Sent running workers) (hrest : ∀ id : Int, running[id]? = none)
    (running' : Std.TreeMap Int Int) : Sent running' workers := by
  refine .of_outstanding (h.outstanding.imp ?_)
  rintro j w hw hun ⟨id, -, hrun⟩
  rw [hrest] at hrun
  cases hrun

theorem append (h : Sent running workers) (hun : w.unanswered = false)
    (hstate : w.device.deviceState ≠ .running) : Sent running (workers ++ [w]) :=
  .of_outstanding (h.outstanding.append hun hstate)

theorem eraseIdx (h : Sent running workers) (k : Nat) : Sent running (workers.eraseIdx k) :=
  .of_outstanding (h.outstanding.eraseIdx k)

/-- The running task of no device is taken away. -/
theorem forget (h : Sent running workers) {id idx : Int} (hrun : running[id]? = some idx)
    (hnone : ∀ (j : Nat) w, workers[j]? = some w → w.unanswered = true →
      w.device.currTaskIdx ≠ idx) : Sent (running.erase id) workers := by
  refine .of_outstanding (h.outstanding.imp ?_)
  rintro j w hw hun ⟨id', hid, hrun'⟩
  refine ⟨id', hid, ?_⟩
  rw [Std.TreeMap.getElem?_erase, if_neg]
  · exact hrun'
  · intro hc
    rw [Std.LawfulEqCmp.eq_of_compare hc, hrun'] at hrun
    exact hnone j w hw hun (Option.some.inj hrun)

/-- The device has answered, and its task is taken away. -/
theorem answered (h : Sent running workers) (hw : workers[k]? = some w)
    (hun : w.unanswered = true) (htask : w.SameTask w') (hun' : w'.unanswered = false)
    (hstate : w'.device.deviceState ≠ .running) {id : Int}
    (hrun : running[id]? = some w.device.currTaskIdx) :
    Sent (running.erase id) (workers.set k w') := by
  have hset : Sent running (workers.set k w') :=
    h.set hw htask (fun hc => by rw [hun'] at hc; cases hc) fun hc => absurd hc hstate
  exact hset.forget hrun (h.outstanding.set_ne hw hun hun')

/-- The device is taken away, with its task. -/
theorem lost (h : Sent running workers) (hw : workers[k]? = some w) (hun : w.unanswered = true)
    {id : Int} (hrun : running[id]? = some w.device.currTaskIdx) :
    Sent (running.erase id) (workers.eraseIdx k) :=
  (h.eraseIdx k).forget hrun (h.outstanding.eraseIdx_ne hw hun)

/-- A device gets a task that was not running. -/
theorem give (h : Sent running workers) {id idx : Int} (hnew : id ∉ running)
    (hidx : ∀ id' : Int, running[id']? ≠ some idx) (k : Nat) (w : Listed) (task : DPETask) :
    Sent (running.insertIfNew id idx) (workers.set k (w.given id idx task)) := by
  have hkeep : ∀ id' idx' : Int, running[id']? = some idx' →
      (running.insertIfNew id idx)[id']? = some idx' := by
    intro id' idx' hrun
    rw [Std.TreeMap.getElem?_insertIfNew, if_neg]
    · exact hrun
    · rintro ⟨hc, -⟩
      rw [Std.LawfulEqCmp.eq_of_compare hc, Std.TreeMap.mem_iff_isSome_getElem?, hrun] at hnew
      exact hnew rfl
  have hmore : Outstanding (HasTask (running.insertIfNew id idx)) workers := by
    refine h.outstanding.imp ?_
    rintro j v hv hvun ⟨id', hid', hrun'⟩
    exact ⟨id', hid', hkeep _ _ hrun'⟩
  refine .of_outstanding (hmore.put (fun _ => ⟨id, rfl, ?_⟩) (fun _ => rfl) ?_)
  · rw [Std.TreeMap.getElem?_insertIfNew, if_pos ⟨Std.ReflCmp.compare_self, hnew⟩]
    rfl
  · rintro - j v hv - hvun heq
    obtain ⟨id', -, hrun⟩ := h.sent j v hv hvun
    exact hidx id' (hrun.trans (congrArg some heq))

end Sent

/-! ## The scheduler -/

namespace DPEScheduler

/-- The books of a scheduler that was given some lines. -/
def Books (lines : List Bytes) (s : DPEScheduler) : Prop :=
  Tidy lines s.projectState s.taskQueue s.runningQueue ∧ Sent s.runningQueue s.deviceList

variable {lines : List Bytes} {s : DPEScheduler} {k : Nat} {w w' : Listed}

theorem Books.tidy (h : s.Books lines) :
    Tidy lines s.projectState s.taskQueue s.runningQueue := h.1

theorem Books.sent (h : s.Books lines) : Sent s.runningQueue s.deviceList := h.2

theorem books_handOut {t : DPEScheduler} (h : s.Books lines) (hstep : s.HandOut t) :
    t.Books lines := by
  cases hstep with
  | @dropped id idx queue hqueue htask =>
    have hhas := (h.tidy.queued id idx).1 (hqueue ▸ List.mem_cons_self)
    obtain ⟨i, -, -, hget, -⟩ := DPEProjectState.getTask_of_has hhas
    cases htask.symm.trans hget
  | @handed id idx queue k i worker task hqueue hget htask hworker hidle =>
    have htidy := h.tidy
    rw [hqueue] at htidy
    have hhas := (htidy.queued id idx).1 List.mem_cons_self
    have hidx : ∀ id' : Int, s.runningQueue[id']? ≠ some idx := by
      intro id' hrun
      cases (hhas.state_unique ((htidy.running _ _).1 hrun)).2
    have hnew : id ∉ s.runningQueue := by
      intro hmem
      rw [Std.TreeMap.mem_iff_isSome_getElem?, Option.isSome_iff_exists] at hmem
      obtain ⟨idx', hrun⟩ := hmem
      have heq := htidy.indexed.idx_inj (by decide) (by decide) hhas ((htidy.running _ _).1 hrun)
      exact hidx id (heq ▸ hrun)
    exact ⟨(htidy.hand hget).2, h.sent.give hnew hidx k worker task⟩

theorem books_onDeviceAvailable (h : s.Books lines) : s.onDeviceAvailable.Books lines :=
  onDeviceAvailable_induction (fun _ _ => books_handOut) h

theorem books_setDevice (h : s.Books lines) (hw : s.deviceList[k]? = some w)
    (htask : w.SameTask w') (hun : w'.unanswered = true → w.unanswered = true)
    (hbusy : w'.device.deviceState = .running → w'.unanswered = true) :
    (s.setDevice k w').Books lines :=
  ⟨h.tidy, h.sent.set hw htask hun hbusy⟩

/-- The task that a device has not answered. -/
theorem Books.current (h : s.Books lines) (hw : s.deviceList[k]? = some w)
    (hun : w.unanswered = true) :
    s.runningQueue[atoi w.device.currTaskId]? = some w.device.currTaskIdx := by
  obtain ⟨id, hid, hrun⟩ := h.sent.sent k w hw hun
  obtain ⟨i, task, -, htask, rfl, hstate⟩ := (h.tidy.running _ _).1 hrun
  have hfits := h.tidy.fits i task htask (by rw [hstate]; decide)
  rwa [hid, atoi_toString hfits.1 hfits.2]

/-- What is left when a device has answered. -/
theorem books_answered (h : s.Books lines) (hw : s.deviceList[k]? = some w)
    (hun : w.unanswered = true) (htask : w.SameTask w') (hun' : w'.unanswered = false)
    (hstate : w'.device.deviceState = .runningIdle) :
    let r := (s.setDevice k w').onTaskSucceed w'.device
    r.1.Books lines ∧
      (r.2 = [] ∨ r.2 = [.willReduceResult] ∧ r.1.taskQueue = [] ∧ r.1.runningQueue.isEmpty) := by
  have hrun := h.current hw hun
  rw [← htask.taskId, ← htask.taskIdx] at hrun
  obtain ⟨i, -, hget, htidy⟩ := h.tidy.finish hrun w'.device.currTaskOutput
  have hsent := h.sent.answered hw hun htask hun' (by rw [hstate]; decide) (htask.taskIdx ▸ hrun)
  simp only [onTaskSucceed, setDevice, hget]
  split
  · next hdone => exact ⟨⟨htidy, hsent⟩, .inr ⟨rfl, hdone⟩⟩
  · exact ⟨books_onDeviceAvailable ⟨htidy, hsent⟩, .inl rfl⟩

/-- What is left when a device is lost. -/
theorem books_lost (h : s.Books lines) (hw : s.deviceList[k]? = some w) (htask : w.SameTask w') :
    let t := (s.setDevice k w').onDeviceLose w'.device w.device.deviceState
    ({ t with deviceList := t.deviceList.eraseIdx k } : DPEScheduler).Books lines := by
  have herase : (s.deviceList.set k w').eraseIdx k = s.deviceList.eraseIdx k :=
    List.eraseIdx_set_eq
  simp only [onDeviceLose, setDevice]
  split
  · next hstate =>
    have hun := h.sent.busy k w hw hstate
    have hrun := h.current hw hun
    have hsent := h.sent.lost hw hun hrun
    rw [← htask.taskId, ← htask.taskIdx] at hrun
    obtain ⟨i, -, hget, htidy⟩ := h.tidy.giveBack hrun
    rw [hget, herase]
    exact ⟨htidy, htask.taskId ▸ hsent⟩
  · rw [herase]
    exact ⟨h.tidy, h.sent.eraseIdx k⟩

/-- No task waits, and none runs. -/
def Idle (s : DPEScheduler) : Prop := s.taskQueue = [] ∧ s.runningQueue.isEmpty = true

theorem Idle.running (h : s.Idle) (id : Int) : s.runningQueue[id]? = none :=
  Std.TreeMap.getElem?_of_isEmpty h.2

/-- Where no task waits and none runs, the tasks are finished or have no id. -/
theorem Books.reducible (h : s.Books lines) (hidle : s.Idle) :
    ∀ task ∈ s.projectState.taskData, task.state = .finish ∨ task.state = .error := by
  intro task htask
  obtain ⟨i, hi⟩ := List.getElem?_of_mem htask
  cases hstate : task.state with
  | pending =>
    have hmem := (h.tidy.queued task.id i).2 ⟨i, task, rfl, hi, rfl, hstate⟩
    rw [hidle.1] at hmem
    cases hmem
  | running =>
    have hrun := (h.tidy.running task.id i).2 ⟨i, task, rfl, hi, rfl, hstate⟩
    rw [hidle.running] at hrun
    cases hrun
  | finish => exact .inl rfl
  | error => exact .inr rfl

/-- The source has stopped, and the tasks are made. -/
theorem books_sourceStopped (env : ProjectEnv) (fs : FileSystem) (hproject : s.projectState = {})
    (hbooks : s.Books []) (hidle : s.Idle) (hdist : Distinct (tokenize s.inputData)) :
    (s.sourceStopped env fs).Books (tokenize s.inputData) := by
  obtain ⟨hloaded, hu⟩ := loaded_loadSavedState env fs s.project (loaded_addInputData hdist)
    (unstarted_addInputData s.inputData)
  rw [← hproject] at hloaded hu
  exact ⟨.start hloaded hu, hbooks.sent.of_rest hidle.running ∅⟩

end DPEScheduler

/-! ## The steps -/

namespace JobRun

open DPEScheduler

variable {s : DPEScheduler} {k : Nat} {w : Listed} {e : Event}
  {r : DPEScheduler × List SchedulerDeed}

/-- A reply answers a task that was not answered before. -/
def AnsweredOnce (s : JobRun) : Event → Prop
  | .reply k reply => ∀ w ∈ s.scheduler.deviceList[k]?, w.AnsweredBy reply → w.unanswered = true
  | _ => True

instance (s : JobRun) : DecidablePred s.AnsweredOnce
  | .reply k reply =>
    inferInstanceAs (Decidable
      (∀ w ∈ s.scheduler.deviceList[k]?, w.AnsweredBy reply → w.unanswered = true))
  | .sourceOutput _ _ | .sourceStop _ _ _ _ | .sinkOutput _ _ | .sinkExit _ _ | .sinkStop
  | .reduce _ | .addDevice _ _ _ | .doAction _ _ | .checkHeartBeat _ _ => isTrue trivial

/-- A device keeps the books. -/
theorem deviceStep_books {lines : List Bytes} (h : s.Books lines)
    (hw : s.deviceList[k]? = some w) (hstep : DeviceStep s k w e r)
    (honce : ∀ reply, e = .reply k reply → w.AnsweredBy reply → w.unanswered = true) :
    r.2 = [.onRunningError] ∨
      r.1.Books lines ∧ (r.2 = [] ∨ ¬ s.Idle ∧ r.2 = [.willReduceResult] ∧ r.1.Idle) := by
  cases hstep with
  | quiet htask hstate hun hbusy =>
    refine .inr ⟨books_setDevice h hw htask hun fun hrun => ?_, .inl rfl⟩
    rw [hstate] at hrun
    rw [hbusy hrun]
    exact h.sent.busy k w hw hrun
  | initJobFailed htask hstate hun =>
    refine .inr ⟨books_setDevice h hw htask (hun ▸ id) fun hrun => ?_, .inl rfl⟩
    cases hstate.symm.trans hrun
  | initJobDone htask hstate hun =>
    refine .inr ⟨books_onDeviceAvailable (books_setDevice h hw htask (hun ▸ id) fun hrun => ?_),
      .inl rfl⟩
    cases hstate.symm.trans hrun
  | taskFailed => exact .inl rfl
  | taskSucceeded htask hstate hun =>
    have hun₀ := honce _ rfl rfl
    obtain ⟨hbooks, hdeeds⟩ := books_answered h hw hun₀ htask hun hstate
    refine .inr ⟨hbooks, hdeeds.imp id fun ⟨hdeeds, hidle'⟩ => ⟨fun hidle => ?_, hdeeds, hidle'⟩⟩
    have hrun := h.current hw hun₀
    rw [hidle.running] at hrun
    cases hrun
  | lost htask hreply => exact .inr ⟨books_lost h hw htask, .inl rfl⟩

/-- Where no task waits and none runs, a device changes nothing but itself. -/
theorem deviceStep_idle {lines : List Bytes} (h : s.Books lines) (hidle : s.Idle)
    (hw : s.deviceList[k]? = some w) (hstep : DeviceStep s k w e r)
    (honce : ∀ reply, e = .reply k reply → w.AnsweredBy reply → w.unanswered = true) :
    r.2 = [.onRunningError] ∨ r.2 = [] ∧ ∃ workers, r.1 = { s with deviceList := workers } := by
  have hrest : w.unanswered ≠ true := by
    intro hun
    have hrun := h.current hw hun
    rw [hidle.running] at hrun
    cases hrun
  cases hstep with
  | quiet => exact .inr ⟨rfl, _, rfl⟩
  | initJobFailed => exact .inr ⟨rfl, _, rfl⟩
  | initJobDone => exact .inr ⟨rfl, _, onDeviceAvailable_idle hidle.1⟩
  | taskFailed => exact .inl rfl
  | taskSucceeded => exact absurd (honce _ rfl rfl) hrest
  | @lost w' =>
    refine .inr ⟨rfl, (s.setDevice k w').deviceList.eraseIdx k, ?_⟩
    rw [onDeviceLose, if_neg fun hstate => hrest (h.sent.busy k w hw hstate)]
    rfl

/-! ## The runs -/

/-- What has been written to the sink: the count, and then, at most once, the results of all the
tasks, which are then finished. -/
def Reduced (lines : List Bytes) (s : JobRun) : Prop :=
  s.reduces + s.reductions.length ≤ 1 ∧
  (0 < s.reduces + s.reductions.length → s.ended = none → s.scheduler.Idle) ∧
  (∀ r ∈ s.reductions,
    r.tasks.map DPETask.line = lines.map (fun line => (DPEProjectState.taskOfLine line).line) ∧
      ∀ task ∈ r.tasks, task.state = .finish ∨ task.state = .error) ∧
  (s.ended ≠ none ∧ s.sinkInput = [] ∧ s.reductions = [] ∨
    s.sinkInput =
      countLine lines.length :: s.reductions.flatMap fun r => r.tasks.map resultLine)

/-- The books of a job, before and after its source has stopped. -/
structure Inv (s : JobRun) : Prop where
  blank : s.source = none → s.reductions = [] ∧ s.sinkInput = [] ∧ s.reduces = 0 ∧
    (s.ended = none → s.scheduler.projectState = {} ∧ s.scheduler.Idle ∧ s.scheduler.Books [])
  kept : s.source ≠ none → Distinct (tokenize s.scheduler.inputData) →
    (s.ended = none → s.scheduler.Books (tokenize s.scheduler.inputData)) ∧
      s.Reduced (tokenize s.scheduler.inputData)

theorem inv_start (project : DPEProject) : (start project).Inv := by
  refine ⟨fun _ => ⟨rfl, rfl, rfl, fun _ => ⟨rfl, ⟨rfl, ?_⟩, Tidy.blank, ?_⟩⟩,
    fun h => absurd rfl h⟩
  · simp [start]
  · refine ⟨fun j w hw => ?_, fun j w hw => ?_, fun i j v w hv => ?_⟩
    · cases hw
    · cases hw
    · cases hv

/-- The job ends. -/
theorem inv_end {s t : JobRun} (h : s.Inv) (hended : t.ended ≠ none) (hsource : t.source = s.source)
    (hinput : t.scheduler.inputData = s.scheduler.inputData) (hreduces : t.reduces = s.reduces)
    (hreductions : t.reductions = s.reductions) (hsink : t.sinkInput = s.sinkInput) : t.Inv := by
  refine ⟨fun hs => ?_, fun hs hdist => ⟨fun hc => absurd hc hended, ?_⟩⟩
  · obtain ⟨h₁, h₂, h₃, -⟩ := h.blank (hsource ▸ hs)
    exact ⟨hreductions ▸ h₁, hsink ▸ h₂, hreduces ▸ h₃, fun hc => absurd hc hended⟩
  · rw [hinput] at hdist ⊢
    obtain ⟨-, honce, -, hcomplete, hin⟩ := h.kept (hsource ▸ hs) hdist
    rw [Reduced, hreduces, hreductions, hsink]
    exact ⟨honce, fun _ hc => absurd hc hended, hcomplete, hin.imp (fun hc => ⟨hended, hc.2⟩) id⟩

/-- A device keeps the books of a job. -/
theorem inv_device {s : JobRun} {k : Nat} {w : Listed} {e : Event}
    {r : DPEScheduler × List SchedulerDeed} (h : s.Inv) (hended : s.ended = none)
    (hw : s.scheduler.deviceList[k]? = some w) (hstep : DeviceStep s.scheduler k w e r)
    (honce : ∀ reply, e = .reply k reply → w.AnsweredBy reply → w.unanswered = true) :
    (s.put r).Inv := by
  have hinput := deviceStep_inputData hstep
  have herror : r.2 = [.onRunningError] → (s.put r).Inv := by
    intro hdeeds
    rw [put, hdeeds]
    exact inv_end h (by simp [perform]) rfl hinput rfl rfl rfl
  have hquiet : r.2 = [] → s.put r = { s with scheduler := r.1 } := by
    intro hdeeds
    rw [put, hdeeds]
    rfl
  by_cases hsource : s.source = none
  · obtain ⟨hreductions, hsink, hreduces, hblank⟩ := h.blank hsource
    obtain ⟨hproject, hidle, hbooks⟩ := hblank hended
    rcases deviceStep_idle hbooks hidle hw hstep honce with hdeeds | ⟨hdeeds, workers, hr⟩
    · exact herror hdeeds
    · rcases deviceStep_books hbooks hw hstep honce with hdeeds' | ⟨hbooks', -⟩
      · exact herror hdeeds'
      · rw [hquiet hdeeds]
        refine ⟨fun _ => ⟨hreductions, hsink, hreduces, fun _ => ⟨?_, ?_, hbooks'⟩⟩,
          fun hc => absurd hsource hc⟩
        · rw [hr]
          exact hproject
        · rw [hr]
          exact hidle
  · refine ⟨fun hs => absurd ((put_source s r).symm.trans hs) hsource, fun _ hdist => ?_⟩
    rw [put_scheduler, hinput] at hdist ⊢
    obtain ⟨hkept, honce', hidle, hcomplete, hin⟩ := h.kept hsource hdist
    have hbooks := hkept hended
    rcases deviceStep_books hbooks hw hstep honce with hdeeds | ⟨hbooks', hdeeds | hdeeds⟩
    · have ht := (herror hdeeds).kept (by rwa [put_source]) (by rwa [put_scheduler, hinput])
      rwa [put_scheduler, hinput] at ht
    · rw [hquiet hdeeds]
      refine ⟨fun _ => hbooks', honce', fun hpos _ => ?_, hcomplete, hin⟩
      rcases deviceStep_idle hbooks (hidle hpos hended) hw hstep honce with hd | ⟨-, workers, hr⟩
      · cases hdeeds.symm.trans hd
      · rw [hr]
        exact hidle hpos hended
    · obtain ⟨hbusy, hdeeds, hidle'⟩ := hdeeds
      have hzero : s.reduces + s.reductions.length = 0 := by
        by_contra hpos
        exact hbusy (hidle (Nat.pos_of_ne_zero hpos) hended)
      rw [put, hdeeds]
      refine ⟨fun _ => hbooks', ?_, fun _ _ => hidle', hcomplete, hin⟩
      change s.reduces + 1 + s.reductions.length ≤ 1
      omega

theorem inv_step {env : ProjectEnv} {s t : JobRun} {e : Event} (h : s.Inv)
    (honce : AnsweredOnce s e)
    (hstep : step env s e = some t) : t.Inv := by
  obtain ⟨hended, hstep⟩ := stepped_of_step hstep
  cases hstep with
  | sourceOutput hsource =>
    exact ⟨fun _ => h.blank hsource, fun hc => absurd hsource hc⟩
  | @sourceStop _ _ fs _ hsource =>
    obtain ⟨hreductions, hsink, hreduces, hblank⟩ := h.blank hsource
    obtain ⟨hproject, hidle, hbooks⟩ := hblank hended
    refine ⟨fun hs => ?_, fun _ hdist => ?_⟩
    · rw [put_source] at hs
      cases hs
    · rcases onSourceStop_cases env _ _ s.scheduler with
        ⟨hdeeds, hinput⟩ | ⟨hqueue, hstop⟩ | ⟨hqueue, hstop⟩
      · rw [put, hdeeds]
        exact ⟨nofun, by simp [perform, hreduces, hreductions], fun _ => nofun,
          by simp [perform, hreductions], .inl ⟨nofun, hsink, hreductions⟩⟩
      · rw [hstop] at hdist ⊢
        have hbooks' := books_sourceStopped env fs hproject hbooks hidle hdist
        refine ⟨fun _ => hbooks', ?_, fun _ _ => ⟨hqueue, Std.TreeMap.isEmpty_emptyc⟩, ?_, .inr ?_⟩
        · simp [put, perform, hreduces, hreductions]
        · simp [put, perform, hreductions]
        · simp [put, perform, hsink, hreductions, hbooks'.tidy.length]
      · rw [hstop] at hdist ⊢
        rw [put_scheduler, onDeviceAvailable_inputData] at hdist ⊢
        have hbooks' := books_sourceStopped env fs hproject hbooks hidle hdist
        refine ⟨fun _ => books_onDeviceAvailable hbooks', ?_, fun hpos => ?_, ?_, .inr ?_⟩
        · simp [put, perform, hreduces, hreductions]
        · simp [put, perform, hreduces, hreductions] at hpos
        · simp [put, perform, hreductions]
        · simp [put, perform, hsink, hreductions, hbooks'.tidy.length]
  | sinkOutput => exact ⟨h.blank, h.kept⟩
  | sinkExit hsink => exact ⟨h.blank, h.kept⟩
  | sinkStop hsink =>
    rw [onSinkStop]
    split
    · exact inv_end h (by simp [put, perform]) rfl rfl rfl rfl rfl
    · exact inv_end h (by simp [put, perform]) rfl rfl rfl rfl rfl
  | @reduce exit hposted =>
    have hsource : s.source ≠ none := fun hs => hposted (h.blank hs).2.2.1
    rcases reduce_cases exit s with ⟨hbusy, ht⟩ | ⟨hidle, taken, sink, ht⟩
    · rw [ht]
      refine ⟨fun hs => absurd hs hsource, fun _ hdist => ?_⟩
      obtain ⟨hkept, honce', hidle, hcomplete, hin⟩ := h.kept hsource hdist
      exact absurd (hidle (by omega) hended) hbusy
    · rw [ht]
      refine ⟨fun hs => absurd hs hsource, fun _ hdist => ?_⟩
      obtain ⟨hkept, honce', -, hcomplete, hin⟩ := h.kept hsource hdist
      have hnil : s.reductions = [] := List.eq_nil_of_length_eq_zero (by omega)
      refine ⟨hkept, ?_, fun _ _ => hidle, ?_, ?_⟩
      · change s.reduces - 1 + (s.reductions ++ [_]).length ≤ 1
        rw [hnil]
        simp only [List.nil_append, List.length_singleton]
        omega
      · intro r hr
        change r ∈ s.reductions ++ [_] at hr
        rw [hnil, List.nil_append, List.mem_singleton] at hr
        rw [hr]
        exact ⟨(hkept hended).tidy.lines, (hkept hended).reducible hidle⟩
      · refine .inr ?_
        change s.sinkInput ++ _ = countLine _ :: (s.reductions ++ [_]).flatMap _
        rw [(hin.resolve_left fun hc => hc.1 hended), hnil]
        simp
  | addDevice hstate _ =>
    refine ⟨fun hs => ?_, fun hs hdist => ?_⟩
    · obtain ⟨h₁, h₂, h₃, h₄⟩ := h.blank hs
      exact ⟨h₁, h₂, h₃, fun he => ⟨(h₄ he).1, (h₄ he).2.1, (h₄ he).2.2.tidy,
        (h₄ he).2.2.sent.append rfl hstate⟩⟩
    · obtain ⟨h₁, h₂⟩ := h.kept hs hdist
      exact ⟨fun he => ⟨(h₁ he).tidy, (h₁ he).sent.append rfl hstate⟩, h₂⟩
  | device hw hdevice =>
    refine inv_device h hended hw hdevice ?_
    rintro reply rfl
    exact honce _ hw

/-- Where a task is: in the queue once and pending, running, or finished. -/
def Placed (s : DPEScheduler) (i : Nat) (task : DPETask) : Prop :=
  task.state = .pending ∧ (task.id, (i : Int)) ∈ s.taskQueue ∧
      (s.taskQueue.map Prod.fst).count task.id = 1 ∧ task.id ∉ s.runningQueue ∨
    task.state = .running ∧ s.runningQueue[task.id]? = some (i : Int) ∧
      task.id ∉ s.taskQueue.map Prod.fst ∨
    task.state = .finish ∧ task.id ∉ s.taskQueue.map Prod.fst ∧ task.id ∉ s.runningQueue

theorem placed_of_books {lines : List Bytes} {s : DPEScheduler} (h : s.Books lines) {i : Nat}
    {task : DPETask} (hi : s.projectState.taskData[i]? = some task) (hne : task.state ≠ .error) :
    Placed s i task := by
  have hhas : s.projectState.Has task.state task.id i := ⟨i, task, rfl, hi, rfl, rfl⟩
  have hsame : ∀ {state : DPETaskState} {idx : Int}, state ≠ .error →
      s.projectState.Has state task.id idx → task.state = state := by
    intro state idx hs hhas'
    rw [← h.tidy.indexed.idx_inj hne hs hhas hhas'] at hhas'
    exact (hhas.state_unique hhas').2
  have hqueue : task.id ∈ s.taskQueue.map Prod.fst → task.state = .pending := by
    intro hmem
    obtain ⟨⟨id, idx⟩, hmem, hid⟩ := List.mem_map.1 hmem
    rw [show id = task.id from hid] at hmem
    exact hsame (by decide) ((h.tidy.queued _ _).1 hmem)
  have hrunning : task.id ∈ s.runningQueue → task.state = .running := by
    intro hmem
    rw [Std.TreeMap.mem_iff_isSome_getElem?, Option.isSome_iff_exists] at hmem
    obtain ⟨idx, hrun⟩ := hmem
    exact hsame (by decide) ((h.tidy.running _ _).1 hrun)
  cases hstate : task.state with
  | pending =>
    have hmem := (h.tidy.queued task.id i).2 (hstate ▸ hhas)
    have hnodup : (s.taskQueue.map Prod.fst).Nodup := by
      refine List.Nodup.map_on ?_ h.tidy.once
      rintro ⟨id, idx⟩ hx ⟨id', idx'⟩ hy (rfl : id = id')
      rw [h.tidy.indexed.idx_inj (by decide) (by decide) ((h.tidy.queued _ _).1 hx)
        ((h.tidy.queued _ _).1 hy)]
    refine .inl ⟨hstate, hmem, ?_, fun hc => ?_⟩
    · exact List.count_eq_one_of_mem hnodup (List.mem_map_of_mem hmem)
    · cases hstate.symm.trans (hrunning hc)
  | running =>
    refine .inr (.inl ⟨hstate, (h.tidy.running task.id i).2 (hstate ▸ hhas), fun hc => ?_⟩)
    cases hstate.symm.trans (hqueue hc)
  | finish =>
    refine .inr (.inr ⟨hstate, fun hc => ?_, fun hc => ?_⟩)
    · cases hstate.symm.trans (hqueue hc)
    · cases hstate.symm.trans (hrunning hc)
  | error => exact absurd hstate hne

/-- The task of a line with an id, among the tasks of all lines. -/
theorem task_of_line {lines : List Bytes} {tasks : List DPETask}
    (h : tasks.map DPETask.line = lines.map fun line => (DPEProjectState.taskOfLine line).line)
    {i : Nat} {line pre input : Bytes} (hline : lines[i]? = some line)
    (hsplit : splitColon line = some (pre, input)) :
    ∃ task, tasks[i]? = some task ∧ task.id = atoll pre ∧ task.input = input ∧
      task.state ≠ .error := by
  have hi : (tasks.map DPETask.line)[i]? = some (DPEProjectState.taskOfLine line).line := by
    rw [h, List.getElem?_map, hline, Option.map_some]
  rw [List.getElem?_map, Option.map_eq_some_iff] at hi
  obtain ⟨task, hi, heq⟩ := hi
  simp only [DPETask.line, DPEProjectState.taskOfLine, hsplit, Prod.mk.injEq,
    decide_eq_decide] at heq
  exact ⟨task, hi, heq.1, heq.2.1, fun hc => DPETaskState.noConfusion (heq.2.2.1 hc)⟩

/-- In every run in which each task that is sent is answered at most once, each line with an id has
its task in one place, as long as the job goes on.  The sink is told the number of the tasks, and
then at most once, when all of these are finished, that many results, in the order of the lines. -/
theorem tasks_accounted {env : ProjectEnv} {project : DPEProject} {es : List Event} {s : JobRun}
    (honce : (step env).Meets AnsweredOnce (start project) es)
    (hrun : (step env).run (start project) es = some s)
    (hids : Distinct (tokenize s.scheduler.inputData)) :
    (s.source ≠ none → s.ended = none →
      ∀ (i : Nat) (line pre input : Bytes), (tokenize s.scheduler.inputData)[i]? = some line →
        splitColon line = some (pre, input) →
        ∃ task, s.scheduler.projectState.taskData[i]? = some task ∧ task.id = atoll pre ∧
          Placed s.scheduler i task) ∧
    (s.reductions = [] ∧
        (s.sinkInput = [] ∨
          s.sinkInput = [countLine (tokenize s.scheduler.inputData).length]) ∨
      ∃ r, s.reductions = [r] ∧ r.tasks.length = (tokenize s.scheduler.inputData).length ∧
        s.sinkInput = countLine r.tasks.length :: r.tasks.map resultLine ∧
        ∀ (i : Nat) (line pre input : Bytes), (tokenize s.scheduler.inputData)[i]? = some line →
          splitColon line = some (pre, input) →
          ∃ task, r.tasks[i]? = some task ∧ task.id = atoll pre ∧ task.state = .finish) := by
  have hinv : s.Inv := Machine.run_invariant_of_meets (fun _ _ _ => inv_step) (inv_start project)
    honce hrun
  constructor
  · intro hsource hended i line pre input hline hsplit
    have hbooks := (hinv.kept hsource hids).1 hended
    obtain ⟨task, hi, hid, -, hne⟩ := task_of_line hbooks.tidy.lines hline hsplit
    exact ⟨task, hi, hid, placed_of_books hbooks hi hne⟩
  · by_cases hsource : s.source = none
    · obtain ⟨hreductions, hsink, -⟩ := hinv.blank hsource
      exact .inl ⟨hreductions, .inl hsink⟩
    · obtain ⟨-, honce', -, hcomplete, hin⟩ := hinv.kept hsource hids
      cases hreductions : s.reductions with
      | nil =>
        rw [hreductions] at hin
        exact .inl ⟨rfl, hin.imp (fun hc => hc.2.1) id⟩
      | cons r rs =>
        rw [hreductions] at honce' hcomplete hin
        obtain rfl : rs = [] := List.eq_nil_of_length_eq_zero (by
          rw [List.length_cons] at honce'
          omega)
        obtain ⟨hlines, hdone⟩ := hcomplete r List.mem_cons_self
        have hlength : r.tasks.length = (tokenize s.scheduler.inputData).length := by
          rw [← List.length_map (f := DPETask.line), hlines, List.length_map]
        refine .inr ⟨r, rfl, hlength, ?_, fun i line pre input hline hsplit => ?_⟩
        · rw [hlength, hin.resolve_left fun hc => List.cons_ne_nil _ _ hc.2.2]
          simp
        · obtain ⟨task, hi, hid, -, hne⟩ := task_of_line hlines hline hsplit
          exact ⟨task, hi, hid, (hdone task (List.mem_of_getElem? hi)).resolve_right hne⟩

/-- Three tasks, the third one finished before.  The device that has the first task is lost, and
the other one runs both. -/
def lossEvents : List Event :=
  [.addDevice "pa" "1" (some sampleArgs), .reply 0 (.initJob "0"),
    .sourceOutput true (Decimal.bytes "1:x\n2:y\n3:z\n".toList),
    .sourceStop .exit 0 (fun _ => some (Decimal.bytes "3:Z\n".toList)) true,
    .addDevice "pa" "2" (some sampleArgs), .reply 1 (.initJob "0"),
    .checkHeartBeat 0 false, .checkHeartBeat 0 true,
    .reply 0 (.doTask "0" (some "2") (some [89])), .reply 0 (.doTask "0" (some "1") (some [88])),
    .reduce none]

theorem lossEvents_run : ((step sampleEnv).run (start {}) lossEvents).isSome = true := by decide

theorem tasks_accounted_lost_device :
    ∃ s r, (step sampleEnv).run (start {}) lossEvents = some s ∧ s.reductions = [r] ∧
      s.sinkInput = countLine r.tasks.length :: r.tasks.map resultLine ∧
      s.sinkInput = ["3\n", "X\n", "Y\n", "Z\n"].map fun line => Decimal.bytes line.toList := by
  have hrun := (Option.some_get lossEvents_run).symm
  obtain ⟨-, ⟨hnil, -⟩ | ⟨r, hr, -, hsink, -⟩⟩ := tasks_accounted (by decide) hrun (by decide)
  · exact absurd hnil (by decide)
  · exact ⟨_, r, hrun, hr, hsink, by decide⟩

end JobRun

end Dcfpe

import Dcfpe.Service.JobStep

/-!
# When a job is a success

The host is told of a success when the sink ends with code 0, and nothing else is asked at that
moment.  What has to come before is a condition on the steps of the run: the source ends well, each
of its lines has a colon, and for each of them `ReduceResult` runs when its task is not running, and
writes its result before the process of the sink has ended.  One part of it need not be asked: when
the results are written, no task is pending.
-/

set_option autoImplicit false

namespace Dcfpe

/-! ## The tasks -/

/-- The id and the input of a task. -/
def DPETask.key (task : DPETask) : Int × Bytes := (task.id, task.input)

def lineKeys (lines : List Bytes) : List (Int × Bytes) :=
  lines.map fun line => (DPEProjectState.taskOfLine line).key

/-- Every line has a colon. -/
def Split (lines : List Bytes) : Prop := ∀ line ∈ lines, (splitColon line).isSome = true

instance : DecidablePred Split := fun lines =>
  inferInstanceAs (Decidable (∀ line ∈ lines, (splitColon line).isSome = true))

/-- The tasks that are pending are in the queue. -/
def Waits (p : DPEProjectState) (queue : List (Int × Int)) : Prop :=
  ∀ (i : Nat) (task : DPETask), p.taskData[i]? = some task → task.state = .pending →
    ∃ idx, (task.id, idx) ∈ queue ∧ p.getTask task.id idx = some i

section
variable {p : DPEProjectState} {queue : List (Int × Int)} {f : DPETask → DPETask}

theorem setTask_keys (hkey : ∀ task, (f task).key = task.key) (i : Nat) :
    (p.setTask i f).taskData.map DPETask.key = p.taskData.map DPETask.key := by
  refine List.ext_getElem? fun j => ?_
  rw [List.getElem?_map, List.getElem?_map, DPEProjectState.setTask_getElem?]
  split
  · rw [Option.map_map]
    exact congrArg (Option.map · _) (funext hkey)
  · rfl

theorem mem_setTask {i : Nat} {task : DPETask} (h : task ∈ (p.setTask i f).taskData) :
    task ∈ p.taskData ∨ ∃ task', task = f task' := by
  obtain ⟨j, hj⟩ := List.getElem?_of_mem h
  rw [DPEProjectState.setTask_getElem?] at hj
  split at hj
  · obtain ⟨task', -, rfl⟩ := Option.map_eq_some_iff.1 hj
    exact .inr ⟨task', rfl⟩
  · exact .inl (List.mem_of_getElem? hj)

theorem waits_setTask (h : Waits p queue) (hid : ∀ task, (f task).id = task.id) (i : Nat)
    (hfront : ∀ task, p.taskData[i]? = some task → (f task).state = .pending →
      ∃ idx, (task.id, idx) ∈ queue ∧ p.getTask task.id idx = some i) :
    Waits (p.setTask i f) queue := by
  intro j task hj hpending
  rw [DPEProjectState.setTask_getElem?] at hj
  split at hj
  · next hij =>
    obtain ⟨task', htask', rfl⟩ := Option.map_eq_some_iff.1 hj
    rw [hid]
    obtain ⟨idx, hmem, hget⟩ := hfront task' (hij ▸ htask') hpending
    exact ⟨idx, hmem, by rw [DPEProjectState.getTask_setTask hid, hget, hij]⟩
  · obtain ⟨idx, hmem, hget⟩ := h j task hj hpending
    exact ⟨idx, hmem, by rw [DPEProjectState.getTask_setTask hid, hget]⟩

theorem waits_append (h : Waits p queue) (more : List (Int × Int)) : Waits p (queue ++ more) := by
  intro i task hi hpending
  obtain ⟨idx, hmem, hget⟩ := h i task hi hpending
  exact ⟨idx, List.mem_append_left more hmem, hget⟩

/-- The front is taken off the queue, and its task, if there is one, is changed. -/
theorem waits_tail {id idx : Int} (h : Waits p ((id, idx) :: queue))
    (hfront : ∀ (i : Nat) (task : DPETask), p.getTask id idx = some i →
      p.taskData[i]? = some task → task.state ≠ .pending) : Waits p queue := by
  intro i task hi hpending
  obtain ⟨idx', hmem, hget⟩ := h i task hi hpending
  rcases List.mem_cons.1 hmem with heq | hmem
  · obtain ⟨hid, rfl⟩ := Prod.mk.inj heq
    exact absurd hpending (hfront i task (hid ▸ hget) hi)
  · exact ⟨idx', hmem, hget⟩

/-- The task at the front is handed out. -/
theorem waits_hand {id idx : Int} (h : Waits p ((id, idx) :: queue)) {i : Nat}
    (hget : p.getTask id idx = some i) :
    Waits (p.setTask i fun task => { task with state := .running }) queue := by
  have hset := waits_setTask (f := fun task => { task with state := .running }) h (fun _ => rfl) i
    fun _ _ => nofun
  refine waits_tail hset fun j task hj htask => ?_
  rw [DPEProjectState.getTask_setTask (by exact fun _ => rfl), hget] at hj
  rw [DPEProjectState.setTask_getElem?, if_pos (Option.some.inj hj)] at htask
  obtain ⟨task', -, rfl⟩ := Option.map_eq_some_iff.1 htask
  exact nofun

/-- A task goes back into the queue. -/
theorem waits_giveBack {id idx : Int} (h : Waits p queue) {i : Nat}
    (hget : p.getTask id idx = some i) :
    Waits (p.setTask i fun task => { task with state := .pending }) (queue ++ [(id, idx)]) := by
  have hset := waits_setTask (f := fun task => { task with state := .pending })
    (waits_append h [(id, idx)]) (fun _ => rfl) i
  refine hset fun task htask _ => ?_
  obtain ⟨task', htask', rfl⟩ := DPEProjectState.getTask_spec hget
  obtain rfl := Option.some.inj (htask.symm.trans htask')
  exact ⟨idx, List.mem_append_right _ (List.mem_singleton.2 rfl), hget⟩

theorem waits_makeTaskQueue (p : DPEProjectState) : Waits p p.makeTaskQueue := by
  intro i task hi hpending
  obtain ⟨hlt, -⟩ := List.getElem?_eq_some_iff.1 hi
  have hin : ¬ ((i : Int) < 0 ∨ (i : Int) ≥ p.taskData.length) := by omega
  refine ⟨i, ?_, ?_⟩
  · rw [DPEProjectState.makeTaskQueue, List.mem_filterMap]
    exact ⟨(task, i), List.mem_zipIdx_iff_getElem?.2 hi, if_pos hpending⟩
  · simp only [DPEProjectState.getTask, if_neg hin, Int.toNat_natCast, hi, ne_eq,
      not_true_eq_false, if_false]

end

/-! ## The scheduler -/

namespace DPEScheduler

/-- The tasks of some lines, of which none is left out. -/
def Served (lines : List (Int × Bytes)) (s : DPEScheduler) : Prop :=
  s.projectState.taskData.map DPETask.key = lines ∧ Waits s.projectState s.taskQueue

/-- No line was without a colon, and no task has failed. -/
def Sane (s : DPEScheduler) : Prop := ∀ task ∈ s.projectState.taskData, task.state ≠ .error

variable {lines : List (Int × Bytes)} {s : DPEScheduler}

theorem sane_setTask {p : DPEProjectState} {f : DPETask → DPETask}
    (h : ∀ task ∈ p.taskData, task.state ≠ .error) (hf : ∀ task, (f task).state ≠ .error)
    (i : Nat) :
    ∀ task ∈ (p.setTask i f).taskData, task.state ≠ .error := by
  intro task hmem
  rcases mem_setTask hmem with hmem | ⟨task', rfl⟩
  · exact h task hmem
  · exact hf task'

theorem served_handOut {t : DPEScheduler} (h : s.Served lines) (hstep : s.HandOut t) :
    t.Served lines ∧ (s.Sane → t.Sane) := by
  obtain ⟨hkeys, hwaits⟩ := h
  cases hstep with
  | dropped hqueue htask =>
    rw [hqueue] at hwaits
    exact ⟨⟨hkeys, waits_tail hwaits fun i task hget => by cases htask.symm.trans hget⟩, id⟩
  | @handed id idx queue k i worker task hqueue hget htask hworker hidle =>
    rw [hqueue] at hwaits
    refine ⟨⟨?_, waits_hand hwaits hget⟩, fun hsane => ?_⟩
    · exact (setTask_keys (f := fun task => { task with state := .running }) (fun _ => rfl) i).trans
        hkeys
    · exact sane_setTask (f := fun task => { task with state := .running }) hsane (fun _ => nofun) i

theorem served_onDeviceAvailable (h : s.Served lines) :
    s.onDeviceAvailable.Served lines ∧ (s.Sane → s.onDeviceAvailable.Sane) := by
  refine onDeviceAvailable_induction (P := fun t => t.Served lines ∧ (s.Sane → t.Sane)) ?_ ⟨h, id⟩
  intro t u ht hstep
  obtain ⟨hserved, hsane⟩ := served_handOut ht.1 hstep
  exact ⟨hserved, hsane ∘ ht.2⟩

theorem served_onTaskSucceed (h : s.Served lines) (device : RemoteDPEDevice) :
    (s.onTaskSucceed device).1.Served lines ∧ (s.Sane → (s.onTaskSucceed device).1.Sane) := by
  obtain ⟨hkeys, hwaits⟩ := h
  simp only [onTaskSucceed]
  cases s.projectState.getTask (atoi device.currTaskId) device.currTaskIdx with
  | none =>
    split
    · exact ⟨⟨hkeys, hwaits⟩, id⟩
    · split
      · exact served_onDeviceAvailable ⟨hkeys, hwaits⟩
      · exact ⟨⟨hkeys, hwaits⟩, id⟩
  | some i =>
    have hkeys' := (setTask_keys (f := fun task =>
      { task with result := device.currTaskOutput, state := .finish }) (fun _ => rfl) i).trans hkeys
    have hwaits' := waits_setTask (f := fun task =>
      { task with result := device.currTaskOutput, state := .finish }) hwaits (fun _ => rfl) i
      fun _ _ => by simp
    have hsane' := fun hsane : s.Sane => sane_setTask (f := fun task =>
      { task with result := device.currTaskOutput, state := .finish }) hsane (fun _ => by simp) i
    split
    · exact ⟨⟨hkeys', hwaits'⟩, hsane'⟩
    · split
      · obtain ⟨hserved, hsane''⟩ := served_onDeviceAvailable (s := { s with
          projectState := s.projectState.setTask i fun task =>
            { task with result := device.currTaskOutput, state := .finish }
          runningQueue := s.runningQueue.erase (atoi device.currTaskId) }) ⟨hkeys', hwaits'⟩
        exact ⟨hserved, fun hsane => hsane'' (hsane' hsane)⟩
      · exact ⟨⟨hkeys', hwaits'⟩, hsane'⟩

theorem served_onDeviceLose (h : s.Served lines) (device : RemoteDPEDevice)
    (state : RemoteDeviceState) :
    (s.onDeviceLose device state).Served lines ∧ (s.Sane → (s.onDeviceLose device state).Sane) := by
  obtain ⟨hkeys, hwaits⟩ := h
  simp only [onDeviceLose]
  split
  · have hmore := waits_append hwaits [(atoi device.currTaskId, device.currTaskIdx)]
    cases hget : s.projectState.getTask (atoi device.currTaskId) device.currTaskIdx with
    | none => exact ⟨⟨hkeys, hmore⟩, id⟩
    | some i =>
      refine ⟨⟨?_, ?_⟩, fun hsane => ?_⟩
      · exact (setTask_keys (f := fun task => { task with state := .pending }) (fun _ => rfl)
          i).trans hkeys
      · exact waits_giveBack hwaits hget
      · exact sane_setTask (f := fun task => { task with state := .pending }) hsane
          (fun _ => by simp) i
  · exact ⟨⟨hkeys, hwaits⟩, id⟩

/-- The state file changes no id and no input. -/
theorem loadLines_keys (saved : List Bytes) (p : DPEProjectState) :
    (DPEProject.loadLines saved p).2.taskData.map DPETask.key = p.taskData.map DPETask.key ∧
      ((∀ task ∈ p.taskData, task.state ≠ .error) →
        ∀ task ∈ (DPEProject.loadLines saved p).2.taskData, task.state ≠ .error) := by
  induction saved generalizing p with
  | nil => exact ⟨rfl, id⟩
  | cons line saved ih =>
    rw [DPEProject.loadLines]
    split
    · next id result hline =>
      split
      · next i hget =>
        obtain ⟨hkeys, hsane⟩ := ih (p.setTask i fun task =>
          { task with state := .finish, result := result })
        exact ⟨hkeys.trans (setTask_keys (by exact fun _ => rfl) i),
          fun h => hsane (sane_setTask h (by exact fun _ => nofun) i)⟩
      · exact ih p
    · exact ⟨rfl, id⟩

theorem loadSavedState_keys (env : ProjectEnv) (fs : FileSystem) (project : DPEProject)
    (p : DPEProjectState) :
    (project.loadSavedState env fs p).2.taskData.map DPETask.key = p.taskData.map DPETask.key ∧
      ((∀ task ∈ p.taskData, task.state ≠ .error) →
        ∀ task ∈ (project.loadSavedState env fs p).2.taskData, task.state ≠ .error) := by
  rw [DPEProject.loadSavedState]
  split
  · exact ⟨rfl, id⟩
  · split
    · exact ⟨rfl, id⟩
    · exact loadLines_keys _ p

theorem served_sourceStopped (env : ProjectEnv) (fs : FileSystem) (s : DPEScheduler) :
    (s.sourceStopped env fs).Served (lineKeys (tokenize s.inputData)) ∧
      (Split (tokenize s.inputData) → (s.sourceStopped env fs).Sane) := by
  obtain ⟨hkeys, hsane⟩ := loadSavedState_keys env fs s.project
    (s.projectState.addInputData s.inputData)
  refine ⟨⟨hkeys.trans ?_, waits_makeTaskQueue _⟩, fun hsplit => hsane fun task htask => ?_⟩
  · rw [DPEProjectState.addInputData, List.map_map]
    rfl
  · obtain ⟨line, hline, rfl⟩ := List.mem_map.1 htask
    obtain ⟨p, hp⟩ := Option.isSome_iff_exists.1 (hsplit line hline)
    rw [DPEProjectState.taskOfLine, hp]
    simp

end DPEScheduler

/-! ## The steps -/

namespace JobRun

open DPEScheduler

/-- The tasks of the lines, of which none is pending, and none failed if each line has a colon. -/
def Reported (lines : List Bytes) (tasks : List DPETask) : Prop :=
  tasks.map DPETask.key = lineKeys lines ∧ (Split lines → ∀ task ∈ tasks, task.state ≠ .error) ∧
    ∀ task ∈ tasks, task.state ≠ .pending

/-- The tasks that the scheduler has, and those whose results it has written. -/
def Telling (s : JobRun) : Prop :=
  (s.ended = none →
    s.scheduler.Served
      (if s.source.isSome then lineKeys (tokenize s.scheduler.inputData) else []) ∧
    (s.source.isSome → Split (tokenize s.scheduler.inputData) → s.scheduler.Sane)) ∧
  ∀ r ∈ s.reductions, r.tasks = [] ∨
    s.source.isSome ∧ Reported (tokenize s.scheduler.inputData) r.tasks

theorem deviceStep_served {lines : List (Int × Bytes)} {s : DPEScheduler} {k : Nat} {w : Listed}
    {e : Event} {r : DPEScheduler × List SchedulerDeed} (hstep : DeviceStep s k w e r)
    (h : s.Served lines) :
    r.2 = [.onRunningError] ∨ r.1.Served lines ∧ (s.Sane → r.1.Sane) := by
  cases hstep with
  | quiet => exact .inr ⟨h, id⟩
  | initJobFailed => exact .inr ⟨h, id⟩
  | @initJobDone w' => exact .inr (served_onDeviceAvailable (s := s.setDevice k w') h)
  | taskFailed => exact .inl rfl
  | @taskSucceeded output w' => exact .inr (served_onTaskSucceed (s := s.setDevice k w') h _)
  | @lost w' => exact .inr (served_onDeviceLose (s := s.setDevice k w') h _ _)

theorem telling_step {env : ProjectEnv} {s t : JobRun} {e : Event} (h : s.Telling)
    (hstep : step env s e = some t) : t.Telling := by
  obtain ⟨hended, hstep⟩ := stepped_of_step hstep
  obtain ⟨hserved, hreduced⟩ := h
  have hblank : s.source = none → ∀ r ∈ s.reductions, r.tasks = [] := fun hsource r hr =>
    (hreduced r hr).resolve_right fun hc => by simp [hsource] at hc
  cases hstep with
  | sourceOutput hsource =>
    refine ⟨fun he => ?_, fun r hr => .inl (hblank hsource r hr)⟩
    obtain ⟨hs, -⟩ := hserved he
    simp only [hsource, Option.isSome_none, Bool.false_eq_true, if_false] at hs ⊢
    exact ⟨hs, nofun⟩
  | @sourceStop _ _ fs starts hsource =>
    refine ⟨fun ht => ?_, fun r hr => ?_⟩
    · obtain ⟨hs, hsane⟩ := served_sourceStopped env fs s.scheduler
      rcases onSourceStop_cases env fs starts s.scheduler with ⟨hdeeds, -⟩ | ⟨-, hstop⟩ | ⟨-, hstop⟩
      · rw [put, hdeeds] at ht
        cases ht
      · rw [hstop, put_scheduler, put_source]
        exact ⟨hs, fun _ => hsane⟩
      · obtain ⟨hs', hsane'⟩ := served_onDeviceAvailable hs
        rw [hstop, put_scheduler, put_source, onDeviceAvailable_inputData]
        exact ⟨hs', fun _ hsplit => hsane' (hsane hsplit)⟩
    · rw [put_reductions] at hr
      exact .inl (hblank hsource r hr)
  | sinkOutput => exact ⟨hserved, hreduced⟩
  | sinkExit => exact ⟨hserved, hreduced⟩
  | sinkStop =>
    refine ⟨?_, ?_⟩
    · rw [onSinkStop]
      split
      · exact nofun
      · exact nofun
    · rw [put_reductions, put_scheduler, put_source]
      exact hreduced
  | @reduce exit hposted =>
    rcases reduce_cases exit s with ⟨-, ht⟩ | ⟨⟨hqueue, -⟩, taken, sink, ht⟩
    · rw [ht]
      exact ⟨hserved, hreduced⟩
    · rw [ht]
      refine ⟨hserved, fun r hr => ?_⟩
      rcases List.mem_append.1 hr with hr | hr
      · exact hreduced r hr
      · rw [List.mem_singleton.1 hr]
        obtain ⟨⟨hkeys, hwaits⟩, hsane⟩ := hserved hended
        by_cases hsource : s.source.isSome = true
        · rw [if_pos hsource] at hkeys
          refine .inr ⟨hsource, hkeys, hsane hsource, fun task htask hpending => ?_⟩
          obtain ⟨i, hi⟩ := List.getElem?_of_mem htask
          obtain ⟨idx, hmem, -⟩ := hwaits i task hi hpending
          rw [hqueue] at hmem
          cases hmem
        · rw [if_neg hsource] at hkeys
          exact .inl (List.map_eq_nil_iff.1 hkeys)
  | addDevice => exact ⟨hserved, hreduced⟩
  | device hw hdevice =>
    obtain ⟨hs, hsane⟩ := hserved hended
    refine ⟨fun ht => ?_, ?_⟩
    · rw [put_scheduler, put_source, deviceStep_inputData hdevice]
      rcases deviceStep_served hdevice hs with hdeeds | ⟨hs', hsane'⟩
      · rw [put, hdeeds] at ht
        cases ht
      · exact ⟨hs', fun hsource hsplit => hsane' (hsane hsource hsplit)⟩
    · rw [put_reductions, put_scheduler, put_source, deviceStep_inputData hdevice]
      exact hreduced

theorem telling_start (project : DPEProject) : (start project).Telling := by
  refine ⟨fun _ => ⟨⟨rfl, fun i task hi => ?_⟩, nofun⟩, fun r hr => ?_⟩
  · cases hi
  · cases hr

/-! ## What the sink is given -/

/-- The sink has been given the number of the tasks and then, in each pass over them, their
results. -/
structure Told (s : JobRun) : Prop where
  prepared : s.sink = .prepared → s.sinkInput = [] ∧ (s.ended = none → s.source = none)
  started : s.sink ≠ .prepared → s.source.isSome = true ∧
    s.sinkInput = countLine (tokenize s.scheduler.inputData).length ::
      s.reductions.flatMap fun r => r.tasks.map fun task => task.result ++ [10]
  success : s.sink = .stopped .exit 0 ↔ s.ended = some true

/-- How many results a pass writes, and what becomes of the sink in it. -/
theorem reduce_passes (exit : Option (Nat × ExitReason × Int)) {s : JobRun}
    (hidle : s.scheduler.taskQueue = [] ∧ s.scheduler.runningQueue.isEmpty = true) :
    ∃ (taken : Nat) (sink : SinkState),
      s.reduce exit =
        { s with
          reduces := s.reduces - 1
          sinkInput := s.sinkInput ++ s.scheduler.projectState.taskData.map resultLine
          reductions := s.reductions ++ [⟨s.scheduler.projectState.taskData, taken⟩]
          sink := sink } ∧
      (s.sink ≠ .running ∧ taken = 0 ∧ sink = s.sink ∨
        s.sink = .running ∧ ∃ exitReason exitCode,
          (sink = .running ∨ sink = .ended exitReason exitCode) ∧
          ∀ i < s.scheduler.projectState.taskData.length,
            (i < taken ↔ ∀ stop ∈ exit, i < stop.1)) := by
  have hresults : s.scheduler.reduceResultImpl =
      some (s.scheduler.projectState.taskData.map resultLine) := by
    rw [reduceResultImpl, if_neg]
    simp [hidle]
  simp only [reduce, hresults]
  split
  · next hsink => exact ⟨_, _, rfl, .inl ⟨hsink, rfl, rfl⟩⟩
  · next hsink =>
    cases exit with
    | none =>
      refine ⟨_, _, rfl, .inr ⟨not_not.1 hsink, .exit, 0, .inl (not_not.1 hsink), fun i hi => ?_⟩⟩
      simpa using hi
    | some stop =>
      refine ⟨_, _, rfl, .inr ⟨not_not.1 hsink, stop.2.1, stop.2.2, .inr rfl, fun i hi => ?_⟩⟩
      rw [Nat.lt_min, and_iff_left hi]
      simp

theorem told_start (project : DPEProject) : (start project).Told :=
  ⟨fun _ => ⟨rfl, fun _ => rfl⟩, fun h => absurd rfl h, by simp [start]⟩

/-- A step after which the sink is as it was, and has been given nothing. -/
theorem Told.same {s t : JobRun} (h : s.Told) (hended : s.ended = none)
    (hsink : t.sink = s.sink) (hinput : t.sinkInput = s.sinkInput) (hsource : t.source = s.source)
    (hlines : s.source ≠ none → t.scheduler.inputData = s.scheduler.inputData)
    (hreductions : t.reductions = s.reductions) (hend : t.ended ≠ some true) : t.Told := by
  refine ⟨fun hp => ?_, fun hs => ?_, ?_⟩
  · obtain ⟨hnil, hnone⟩ := h.prepared (hsink ▸ hp)
    exact ⟨hinput.trans hnil, fun _ => hsource.trans (hnone hended)⟩
  · obtain ⟨hsome, htold⟩ := h.started (hsink ▸ hs)
    rw [hsource, hinput, hreductions, hlines (Option.isSome_iff_ne_none.1 hsome)]
    exact ⟨hsome, htold⟩
  · rw [hsink, h.success, hended]
    simp [hend]

/-- When the source stops the sink is told how many lines there are, unless the job ends here. -/
theorem Told.sourceStop {s : JobRun} (htelling : s.Telling) (h : s.Told) (hended : s.ended = none)
    (hsource : s.source = none) (env : ProjectEnv) (exitReason : ExitReason) (exitCode : Int)
    (fs : FileSystem) (starts : Bool) :
    ({ s with source := some (exitReason, exitCode) }.put
      (s.scheduler.onSourceStop env fs starts)).Told := by
  have hsink : s.sink = .prepared := by
    by_contra hne
    have hsome := (h.started hne).1
    rw [hsource] at hsome
    cases hsome
  have hnil := (h.prepared hsink).1
  have hflat : s.reductions.flatMap (fun r => r.tasks.map fun task => task.result ++ [10]) =
      [] := by
    rw [List.flatMap_eq_nil_iff]
    intro r hr
    rw [(htelling.2 r hr).resolve_right fun hc => by simp [hsource] at hc, List.map_nil]
  -- the number of the tasks is that of the lines
  have hlength : (s.scheduler.sourceStopped env fs).projectState.taskData.length =
      (tokenize s.scheduler.inputData).length := by
    have hkeys := congrArg List.length (served_sourceStopped env fs s.scheduler).1.1
    simpa [lineKeys] using hkeys
  rcases onSourceStop_cases env fs starts s.scheduler with ⟨hdeeds, -⟩ | ⟨-, hstop⟩ | ⟨-, hstop⟩
  · rw [put, hdeeds]
    refine ⟨fun _ => ⟨hnil, nofun⟩, fun hne => absurd hsink hne, ?_⟩
    simp [perform, hsink]
  · rw [hstop]
    refine ⟨nofun, fun _ => ⟨rfl, ?_⟩, by simp [put, perform, hended]⟩
    simp [put, perform, hnil, hlength, hflat]
  · rw [hstop]
    refine ⟨nofun, fun _ => ⟨rfl, ?_⟩, by simp [put, perform, hended]⟩
    simp [put, perform, hnil, hlength, hflat, onDeviceAvailable_inputData]

/-- Each pass over the tasks gives the sink their results. -/
theorem Told.reduce {s : JobRun} (htelling : s.Telling) (h : s.Told) (hended : s.ended = none)
    (exit : Option (Nat × ExitReason × Int)) : (s.reduce exit).Told := by
  rcases reduce_cases exit s with ⟨-, ht⟩ | ⟨hidle, -⟩
  · rw [ht]
    exact h.same hended rfl rfl rfl (fun _ => rfl) rfl (by simp [hended])
  · obtain ⟨taken, sink, ht, hsink⟩ := reduce_passes exit hidle
    have hstate : (sink = .prepared ↔ s.sink = .prepared) ∧ sink ≠ .stopped .exit 0 := by
      have hnot : s.sink ≠ .stopped .exit 0 := fun hc => by simp [h.success.1 hc] at hended
      rcases hsink with ⟨-, -, rfl⟩ | ⟨hrun, _, _, rfl | rfl, -⟩
      · exact ⟨Iff.rfl, hnot⟩
      · simp [hrun]
      · simp [hrun]
    rw [ht]
    refine ⟨fun hp => ?_, fun hs => ?_, ?_⟩
    · -- there are no tasks yet
      obtain ⟨hnil, hnone⟩ := h.prepared (hstate.1.1 hp)
      obtain ⟨⟨hkeys, -⟩, -⟩ := htelling.1 hended
      rw [hnone hended] at hkeys
      have htasks : s.scheduler.projectState.taskData = [] :=
        List.map_eq_nil_iff.1 (hkeys.trans rfl)
      exact ⟨by simp [hnil, htasks], fun _ => hnone hended⟩
    · obtain ⟨hsome, htold⟩ := h.started fun hp => hs (hstate.1.2 hp)
      refine ⟨hsome, ?_⟩
      rw [htold, List.flatMap_append, List.flatMap_singleton, List.cons_append]
      rfl
    · simp [hstate.2, hended]

theorem told_step {env : ProjectEnv} {s t : JobRun} {e : Event} (htelling : s.Telling) (h : s.Told)
    (hstep : step env s e = some t) : t.Told := by
  obtain ⟨hended, hstep⟩ := stepped_of_step hstep
  cases hstep with
  | sourceOutput hsource =>
    exact h.same hended rfl rfl rfl (fun hne => absurd hsource hne) rfl (by simp [hended])
  | sourceStop hsource => exact .sourceStop htelling h hended hsource _ _ _ _ _
  | sinkOutput => exact h.same hended rfl rfl rfl (fun _ => rfl) rfl (by simp [hended])
  | sinkExit hsink =>
    exact ⟨nofun, fun _ => h.started (by simp [hsink]), by simp [hended]⟩
  | @sinkStop exitReason exitCode hsink =>
    obtain ⟨hsome, htold⟩ := h.started (by simp [hsink])
    rw [put, onSinkStop]
    split
    · next hbad =>
      refine ⟨nofun, fun _ => ⟨hsome, htold⟩, ?_⟩
      simp only [List.foldl_cons, List.foldl_nil, perform, SinkState.stopped.injEq,
        Option.some_inj, Bool.false_eq_true, iff_false, not_and]
      tauto
    · next hgood =>
      refine ⟨nofun, fun _ => ⟨hsome, htold⟩, ?_⟩
      simp only [List.foldl_cons, List.foldl_nil, perform, SinkState.stopped.injEq, iff_true]
      tauto
  | reduce hposted => exact .reduce htelling h hended _
  | addDevice => exact h.same hended rfl rfl rfl (fun _ => rfl) rfl (by simp [hended])
  | @device _ k w r hw hdevice =>
    have hlines := deviceStep_inputData hdevice
    rcases deviceStep_deeds hdevice with hdeeds | hdeeds | hdeeds <;> rw [put, hdeeds]
    · exact h.same hended rfl rfl rfl (fun _ => hlines) rfl (by simp [hended])
    · exact h.same hended rfl rfl rfl (fun _ => hlines) rfl (by simp [perform, hended])
    · exact h.same hended rfl rfl rfl (fun _ => hlines) rfl (by simp [perform])

/-! ## The success -/

/-- The job has succeeded: the source ended well; the sink was given the number of the lines and the
results, pass by pass; each line of the source was a task whose result was written, when the task
was finished, to a sink that was still running; and the sink ended well. -/
def Earned (s : JobRun) : Prop :=
  s.source = some (.exit, 0) ∧ s.sink = .stopped .exit 0 ∧
    s.sinkInput = countLine (tokenize s.scheduler.inputData).length ::
      s.reductions.flatMap (fun r => r.tasks.map fun task => task.result ++ [10]) ∧
    ∀ (i : Nat) (line : Bytes), (tokenize s.scheduler.inputData)[i]? = some line →
      ∃ pre input, splitColon line = some (pre, input) ∧ ∃ r ∈ s.reductions, i < r.taken ∧
        ∃ task, r.tasks[i]? = some task ∧ task.id = atoll pre ∧ task.input = input ∧
          task.state = .finish

/-- The source ends well, and each line of its output has a colon. -/
def EndsWell (s : JobRun) : Event → Prop
  | .sourceStop exitReason exitCode _ _ =>
    exitReason = .exit ∧ exitCode = 0 ∧ Split (tokenize s.scheduler.inputData)
  | _ => True

/-- `ReduceResult` runs when nothing waits, and the `i`-th task is not running; and the process of
the sink is there until it has got the result of that task. -/
def Writes (i : Nat) (s : JobRun) : Event → Prop
  | .reduce exit =>
    s.scheduler.taskQueue = [] ∧ s.scheduler.runningQueue.isEmpty = true ∧ s.sink = .running ∧
      (∃ task ∈ s.scheduler.projectState.taskData[i]?, task.state ≠ .running) ∧
      ∀ stop ∈ exit, i < stop.1
  | _ => False

instance (s : JobRun) : DecidablePred s.EndsWell
  | .sourceStop exitReason exitCode _ _ =>
    inferInstanceAs (Decidable (exitReason = .exit ∧ exitCode = 0 ∧
      Split (tokenize s.scheduler.inputData)))
  | .sourceOutput _ _ | .sinkOutput _ _ | .sinkExit _ _ | .sinkStop | .reduce _
  | .addDevice _ _ _ | .doAction _ _ | .checkHeartBeat _ _ | .reply _ _ => isTrue trivial

instance (i : Nat) (s : JobRun) : DecidablePred (s.Writes i)
  | .reduce exit =>
    inferInstanceAs (Decidable (s.scheduler.taskQueue = [] ∧
      s.scheduler.runningQueue.isEmpty = true ∧ s.sink = .running ∧
      (∃ task ∈ s.scheduler.projectState.taskData[i]?, task.state ≠ .running) ∧
      ∀ stop ∈ exit, i < stop.1))
  | .sourceOutput _ _ | .sourceStop _ _ _ _ | .sinkOutput _ _ | .sinkExit _ _ | .sinkStop
  | .addDevice _ _ _ | .doAction _ _ | .checkHeartBeat _ _ | .reply _ _ => isFalse id

/-- The source has not ended, or it has ended well. -/
def SourceDone (s : JobRun) : Prop :=
  s.source = none ∨ s.source = some (.exit, 0) ∧ Split (tokenize s.scheduler.inputData)

/-- In some pass the `i`-th task was not running, and its result was written to a running sink. -/
def Covered (i : Nat) (s : JobRun) : Prop :=
  ∃ r ∈ s.reductions, i < r.taken ∧ ∃ task, r.tasks[i]? = some task ∧ task.state ≠ .running

/-- The events of the devices are neither an end of the source nor a pass over the tasks. -/
theorem put_device {s : JobRun} {k : Nat} {w : Listed} {e : Event}
    {r : DPEScheduler × List SchedulerDeed} (hdevice : DeviceStep s.scheduler k w e r) :
    ((s.put r).SourceDone ↔ s.SourceDone) ∧ ∀ i, (s.put r).Covered i ↔ s.Covered i := by
  refine ⟨?_, fun i => ?_⟩
  · rw [SourceDone, SourceDone, put_source, put_scheduler, deviceStep_inputData hdevice]
  · rw [Covered, Covered, put_reductions]

/-- The end of the source is good or not, once and for all. -/
theorem sourceDone_step {env : ProjectEnv} {s t : JobRun} {e : Event}
    (hstep : step env s e = some t) : t.SourceDone ↔ s.SourceDone ∧ s.EndsWell e := by
  obtain ⟨-, htaken⟩ := taken_of_step hstep
  cases htaken with
  | sourceOutput hsource => simp [SourceDone, EndsWell, hsource]
  | @sourceStop exitReason exitCode fs starts hsource =>
    have hlines : (s.scheduler.onSourceStop env fs starts).1.inputData =
        s.scheduler.inputData := by
      rcases onSourceStop_cases env fs starts s.scheduler with ⟨-, hlines⟩ | ⟨-, hstop⟩ | ⟨-, hstop⟩
      · exact hlines
      · rw [hstop, sourceStopped_inputData]
      · rw [hstop, onDeviceAvailable_inputData, sourceStopped_inputData]
    simp [SourceDone, EndsWell, put_source, put_scheduler, hlines, hsource, and_assoc]
  | sinkOutput => exact (and_iff_left trivial).symm
  | sinkExit => exact (and_iff_left trivial).symm
  | sinkStop =>
    rw [SourceDone, put_source, put_scheduler]
    exact (and_iff_left trivial).symm
  | @reduce exit hposted =>
    rcases reduce_cases exit s with ⟨-, ht⟩ | ⟨-, taken, sink, ht⟩ <;>
      exact ht ▸ (and_iff_left trivial).symm
  | addDevice => exact (and_iff_left trivial).symm
  | doAction hw hr =>
    exact (put_device (deviceStep_doAction hr (.doAction 0 0))).1.trans (and_iff_left trivial).symm
  | checkHeartBeat hw =>
    exact (put_device (deviceStep_checkHeartBeat _ _ _ _)).1.trans (and_iff_left trivial).symm
  | reply hw =>
    exact (put_device (deviceStep_reply _ _ _ _)).1.trans (and_iff_left trivial).symm

/-- A line is covered in the step that writes its result. -/
theorem covered_step {env : ProjectEnv} {s t : JobRun} {e : Event}
    (hstep : step env s e = some t) (i : Nat) : t.Covered i ↔ s.Covered i ∨ s.Writes i e := by
  obtain ⟨-, htaken⟩ := taken_of_step hstep
  have hnever : s.Covered i ↔ s.Covered i ∨ False := (or_iff_left id).symm
  cases htaken with
  | sourceOutput => exact hnever
  | sourceStop =>
    rw [Covered, put_reductions]
    exact hnever
  | sinkOutput => exact hnever
  | sinkExit => exact hnever
  | sinkStop =>
    rw [Covered, put_reductions]
    exact hnever
  | @reduce exit hposted =>
    by_cases hidle : s.scheduler.taskQueue = [] ∧ s.scheduler.runningQueue.isEmpty = true
    · obtain ⟨taken, sink, ht, hsink⟩ := reduce_passes exit hidle
      rw [ht]
      simp only [Covered, List.mem_append, List.mem_singleton, or_and_right, exists_or,
        exists_eq_left]
      refine or_congr_right ?_
      rcases hsink with ⟨hsink, rfl, -⟩ | ⟨hsink, -, -, -, htaken⟩
      · simp [Writes, hsink]
      · constructor
        · rintro ⟨hi, task, htask, hstate⟩
          have hlt := (List.getElem?_eq_some_iff.1 htask).1
          exact ⟨hidle.1, hidle.2, hsink, ⟨task, htask, hstate⟩, (htaken i hlt).1 hi⟩
        · rintro ⟨-, -, -, ⟨task, htask, hstate⟩, hstop⟩
          have hlt := (List.getElem?_eq_some_iff.1 htask).1
          exact ⟨(htaken i hlt).2 hstop, task, htask, hstate⟩
    · have hreturns : s.reduce exit = { s with reduces := s.reduces - 1 } :=
        ((reduce_cases exit s).resolve_right fun h => hidle h.1).2
      have hnot : ¬ s.Writes i (.reduce exit) := fun h => hidle ⟨h.1, h.2.1⟩
      rw [hreturns, or_iff_left hnot]
      exact Iff.rfl
  | addDevice => exact hnever
  | doAction hw hr =>
    exact ((put_device (deviceStep_doAction hr (.doAction 0 0))).2 i).trans hnever
  | checkHeartBeat hw =>
    exact ((put_device (deviceStep_checkHeartBeat _ _ _ _)).2 i).trans hnever
  | reply hw => exact ((put_device (deviceStep_reply _ _ _ _)).2 i).trans hnever

/-- The state of a job, and what the steps have been that led to it. -/
structure Recorded (env : ProjectEnv) (project : DPEProject) (es : List Event) (s : JobRun) :
    Prop where
  run : (step env).run (start project) es = some s
  telling : s.Telling
  told : s.Told
  source : s.SourceDone ↔ (step env).Meets EndsWell (start project) es
  covered : ∀ i, s.Covered i ↔ ¬ (step env).Meets (fun s e => ¬ s.Writes i e) (start project) es

theorem recorded_start (env : ProjectEnv) (project : DPEProject) :
    Recorded env project [] (start project) := by
  refine ⟨rfl, telling_start project, told_start project, iff_of_true (.inl rfl) trivial,
    fun i => iff_of_false ?_ (not_not.2 trivial)⟩
  rintro ⟨r, hr, -⟩
  cases hr

theorem recorded_step {env : ProjectEnv} {project : DPEProject} {es : List Event} {s t : JobRun}
    {e : Event} (h : Recorded env project es s) (hstep : step env s e = some t) :
    Recorded env project (es ++ [e]) t := by
  have hone {C : JobRun → Event → Prop} : (step env).Meets C s [e] ↔ C s e :=
    and_iff_left fun _ _ => trivial
  refine ⟨Machine.run_append.2 ⟨s, h.run, Machine.run_cons.2 ⟨t, hstep, rfl⟩⟩,
    telling_step h.telling hstep, told_step h.telling h.told hstep, ?_, fun i => ?_⟩
  · rw [sourceDone_step hstep, h.source, Machine.meets_append h.run, hone]
  · rw [covered_step hstep, h.covered, Machine.meets_append h.run, hone, not_and_or, not_not]

/-- The task of a line in a pass over all of them. -/
theorem finished_of_reported {lines : List Bytes} {tasks : List DPETask}
    (h : Reported lines tasks) (hsplit : Split lines) {i : Nat} {line : Bytes}
    (hline : lines[i]? = some line) {task : DPETask} (htask : tasks[i]? = some task)
    (hrun : task.state ≠ .running) :
    ∃ pre input, splitColon line = some (pre, input) ∧ task.id = atoll pre ∧ task.input = input ∧
      task.state = .finish := by
  obtain ⟨hkeys, hsane, hpending⟩ := h
  obtain ⟨⟨pre, input⟩, hp⟩ :=
    Option.isSome_iff_exists.1 (hsplit line (List.mem_of_getElem? hline))
  have hi : (tasks.map DPETask.key)[i]? = some (DPEProjectState.taskOfLine line).key := by
    rw [hkeys, lineKeys, List.getElem?_map, hline, Option.map_some]
  rw [List.getElem?_map, htask, Option.map_some, Option.some_inj] at hi
  simp only [DPETask.key, DPEProjectState.taskOfLine, hp, Prod.mk.injEq] at hi
  have hmem := List.mem_of_getElem? htask
  refine ⟨pre, input, hp, hi.1, hi.2, ?_⟩
  cases hstate : task.state with
  | pending => exact absurd hstate (hpending task hmem)
  | running => exact absurd hstate hrun
  | finish => rfl
  | error => exact absurd hstate (hsane hsplit task hmem)

/-- Only the end of the sink makes a job a success. -/
theorem sinkStop_of_success {env : ProjectEnv} {s t : JobRun} {e : Event}
    (hstep : step env s e = some t) (hsuccess : t.ended = some true) :
    e = .sinkStop ∧ s.sink = .ended .exit 0 := by
  obtain ⟨hended, hstep⟩ := stepped_of_step hstep
  have hold : s.ended ≠ some true := by
    rw [hended]
    exact nofun
  cases hstep with
  | sourceOutput => exact absurd hsuccess hold
  | @sourceStop _ _ fs starts hsource =>
    rcases onSourceStop_cases env fs starts s.scheduler with ⟨hdeeds, -⟩ | ⟨-, hstop⟩ | ⟨-, hstop⟩
    · rw [put, hdeeds] at hsuccess
      cases hsuccess
    · rw [hstop] at hsuccess
      exact absurd hsuccess hold
    · rw [hstop] at hsuccess
      exact absurd hsuccess hold
  | sinkOutput => exact absurd hsuccess hold
  | sinkExit => exact absurd hsuccess hold
  | @sinkStop exitReason exitCode hsink =>
    rw [put, onSinkStop] at hsuccess
    split at hsuccess
    · cases hsuccess
    · next hgood =>
      obtain ⟨hcode, hreason⟩ := not_or.1 hgood
      rw [hsink, not_not.1 hcode, not_not.1 hreason]
      exact ⟨rfl, rfl⟩
  | @reduce exit hposted =>
    rcases reduce_cases exit s with ⟨-, ht⟩ | ⟨-, taken, sink, ht⟩
    · rw [ht] at hsuccess
      exact absurd hsuccess hold
    · rw [ht] at hsuccess
      exact absurd hsuccess hold
  | addDevice => exact absurd hsuccess hold
  | device hw hdevice =>
    rcases deviceStep_deeds hdevice with hdeeds | hdeeds | hdeeds
    · rw [put, hdeeds] at hsuccess
      exact absurd hsuccess hold
    · rw [put, hdeeds] at hsuccess
      exact absurd hsuccess hold
    · rw [put, hdeeds] at hsuccess
      cases hsuccess

/-- What the good end of the sink leads to. -/
theorem sinkStop_eq {env : ProjectEnv} {s t : JobRun} (hstep : step env s .sinkStop = some t)
    (hsink : s.sink = .ended .exit 0) :
    t = { s with sink := .stopped .exit 0, ended := some true } := by
  obtain ⟨hended, -⟩ := stepped_of_step hstep
  simp only [step, hended, Option.isSome_none, Bool.false_eq_true, if_false, hsink] at hstep
  exact (Option.some.inj hstep).symm

/-- **When a success is earned.**  The host is told of a success only if the job has succeeded,
exactly in the runs in which the good end of the sink is reported only after the good end of a
source whose lines all have a colon, and after a pass for each of them that writes its result. -/
theorem success_earned_iff {env : ProjectEnv} {project : DPEProject} {es : List Event} {s : JobRun}
    (hrun : (step env).run (start project) es = some s) :
    (s.ended = some true → s.Earned) ↔
      (s.sink = .stopped .exit 0 → (step env).Meets EndsWell (start project) es ∧
        ∀ i < (tokenize s.scheduler.inputData).length,
          ¬ (step env).Meets (fun s e => ¬ s.Writes i e) (start project) es) := by
  have h : Recorded env project ([] ++ es) s :=
    Machine.run_history (fun _ _ _ _ => recorded_step) (recorded_start env project) hrun
  rw [List.nil_append] at h
  constructor
  · intro hearned hsink
    obtain ⟨hsource, -, -, hlines⟩ := hearned (h.told.success.1 hsink)
    refine ⟨h.source.1 (.inr ⟨hsource, fun line hline => ?_⟩), fun i hi => (h.covered i).1 ?_⟩
    · obtain ⟨i, hi⟩ := List.getElem?_of_mem hline
      obtain ⟨pre, input, hsplit, -⟩ := hlines i line hi
      rw [hsplit]
      rfl
    · obtain ⟨pre, input, -, r, hr, htaken, task, htask, -, -, hstate⟩ :=
        hlines i _ (List.getElem?_eq_getElem hi)
      exact ⟨r, hr, htaken, task, htask, by simp [hstate]⟩
  · intro hgood hended
    have hsink := h.told.success.2 hended
    obtain ⟨hends, hwrites⟩ := hgood hsink
    obtain ⟨hsome, htold⟩ := h.told.started (by simp [hsink])
    obtain ⟨hsource, hsplit⟩ := (h.source.2 hends).resolve_left (Option.isSome_iff_ne_none.1 hsome)
    refine ⟨hsource, hsink, htold, fun i line hline => ?_⟩
    obtain ⟨r, hr, htaken, task, htask, hstate⟩ :=
      (h.covered i).2 (hwrites i (List.getElem?_eq_some_iff.1 hline).1)
    rcases h.telling.2 r hr with hnil | ⟨-, hreported⟩
    · rw [hnil] at htask
      cases htask
    · obtain ⟨pre, input, hcolon, hid, hinput, hfinish⟩ :=
        finished_of_reported hreported hsplit hline htask hstate
      exact ⟨pre, input, hcolon, r, hr, htaken, task, htask, hid, hinput, hfinish⟩

/-- A job of one task, from the first line of its source to the end of its sink. -/
def goodEvents : List Event :=
  [.sourceOutput true (Decimal.bytes "1:x\n".toList), .sourceStop .exit 0 (fun _ => none) true,
    .addDevice "pa" "1" (some sampleArgs), .doAction 0 1, .reply 0 (.initJob "0"),
    .reply 0 (.doTask "0" (some "1") (some [88])), .reduce none, .sinkExit .exit 0, .sinkStop]

theorem goodEvents_run : ((step sampleEnv).run (start {}) goodEvents).isSome = true := by decide

theorem success_earned_good :
    ∃ s, (step sampleEnv).run (start {}) goodEvents = some s ∧ s.ended = some true ∧ s.Earned := by
  have hrun := (Option.some_get goodEvents_run).symm
  exact ⟨_, hrun, by decide, (success_earned_iff hrun).2 (by decide) (by decide)⟩

/-- The source ends with code 1 before it has printed a line. -/
def failedSourceEvents : List Event :=
  [.sourceStop .exit 1 (fun _ => none) true, .reduce none, .sinkExit .exit 0, .sinkStop]

theorem failedSourceEvents_run :
    ((step sampleEnv).run (start {}) failedSourceEvents).isSome = true := by decide

theorem success_of_failed_source :
    ¬ ∀ (env : ProjectEnv) (project : DPEProject) (es : List Event) (s : JobRun),
      (step env).run (start project) es = some s → s.ended = some true → s.Earned := by
  intro h
  have hrun := (Option.some_get failedSourceEvents_run).symm
  have hsource := (h sampleEnv {} failedSourceEvents _ hrun (by decide)).1
  exact absurd hsource (by decide)

end JobRun

end Dcfpe

import Dcfpe.Service.JobStep

/-!
# The id of a task

The scheduler gives a device a task by its id, an `int64_t`, and its index.  The device keeps the id
as text, and when `OnTaskSucceed`, `OnTaskFailed` or `OnDeviceLose` is called for it they read the
text with `atoi`.  `acts_on_iff` says for which ids this is the pair that was given: those that fit
in 32 bits, whatever `atoi` makes of the others.

The three functions are stated again with the pair they act on, and with an `atoi`.
-/

set_option autoImplicit false

namespace Dcfpe

/-- An `int` has 32 bits. -/
def Fits (id : Int) : Prop := -2 ^ 31 ≤ id ∧ id ≤ 2 ^ 31 - 1

instance : DecidablePred Fits := fun _ => inferInstanceAs (Decidable (_ ∧ _))

/-- What is known of `atoi`: it returns an `int`, and reads one that was printed. -/
structure ReadsInts (atoi : String → Int) : Prop where
  fits : ∀ s, Fits (atoi s)
  reads : ∀ id, Fits id → atoi (toString id) = id

theorem readsInts_atoi : ReadsInts atoi where
  fits s := Decimal.clamp_mem (by decide) _
  reads _ h := atoi_toString h.1 h.2

theorem ReadsInts.toString_eq_iff {atoi : String → Int} (h : ReadsInts atoi) (id : Int) :
    atoi (toString id) = id ↔ Fits id :=
  ⟨fun heq => heq ▸ h.fits _, h.reads id⟩

namespace DPEScheduler

/-! ## The pair that is acted on -/

/-- `OnTaskSucceed` for the task with this id and index. -/
def succeedTask (id idx : Int) (device : RemoteDPEDevice) (s : DPEScheduler) :
    DPEScheduler × List SchedulerDeed :=
  let s :=
    { s with
      projectState :=
        match s.projectState.getTask id idx with
        | some i =>
          s.projectState.setTask i fun task =>
            { task with result := device.currTaskOutput, state := .finish }
        | none => s.projectState
      runningQueue := s.runningQueue.erase id }
  if s.taskQueue = [] ∧ s.runningQueue.isEmpty then (s, [.willReduceResult])
  else if device.deviceState = .runningIdle then (s.onDeviceAvailable, [])
  else (s, [])

/-- `OnTaskFailed`, the same. -/
def failTask (id idx : Int) (s : DPEScheduler) : DPEScheduler × List SchedulerDeed :=
  ({ s with
      projectState :=
        match s.projectState.getTask id idx with
        | some i => s.projectState.setTask i fun task => { task with state := .error }
        | none => s.projectState
      runningQueue := s.runningQueue.erase id }, [.onRunningError])

/-- `OnDeviceLose` of a running device, the same. -/
def loseTask (id idx : Int) (s : DPEScheduler) : DPEScheduler :=
  { s with
    projectState :=
      match s.projectState.getTask id idx with
      | some i => s.projectState.setTask i fun task => { task with state := .pending }
      | none => s.projectState
    runningQueue := s.runningQueue.erase id
    taskQueue := s.taskQueue ++ [(id, idx)] }

section

variable (atoi : String → Int) (device : RemoteDPEDevice) (s : DPEScheduler)

def onTaskSucceedBy : DPEScheduler × List SchedulerDeed :=
  s.succeedTask (atoi device.currTaskId) device.currTaskIdx device

def onTaskFailedBy : DPEScheduler × List SchedulerDeed :=
  s.failTask (atoi device.currTaskId) device.currTaskIdx

def onDeviceLoseBy (state : RemoteDeviceState) : DPEScheduler :=
  if state = .running then s.loseTask (atoi device.currTaskId) device.currTaskIdx else s

end

theorem onTaskSucceed_eq (device : RemoteDPEDevice) (s : DPEScheduler) :
    s.onTaskSucceed device = s.onTaskSucceedBy atoi device := rfl

theorem onTaskFailed_eq (device : RemoteDPEDevice) (s : DPEScheduler) :
    s.onTaskFailed device = s.onTaskFailedBy atoi device := rfl

theorem onDeviceLose_eq (device : RemoteDPEDevice) (state : RemoteDeviceState)
    (s : DPEScheduler) : s.onDeviceLose device state = s.onDeviceLoseBy atoi device state := rfl

end DPEScheduler

/-! ## The life of a device -/

/-- A device, and the pair that `DoTask` has given it last. -/
structure DeviceLife where
  device : RemoteDPEDevice
  assigned : Option (Int × Int) := none

namespace DeviceLife

inductive Label where
  | initJob (args : InitJobArgs)
  | doAction (cookie : Int)
  | doTask (taskId taskIdx : Int) (data : String)
  | checkHeartBeat (expired : Bool)
  | handleMessage (reply : RscReply)
  | stop

/-- The calls of the last step are done. -/
def ready (l : DeviceLife) : RemoteDPEDevice := { l.device with calls := [] }

def step : Machine DeviceLife Label
  | l, .initJob args => (l.ready.initJob args).map fun device => { l with device := device }
  | l, .doAction cookie => (l.ready.doAction cookie).map fun r => { l with device := r.1 }
  | l, .doTask taskId taskIdx data =>
    (l.ready.doTask taskId taskIdx data).map fun r =>
      { device := r.1, assigned := some (taskId, taskIdx) }
  | l, .checkHeartBeat expired => some { l with device := (l.ready.checkHeartBeat expired).1 }
  | l, .handleMessage reply => some { l with device := l.ready.handleMessage reply }
  | l, .stop => some { l with device := l.ready.stop.1 }

/-- The device has the id as text, and the index. -/
def Kept (l : DeviceLife) : Prop :=
  ∀ id idx, l.assigned = some (id, idx) →
    l.device.currTaskId = toString id ∧ l.device.currTaskIdx = idx

end DeviceLife

namespace RemoteDPEDevice

/-- Only `DoTask` gives a device another task. -/
structure SameTask (r r' : RemoteDPEDevice) : Prop where
  taskId : r'.currTaskId = r.currTaskId
  taskIdx : r'.currTaskIdx = r.currTaskIdx

theorem sameTask_initJob {r r' : RemoteDPEDevice} {args : InitJobArgs}
    (h : r.initJob args = some r') : r.SameTask r' := by
  rw [initJob] at h
  split at h
  · cases h
  · obtain rfl := Option.some_inj.1 h
    exact ⟨rfl, rfl⟩

theorem sameTask_doAction {r : RemoteDPEDevice} {cookie : Int}
    {out : RemoteDPEDevice × List RscRequest} (h : r.doAction cookie = some out) :
    r.SameTask out.1 := by
  rw [doAction_eq h]
  exact ⟨rfl, rfl⟩

theorem sameTask_checkHeartBeat (r : RemoteDPEDevice) (expired : Bool) :
    r.SameTask (r.checkHeartBeat expired).1 := by
  rw [checkHeartBeat]
  repeat' split
  all_goals exact ⟨rfl, rfl⟩

theorem sameTask_handleMessage (r : RemoteDPEDevice) (reply : RscReply) :
    r.SameTask (r.handleMessage reply) := by
  have hheard := r.heard reply
  generalize r.handleMessage reply = r' at hheard
  cases hheard <;> exact ⟨rfl, rfl⟩

end RemoteDPEDevice

namespace DeviceLife

theorem Kept.same {l : DeviceLife} (h : l.Kept) {device : RemoteDPEDevice}
    (hsame : l.ready.SameTask device) : Kept { l with device := device } := by
  intro id idx hassigned
  obtain ⟨hid, hidx⟩ := h id idx hassigned
  exact ⟨hsame.taskId.trans hid, hsame.taskIdx.trans hidx⟩

theorem kept_step {l l' : DeviceLife} {a : Label} (h : l.Kept) (hs : step l a = some l') :
    l'.Kept := by
  cases a with
  | initJob args =>
    obtain ⟨device, hdevice, rfl⟩ := Option.map_eq_some_iff.1 hs
    exact h.same (RemoteDPEDevice.sameTask_initJob hdevice)
  | doAction cookie =>
    obtain ⟨r, hr, rfl⟩ := Option.map_eq_some_iff.1 hs
    exact h.same (RemoteDPEDevice.sameTask_doAction hr)
  | doTask taskId taskIdx data =>
    obtain ⟨r, hr, rfl⟩ := Option.map_eq_some_iff.1 hs
    rw [RemoteDPEDevice.doTask] at hr
    split at hr
    · cases hr
    · obtain rfl := Option.some_inj.1 hr
      rintro id idx ⟨⟩
      exact ⟨rfl, rfl⟩
  | checkHeartBeat expired =>
    obtain rfl := Option.some_inj.1 hs
    exact h.same (l.ready.sameTask_checkHeartBeat expired)
  | handleMessage reply =>
    obtain rfl := Option.some_inj.1 hs
    exact h.same (l.ready.sameTask_handleMessage reply)
  | stop =>
    obtain rfl := Option.some_inj.1 hs
    exact h.same ⟨rfl, rfl⟩

/-- A device as it is created. -/
def start (pa session : String) : DeviceLife := { device := { pa := pa, session := session } }

theorem kept_run {pa session : String} {as : List Label} {l : DeviceLife}
    (hrun : step.run (start pa session) as = some l) : l.Kept :=
  Machine.run_invariant (fun _ _ _ => kept_step) (by rintro id idx ⟨⟩) hrun

end DeviceLife

namespace DPEScheduler

/-! ## Whether it is the pair that was given -/

/-- A scheduler in which one task is running. -/
def oneRunning (id idx : Int) : DPEScheduler :=
  { runningQueue := (∅ : Std.TreeMap Int Int).insert id idx }

theorem isEmpty_erase_oneRunning (id n idx : Int) :
    ((oneRunning id idx).runningQueue.erase n).isEmpty = true ↔ n = id := by
  rw [oneRunning, Std.TreeMap.isEmpty_erase, Std.TreeMap.size_insert, Std.TreeMap.contains_insert,
    Std.TreeMap.isEmpty_insert]
  simp only [Std.TreeMap.contains_emptyc, Bool.false_eq_true, if_false, Std.TreeMap.size_emptyc,
    Bool.or_false, Bool.false_or, Nat.zero_add, BEq.rfl, Bool.true_and, beq_iff_eq,
    Std.LawfulEqCmp.compare_eq_iff_eq]
  exact eq_comm

theorem succeedTask_deeds (id n idx idx' : Int) (device : RemoteDPEDevice) :
    ((oneRunning id idx).succeedTask n idx' device).2 = [.willReduceResult] ↔ n = id := by
  rw [← isEmpty_erase_oneRunning id n idx]
  have hnil : (oneRunning id idx).taskQueue = [] := rfl
  simp only [succeedTask, hnil, true_and]
  split
  · next hempty => exact iff_of_true rfl hempty
  · next hempty =>
    refine iff_of_false (fun heq => ?_) hempty
    split at heq <;> cases heq

theorem onTaskSucceedBy_eq_iff {atoi : String → Int} {device : RemoteDPEDevice} {id idx : Int}
    (hidx : device.currTaskIdx = idx) :
    (∀ s, onTaskSucceedBy atoi device s = s.succeedTask id idx device) ↔
      atoi device.currTaskId = id := by
  constructor
  · intro h
    have hdeeds := congrArg Prod.snd (h (oneRunning id idx))
    rw [(succeedTask_deeds id id idx idx device).2 rfl, onTaskSucceedBy] at hdeeds
    exact (succeedTask_deeds id _ idx _ device).1 hdeeds
  · rintro rfl s
    rw [onTaskSucceedBy, hidx]

theorem onTaskFailedBy_eq_iff {atoi : String → Int} {device : RemoteDPEDevice} {id idx : Int}
    (hidx : device.currTaskIdx = idx) :
    (∀ s, onTaskFailedBy atoi device s = s.failTask id idx) ↔ atoi device.currTaskId = id := by
  constructor
  · intro h
    have hrunning := congrArg (fun r => r.1.runningQueue.isEmpty) (h (oneRunning id idx))
    exact (isEmpty_erase_oneRunning id _ idx).1
      (hrunning.trans ((isEmpty_erase_oneRunning id id idx).2 rfl))
  · rintro rfl s
    rw [onTaskFailedBy, hidx]

theorem onDeviceLoseBy_eq_iff {atoi : String → Int} {device : RemoteDPEDevice} {id idx : Int}
    (hidx : device.currTaskIdx = idx) :
    (∀ s, onDeviceLoseBy atoi device s .running = s.loseTask id idx) ↔
      atoi device.currTaskId = id := by
  constructor
  · intro h
    have hqueue := congrArg taskQueue (h {})
    rw [onDeviceLoseBy, if_pos rfl] at hqueue
    exact (Prod.mk.inj (List.singleton_inj.1 hqueue)).1
  · rintro rfl s
    rw [onDeviceLoseBy, if_pos rfl, hidx]

/-! ## What becomes of the task -/

theorem HandOut.result {s t : DPEScheduler} (h : s.HandOut t) {i : Nat} {task : DPETask}
    (hi : s.projectState.taskData[i]? = some task) :
    ∃ task', t.projectState.taskData[i]? = some task' ∧ task'.result = task.result := by
  cases h with
  | dropped => exact ⟨task, hi, rfl⟩
  | handed =>
    rw [DPEProjectState.setTask_getElem?, hi]
    split
    · exact ⟨_, rfl, rfl⟩
    · exact ⟨task, rfl, rfl⟩

/-- The task has the output of the device as its result. -/
theorem succeedTask_result {s : DPEScheduler} {id idx : Int} {i : Nat}
    (hget : s.projectState.getTask id idx = some i) (device : RemoteDPEDevice) :
    ∃ task, (s.succeedTask id idx device).1.projectState.taskData[i]? = some task ∧
      task.result = device.currTaskOutput := by
  obtain ⟨task, htask, -⟩ := DPEProjectState.getTask_spec hget
  have hset : ∀ f : DPETask → DPETask,
      (s.projectState.setTask i f).taskData[i]? = some (f task) := fun f => by
    rw [DPEProjectState.setTask_getElem?, if_pos rfl, htask]
    rfl
  simp only [succeedTask, hget]
  split
  · exact ⟨_, hset _, rfl⟩
  · split
    · refine onDeviceAvailable_induction (P := fun t => ∃ task,
        t.projectState.taskData[i]? = some task ∧ task.result = device.currTaskOutput) ?_
        ⟨_, hset _, rfl⟩
      rintro t u ⟨task, htask, hresult⟩ hout
      obtain ⟨task', htask', heq⟩ := hout.result htask
      exact ⟨task', htask', heq.trans hresult⟩
    · exact ⟨_, hset _, rfl⟩

end DPEScheduler

/-! ## The devices of a job -/

/-- The device is as some life has left it. -/
def Listed.Lived (w : Listed) : Prop :=
  ∃ pa session as l, DeviceLife.step.run (DeviceLife.start pa session) as = some l ∧
    l.ready = w.ready

theorem Listed.Lived.extend {w w' : Listed} (h : w.Lived) (a : DeviceLife.Label)
    (hstep : ∀ l : DeviceLife, l.ready = w.ready →
      ∃ l', DeviceLife.step l a = some l' ∧ l'.ready = w'.ready) : w'.Lived := by
  obtain ⟨pa, session, as, l, hrun, hready⟩ := h
  obtain ⟨l', hl', hready'⟩ := hstep l hready
  exact ⟨pa, session, as ++ [a], l', Machine.run_append.2
    ⟨l, hrun, Machine.run_cons.2 ⟨l', hl', rfl⟩⟩, hready'⟩

namespace DPEScheduler

/-- All the devices of the scheduler are so. -/
def Lived (s : DPEScheduler) : Prop := ∀ w ∈ s.deviceList, w.Lived

theorem Lived.handOut {s t : DPEScheduler} (h : s.Lived) (hout : s.HandOut t) : t.Lived := by
  cases hout with
  | dropped => exact h
  | @handed id idx queue k i worker task hqueue hget htask hworker hidle =>
    intro w hw
    rcases List.mem_or_eq_of_mem_set hw with hw | rfl
    · exact h w hw
    · refine (h worker (List.mem_of_getElem? hworker)).extend
        (.doTask id idx (String.ofList (Decimal.chars (task.input ++ [10])))) fun l hl => ?_
      refine ⟨⟨(worker.given id idx task).ready, some (id, idx)⟩, ?_, rfl⟩
      have hstate : l.ready.deviceState = .runningIdle := hl ▸ hidle
      rw [DeviceLife.step, RemoteDPEDevice.doTask, if_neg (not_not.2 hstate), Option.map_some, hl]
      rfl

theorem Lived.onDeviceAvailable {s : DPEScheduler} (h : s.Lived) : s.onDeviceAvailable.Lived :=
  onDeviceAvailable_induction (P := Lived) (fun _ _ hs hout => hs.handOut hout) h

theorem Lived.managerCall {s : DPEScheduler} (h : s.Lived) (k : Nat) (device : RemoteDPEDevice)
    (call : ManagerCall) : (s.managerCall k device call).1.Lived := by
  cases call with
  | onInitJobFinish =>
    rw [DPEScheduler.managerCall]
    split
    · exact h.onDeviceAvailable
    · exact h
  | onTaskSucceed =>
    simp only [DPEScheduler.managerCall, onTaskSucceed]
    split
    · exact h
    · split
      · exact Lived.onDeviceAvailable h
      · exact h
  | onTaskFailed => exact h
  | onDeviceLose state =>
    intro w hw
    have hmem := List.mem_of_mem_eraseIdx hw
    rw [onDeviceLose] at hmem
    split at hmem <;> exact h w hmem

theorem Lived.managerCalls {s : DPEScheduler} (h : s.Lived) (k : Nat) (device : RemoteDPEDevice)
    (calls : List ManagerCall) : (s.managerCalls k device calls).1.Lived := by
  induction calls generalizing s with
  | nil => exact h
  | cons call calls ih => exact ih (h.managerCall k device call)

theorem Lived.putDevice {s : DPEScheduler} (h : s.Lived) (k : Nat) {w : Listed} (hw : w.Lived) :
    (s.putDevice k w).1.Lived := by
  refine Lived.managerCalls (fun w' hw' => ?_) k _ _
  rcases List.mem_or_eq_of_mem_set hw' with hw' | rfl
  · exact h w' hw'
  · exact hw

theorem Lived.onSourceStop {s : DPEScheduler} (h : s.Lived) (env : ProjectEnv) (fs : FileSystem)
    (sinkStarts : Bool) : (s.onSourceStop env fs sinkStarts).1.Lived := by
  simp only [DPEScheduler.onSourceStop]
  split
  · exact h
  · split
    · exact h
    · exact Lived.onDeviceAvailable h

end DPEScheduler

namespace JobRun

theorem reduce_scheduler (exit : Option (Nat × ExitReason × Int)) (s : JobRun) :
    (s.reduce exit).scheduler = s.scheduler := by
  obtain ⟨-, heq⟩ | ⟨-, taken, sink, heq⟩ := reduce_cases exit s
  · rw [heq]
  · rw [heq]

theorem lived_step {env : ProjectEnv} {s t : JobRun} {e : Event} (h : s.scheduler.Lived)
    (hs : step env s e = some t) : t.scheduler.Lived := by
  cases (taken_of_step hs).2 with
  | sourceOutput => exact h
  | sourceStop =>
    rw [put_scheduler]
    exact h.onSourceStop env _ _
  | sinkOutput => exact h
  | sinkExit => exact h
  | sinkStop =>
    rw [put_scheduler]
    exact h
  | reduce =>
    rw [reduce_scheduler]
    exact h
  | @addDevice pa session args =>
    intro w hw
    rcases List.mem_append.1 hw with hw | hw
    · exact h w hw
    · rw [List.mem_singleton.1 hw]
      cases args with
      | none => exact ⟨pa, session, [], _, rfl, rfl⟩
      | some args => exact ⟨pa, session, [.initJob args], _, rfl, rfl⟩
  | @doAction k cookie w r hw hr =>
    rw [put_scheduler]
    refine h.putDevice k ((h w (List.mem_of_getElem? hw)).extend (.doAction cookie) fun l hl => ?_)
    exact ⟨_, by rw [DeviceLife.step, hl, hr]; rfl, rfl⟩
  | @checkHeartBeat k expired w hw =>
    rw [put_scheduler]
    refine h.putDevice k
      ((h w (List.mem_of_getElem? hw)).extend (.checkHeartBeat expired) fun l hl => ?_)
    exact ⟨_, by rw [DeviceLife.step, hl], rfl⟩
  | @reply k reply w hw =>
    rw [put_scheduler]
    refine h.putDevice k
      ((h w (List.mem_of_getElem? hw)).extend (.handleMessage reply) fun l hl => ?_)
    exact ⟨_, by rw [DeviceLife.step, hl], rfl⟩

/-- Every device of a job has a life. -/
theorem lived_run {env : ProjectEnv} {project : DPEProject} {es : List Event} {s : JobRun}
    (hrun : (step env).run (start project) es = some s) : s.scheduler.Lived :=
  Machine.run_invariant (P := fun s => s.scheduler.Lived) (fun _ _ _ => lived_step)
    (List.forall_mem_nil _) hrun

end JobRun

namespace DeviceLife

/-- **Which task ids survive.**  A device has last been given the task with this id and index, and
anything may have happened to it since.  In every state of the scheduler `OnTaskSucceed`,
`OnTaskFailed` and `OnDeviceLose` act on this pair, each of them exactly if the id fits in 32 bits;
the result of the task is then stored, and the task put back into the queue. -/
theorem acts_on_iff {atoi : String → Int} (hatoi : ReadsInts atoi) {pa session : String}
    {as : List Label} {l : DeviceLife} (hrun : step.run (start pa session) as = some l)
    {id idx : Int} (hassigned : l.assigned = some (id, idx)) :
    ((∀ s : DPEScheduler,
        s.onTaskSucceedBy atoi l.device = s.succeedTask id idx l.device) ↔ Fits id) ∧
    ((∀ s : DPEScheduler, s.onTaskFailedBy atoi l.device = s.failTask id idx) ↔ Fits id) ∧
    ((∀ s : DPEScheduler, s.onDeviceLoseBy atoi l.device .running = s.loseTask id idx) ↔
      Fits id) ∧
    (Fits id → ∀ s : DPEScheduler,
      (∀ i, s.projectState.getTask id idx = some i → ∃ task,
        (s.onTaskSucceedBy atoi l.device).1.projectState.taskData[i]? = some task ∧
          task.result = l.device.currTaskOutput) ∧
      (id, idx) ∈ (s.onDeviceLoseBy atoi l.device .running).taskQueue) := by
  obtain ⟨hid, hidx⟩ := kept_run hrun id idx hassigned
  have hfits : atoi l.device.currTaskId = id ↔ Fits id := by
    rw [hid]
    exact hatoi.toString_eq_iff id
  have hsucceed := (DPEScheduler.onTaskSucceedBy_eq_iff hidx).trans hfits
  have hlose := (DPEScheduler.onDeviceLoseBy_eq_iff hidx).trans hfits
  refine ⟨hsucceed, (DPEScheduler.onTaskFailedBy_eq_iff hidx).trans hfits, hlose,
    fun hin s => ⟨fun i hget => ?_, ?_⟩⟩
  · rw [hsucceed.2 hin s]
    exact DPEScheduler.succeedTask_result hget l.device
  · rw [hlose.2 hin s]
    exact List.mem_append_right _ (List.mem_singleton_self _)

/-- A device that runs the task with this id. -/
def runsTask (id : Int) : List Label :=
  [.initJob JobRun.sampleArgs, .handleMessage (.initJob "0"), .doTask id 0 "x\n"]

theorem runsTask_run (id : Int) : ∃ l, step.run (start "pa" "1") (runsTask id) = some l ∧
    l.assigned = some (id, 0) := ⟨_, rfl, rfl⟩

theorem acts_on_iff_seven : ∃ l : DeviceLife,
    step.run (start "pa" "1") (runsTask 7) = some l ∧ l.assigned = some (7, 0) ∧
      ∀ s : DPEScheduler, s.onTaskSucceedBy atoi l.device = s.succeedTask 7 0 l.device := by
  obtain ⟨l, hrun, hassigned⟩ := runsTask_run 7
  exact ⟨l, hrun, hassigned, (acts_on_iff readsInts_atoi hrun hassigned).1.2 (by decide)⟩

end DeviceLife

namespace JobRun

/-- The only line has an id of more than 32 bits. -/
def largeIdEvents : List Event :=
  [.sourceOutput true (Decimal.bytes "5000000000:x\n".toList),
    .sourceStop .exit 0 (fun _ => none) true, .addDevice "pa" "1" (some sampleArgs),
    .reply 0 (.initJob "0"), .reply 0 (.doTask "0" (some "5000000000") (some [88]))]

theorem largeIdEvents_run : ((step sampleEnv).run (start {}) largeIdEvents).isSome = true := by
  decide

/-- Whatever `atoi` does, it does not read this id; and in a job with this id the only device
answers, but the result is not stored and the task stays in the map. -/
theorem large_id_lost :
    (∀ atoi, ReadsInts atoi → ¬ ∀ (pa session : String) (as : List DeviceLife.Label)
        (l : DeviceLife) (id idx : Int),
      DeviceLife.step.run (DeviceLife.start pa session) as = some l →
      l.assigned = some (id, idx) → ∀ s : DPEScheduler,
        s.onTaskSucceedBy atoi l.device = s.succeedTask id idx l.device ∧
        s.onTaskFailedBy atoi l.device = s.failTask id idx ∧
        s.onDeviceLoseBy atoi l.device .running = s.loseTask id idx) ∧
    ∃ (s : JobRun) (task : DPETask), (step sampleEnv).run (start {}) largeIdEvents = some s ∧
      s.scheduler.projectState.taskData = [task] ∧ task.result = [] ∧
      s.scheduler.runningQueue.isEmpty = false ∧
      ∀ w ∈ s.scheduler.deviceList, w.device.deviceState = .runningIdle := by
  constructor
  · intro atoi hatoi h
    obtain ⟨l, hrun, hassigned⟩ := DeviceLife.runsTask_run 5000000000
    obtain ⟨hid, hidx⟩ := DeviceLife.kept_run hrun _ _ hassigned
    have heq := (DPEScheduler.onTaskSucceedBy_eq_iff hidx).1 fun s =>
      (h _ _ _ l _ _ hrun hassigned s).1
    rw [hid, hatoi.toString_eq_iff] at heq
    exact absurd heq (by decide)
  · refine ⟨_, _, (Option.some_get largeIdEvents_run).symm, rfl, by decide, by decide, ?_⟩
    decide

end JobRun

end Dcfpe

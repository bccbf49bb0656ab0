import Dcfpe.Service.Scheduler

/-!
# The steps of a job

What one step of a `JobRun` does, said once.  A device is changed by the event it is about, and what
its manager then does depends on the call it has made: `DeviceStep` has one case for each.
`onDeviceAvailable` hands out one task after the other, each by `HandOut`, and keeps what they keep.
-/

set_option autoImplicit false

namespace Dcfpe

/-- What is in a list with one place changed. -/
theorem getElem?_set_cases {α : Type} {l : List α} {k j : Nat} {a b : α}
    (h : (l.set k a)[j]? = some b) : k = j ∧ b = a ∨ k ≠ j ∧ l[j]? = some b := by
  rw [List.getElem?_set] at h
  split at h
  · next hkj =>
    split at h
    · exact .inl ⟨hkj, (Option.some.inj h).symm⟩
    · cases h
  · next hkj => exact .inr ⟨hkj, h⟩

/-! ## Handing out tasks -/

/-- The device is sent a task. -/
def Listed.given (id idx : Int) (task : DPETask) (w : Listed) : Listed :=
  { device :=
      { w.device with
        currTaskId := toString id
        currTaskIdx := idx
        currTaskInput := String.ofList (Decimal.chars (task.input ++ [10]))
        currTaskOutput := []
        deviceState := .running }
    unanswered := true }

namespace DPEScheduler

/-- One round of `OnDeviceAvailable`. -/
inductive HandOut (s : DPEScheduler) : DPEScheduler → Prop where
  | dropped {id idx : Int} {queue : List (Int × Int)} (hqueue : s.taskQueue = (id, idx) :: queue)
      (htask : s.projectState.getTask id idx = none) : HandOut s { s with taskQueue := queue }
  | handed {id idx : Int} {queue : List (Int × Int)} {k i : Nat} {worker : Listed} {task : DPETask}
      (hqueue : s.taskQueue = (id, idx) :: queue)
      (hget : s.projectState.getTask id idx = some i)
      (htask : s.projectState.taskData[i]? = some task)
      (hworker : s.deviceList[k]? = some worker)
      (hidle : worker.device.deviceState = .runningIdle) :
      HandOut s
        { s with
          taskQueue := queue
          projectState := s.projectState.setTask i fun task => { task with state := .running }
          runningQueue := s.runningQueue.insertIfNew id idx
          deviceList := s.deviceList.set k (worker.given id idx task) }

theorem getWorker_eq_some {s : DPEScheduler} {k : Nat} (h : s.getWorker = some k) :
    ∃ worker, s.deviceList[k]? = some worker ∧ worker.device.deviceState = .runningIdle := by
  obtain ⟨hlt, hidle, -⟩ := List.findIdx?_eq_some_iff_getElem.1 h
  exact ⟨s.deviceList[k], List.getElem?_eq_getElem hlt, by simpa using hidle⟩

theorem handOut_of_availableStep {s t : DPEScheduler} (h : s.availableStep = some t) :
    s.HandOut t := by
  rw [availableStep] at h
  split at h
  · cases h
  · next id idx queue hqueue =>
    split at h
    · cases h
    · next k hk =>
      obtain ⟨worker, hworker, hidle⟩ := getWorker_eq_some hk
      split at h
      · next hget =>
        obtain rfl := Option.some.inj h
        exact .dropped hqueue hget
      · next i hget =>
        rw [hworker] at h
        split at h
        · next worker' task heq htask =>
          obtain rfl := Option.some.inj heq
          rw [RemoteDPEDevice.doTask, if_neg (not_not.2 hidle)] at h
          obtain rfl := Option.some.inj h
          exact .handed hqueue hget htask hworker hidle
        · cases h

/-- What each round keeps, `onDeviceAvailable` keeps. -/
theorem onDeviceAvailable_induction {P : DPEScheduler → Prop}
    (hstep : ∀ s t, P s → s.HandOut t → P t) {s : DPEScheduler} (hs : P s) :
    P s.onDeviceAvailable := by
  rw [onDeviceAvailable]
  generalize s.taskQueue.length = n
  induction n generalizing s with
  | zero => exact hs
  | succ n ih =>
    rw [availableLoop]
    split
    · exact hs
    · next t ht => exact ih (hstep s t hs (handOut_of_availableStep ht))

theorem onDeviceAvailable_inputData (s : DPEScheduler) :
    s.onDeviceAvailable.inputData = s.inputData := by
  refine onDeviceAvailable_induction (P := fun t => t.inputData = s.inputData) ?_ rfl
  rintro t u ht (_ | _) <;> exact ht

theorem onTaskSucceed_inputData (device : RemoteDPEDevice) (s : DPEScheduler) :
    (s.onTaskSucceed device).1.inputData = s.inputData := by
  rw [onTaskSucceed]
  dsimp only
  split
  · rfl
  · split
    · exact onDeviceAvailable_inputData _
    · rfl

theorem onDeviceLose_inputData (device : RemoteDPEDevice) (state : RemoteDeviceState)
    (s : DPEScheduler) : (s.onDeviceLose device state).inputData = s.inputData := by
  rw [onDeviceLose]
  split
  · rfl
  · rfl

theorem onDeviceAvailable_idle {s : DPEScheduler} (h : s.taskQueue = []) :
    s.onDeviceAvailable = s := by
  rw [onDeviceAvailable, h]
  rfl

/-- The tasks are there, and the sink is started. -/
def sourceStopped (env : ProjectEnv) (fs : FileSystem) (s : DPEScheduler) : DPEScheduler :=
  let projectState :=
    (DPEProject.loadSavedState env fs s.project (s.projectState.addInputData s.inputData)).2
  { s with
    projectState := projectState
    runningQueue := ∅
    taskQueue := projectState.makeTaskQueue
    outputData := [] }

@[simp] theorem sourceStopped_inputData (env : ProjectEnv) (fs : FileSystem) (s : DPEScheduler) :
    (s.sourceStopped env fs).inputData = s.inputData := rfl

/-- The three ways on from the end of the source. -/
theorem onSourceStop_cases (env : ProjectEnv) (fs : FileSystem) (sinkStarts : Bool)
    (s : DPEScheduler) :
    let t := s.sourceStopped env fs
    let count := countLine t.projectState.taskData.length
    (s.onSourceStop env fs sinkStarts).2 = [.onRunningError] ∧
        (s.onSourceStop env fs sinkStarts).1.inputData = s.inputData ∨
      t.taskQueue = [] ∧ s.onSourceStop env fs sinkStarts =
        (t, [.startSink, .writeSink count, .willReduceResult]) ∨
      t.taskQueue ≠ [] ∧ s.onSourceStop env fs sinkStarts =
        (t.onDeviceAvailable, [.startSink, .writeSink count]) := by
  simp only [onSourceStop]
  split
  · exact .inl ⟨rfl, rfl⟩
  · split
    · next hqueue => exact .inr (.inl ⟨hqueue, rfl⟩)
    · next hqueue => exact .inr (.inr ⟨hqueue, rfl⟩)

theorem putDevice_quiet {w : Listed} (h : w.device.calls = []) (k : Nat) (s : DPEScheduler) :
    s.putDevice k w = (s.setDevice k w, []) := by
  simp only [putDevice, h, managerCalls]

theorem putDevice_call {w : Listed} {c : ManagerCall} (h : w.device.calls = [c]) (k : Nat)
    (s : DPEScheduler) : s.putDevice k w = (s.setDevice k w).managerCall k w.device c := by
  simp only [putDevice, h, managerCalls, List.append_nil]

end DPEScheduler

/-! ## What a device does -/

theorem RemoteDPEDevice.doAction_eq {r : RemoteDPEDevice} {cookie : Int}
    {out : RemoteDPEDevice × List RscRequest} (h : r.doAction cookie = some out) :
    out.1 = { r with doInitJob := out.1.doInitJob } := by
  rw [doAction] at h
  split at h
  · cases h
  · split at h
    · cases h
    · split at h
      · obtain rfl := Option.some.inj h
        rfl
      · obtain rfl := Option.some.inj h
        rfl
      · obtain rfl := Option.some.inj h
        rw [onRepeatedActionFinish]
        split <;> rfl

/-- The device keeps its task. -/
structure Listed.SameTask (w w' : Listed) : Prop where
  taskId : w'.device.currTaskId = w.device.currTaskId
  taskIdx : w'.device.currTaskIdx = w.device.currTaskIdx

namespace JobRun

open DPEScheduler

/-- What an event of the device at place `k`, which is `w`, does to the scheduler. -/
inductive DeviceStep (s : DPEScheduler) (k : Nat) (w : Listed) :
    Event → DPEScheduler × List SchedulerDeed → Prop where
  | quiet {e : Event} {w' : Listed} (htask : w.SameTask w')
      (hstate : w'.device.deviceState = w.device.deviceState)
      (hun : w'.unanswered = true → w.unanswered = true)
      (hbusy : w.device.deviceState = .running → w'.unanswered = w.unanswered) :
      DeviceStep s k w e (s.setDevice k w', [])
  | initJobFailed {errorCode : String} {w' : Listed} (htask : w.SameTask w')
      (hstate : w'.device.deviceState = .failed) (hun : w'.unanswered = w.unanswered) :
      DeviceStep s k w (.reply k (.initJob errorCode)) (s.setDevice k w', [])
  | initJobDone {w' : Listed} (htask : w.SameTask w')
      (hstate : w'.device.deviceState = .runningIdle) (hun : w'.unanswered = w.unanswered) :
      DeviceStep s k w (.reply k (.initJob "0")) ((s.setDevice k w').onDeviceAvailable, [])
  | taskFailed {reply : RscReply} {w' : Listed} :
      DeviceStep s k w (.reply k reply) ((s.setDevice k w').onTaskFailed w'.device)
  | taskSucceeded {output : Bytes} {w' : Listed} (htask : w.SameTask w')
      (hstate : w'.device.deviceState = .runningIdle) (hun : w'.unanswered = false) :
      DeviceStep s k w (.reply k (.doTask "0" (some w.device.currTaskId) (some output)))
        ((s.setDevice k w').onTaskSucceed w'.device)
  | lost {w' : Listed} (htask : w.SameTask w') (hreply : w.device.hasReply = false) :
      DeviceStep s k w (.checkHeartBeat k true)
        ({ (s.setDevice k w').onDeviceLose w'.device w.device.deviceState with
          deviceList :=
            ((s.setDevice k w').onDeviceLose w'.device
              w.device.deviceState).deviceList.eraseIdx k },
        [])

theorem deviceStep_doAction {s : DPEScheduler} {k : Nat} {w : Listed} {cookie : Int}
    {r : RemoteDPEDevice × List RscRequest} (h : w.ready.doAction cookie = some r) (e : Event) :
    DeviceStep s k w e (s.putDevice k { w with device := r.1 }) := by
  rw [RemoteDPEDevice.doAction_eq h]
  exact .quiet ⟨rfl, rfl⟩ rfl id fun _ => rfl

theorem deviceStep_checkHeartBeat (s : DPEScheduler) (k : Nat) (w : Listed) (expired : Bool) :
    DeviceStep s k w (.checkHeartBeat k expired)
      (s.putDevice k { w with device := (w.ready.checkHeartBeat expired).1 }) := by
  rw [RemoteDPEDevice.checkHeartBeat]
  split
  · exact .quiet ⟨rfl, rfl⟩ rfl id fun _ => rfl
  · next hreply =>
    split
    · next hexpired =>
      rw [hexpired]
      exact .lost ⟨rfl, rfl⟩ (by simpa [Listed.ready] using hreply)
    · exact .quiet ⟨rfl, rfl⟩ rfl id fun _ => rfl

theorem deviceStep_reply (s : DPEScheduler) (k : Nat) (w : Listed) (reply : RscReply) :
    DeviceStep s k w (.reply k reply)
      (s.putDevice k
        { device := w.ready.handleMessage reply
          unanswered := w.unanswered && !decide (w.AnsweredBy reply) }) := by
  have hheard := w.ready.heard reply
  generalize w.ready.handleMessage reply = device at hheard
  cases hheard with
  | dead hdead =>
    rw [putDevice_quiet rfl]
    refine .quiet ⟨rfl, rfl⟩ rfl (fun hun => (Bool.and_eq_true_iff.1 hun).1) fun hrun => ?_
    rcases hdead with hdead | hdead <;> cases hrun.symm.trans hdead
  | heartBeat =>
    rw [putDevice_quiet rfl]
    exact .quiet ⟨rfl, rfl⟩ rfl (fun hun => (Bool.and_eq_true_iff.1 hun).1) fun _ => Bool.and_true _
  | initJobFailed =>
    rw [putDevice_call rfl]
    exact .initJobFailed ⟨rfl, rfl⟩ rfl (Bool.and_true _)
  | initJobDone =>
    rw [putDevice_call rfl]
    exact .initJobDone ⟨rfl, rfl⟩ rfl (Bool.and_true _)
  | taskFailed =>
    rw [putDevice_call rfl]
    exact .taskFailed
  | taskSucceeded =>
    rw [putDevice_call rfl]
    exact .taskSucceeded ⟨rfl, rfl⟩ rfl (by simp [Listed.AnsweredBy, Listed.ready])

theorem deviceStep_deeds {s : DPEScheduler} {k : Nat} {w : Listed} {e : Event}
    {r : DPEScheduler × List SchedulerDeed} (h : DeviceStep s k w e r) :
    r.2 = [] ∨ r.2 = [.willReduceResult] ∨ r.2 = [.onRunningError] := by
  cases h with
  | quiet => exact .inl rfl
  | initJobFailed => exact .inl rfl
  | initJobDone => exact .inl rfl
  | taskFailed => exact .inr (.inr rfl)
  | taskSucceeded =>
    simp only [onTaskSucceed]
    split
    · exact .inr (.inl rfl)
    · exact .inl rfl
  | lost => exact .inl rfl

theorem deviceStep_inputData {s : DPEScheduler} {k : Nat} {w : Listed} {e : Event}
    {r : DPEScheduler × List SchedulerDeed} (h : DeviceStep s k w e r) :
    r.1.inputData = s.inputData := by
  cases h with
  | quiet => rfl
  | initJobFailed => rfl
  | initJobDone => exact onDeviceAvailable_inputData _
  | taskFailed => rfl
  | taskSucceeded => exact onTaskSucceed_inputData _ _
  | lost => exact onDeviceLose_inputData _ _ _

/-! ## What the scheduler does outside -/

theorem foldl_perform (deeds : List SchedulerDeed) (s : JobRun) :
    (deeds.foldl perform s).scheduler = s.scheduler ∧ (deeds.foldl perform s).source = s.source ∧
      (deeds.foldl perform s).reductions = s.reductions := by
  induction deeds generalizing s with
  | nil => exact ⟨rfl, rfl, rfl⟩
  | cons deed deeds ih =>
    obtain ⟨hscheduler, hsource, hreductions⟩ := ih (s.perform deed)
    rw [List.foldl_cons, hscheduler, hsource, hreductions]
    cases deed <;> exact ⟨rfl, rfl, rfl⟩

theorem put_scheduler (s : JobRun) (r : DPEScheduler × List SchedulerDeed) :
    (s.put r).scheduler = r.1 :=
  (foldl_perform r.2 _).1

theorem put_source (s : JobRun) (r : DPEScheduler × List SchedulerDeed) :
    (s.put r).source = s.source :=
  (foldl_perform r.2 _).2.1

theorem put_reductions (s : JobRun) (r : DPEScheduler × List SchedulerDeed) :
    (s.put r).reductions = s.reductions :=
  (foldl_perform r.2 _).2.2

/-- `ReduceResultImpl` returns at once, or it goes over all the tasks. -/
theorem reduce_cases (exit : Option (Nat × ExitReason × Int)) (s : JobRun) :
    ¬ (s.scheduler.taskQueue = [] ∧ s.scheduler.runningQueue.isEmpty = true) ∧
      s.reduce exit = { s with reduces := s.reduces - 1 } ∨
    (s.scheduler.taskQueue = [] ∧ s.scheduler.runningQueue.isEmpty = true) ∧
      ∃ (taken : Nat) (sink : SinkState),
        s.reduce exit =
          { s with
            reduces := s.reduces - 1
            sinkInput := s.sinkInput ++ s.scheduler.projectState.taskData.map resultLine
            reductions := s.reductions ++ [⟨s.scheduler.projectState.taskData, taken⟩]
            sink := sink } := by
  by_cases hidle : s.scheduler.taskQueue = [] ∧ s.scheduler.runningQueue.isEmpty = true
  · refine .inr ⟨hidle, ?_⟩
    have hresults : s.scheduler.reduceResultImpl =
        some (s.scheduler.projectState.taskData.map resultLine) := by
      rw [reduceResultImpl, if_neg]
      simp [hidle]
    simp only [reduce, hresults]
    split
    · exact ⟨_, _, rfl⟩
    · split
      · exact ⟨_, _, rfl⟩
      · exact ⟨_, _, rfl⟩
  · refine .inl ⟨hidle, ?_⟩
    have hresults : s.scheduler.reduceResultImpl = none := by
      rw [reduceResultImpl, if_pos]
      by_contra hc
      exact hidle (by simpa using hc)
    simp only [reduce, hresults]

/-! ## The steps -/

/-- The event is possible, and this is where it leads to. -/
inductive Taken (env : ProjectEnv) (s : JobRun) : Event → JobRun → Prop where
  | sourceOutput {isStdOut : Bool} {data : Bytes} (hsource : s.source = none) :
      Taken env s (.sourceOutput isStdOut data)
        { s with
          scheduler :=
            { s.scheduler with
              inputData :=
                if isStdOut then s.scheduler.inputData ++ data else s.scheduler.inputData } }
  | sourceStop {exitReason : ExitReason} {exitCode : Int} {fs : FileSystem} {sinkStarts : Bool}
      (hsource : s.source = none) :
      Taken env s (.sourceStop exitReason exitCode fs sinkStarts)
        ({ s with source := some (exitReason, exitCode) }.put
          (s.scheduler.onSourceStop env fs sinkStarts))
  | sinkOutput {isStdOut : Bool} {data : Bytes} :
      Taken env s (.sinkOutput isStdOut data)
        { s with
          scheduler :=
            { s.scheduler with
              outputData :=
                if isStdOut then s.scheduler.outputData ++ data else s.scheduler.outputData } }
  | sinkExit {exitReason : ExitReason} {exitCode : Int} (hsink : s.sink = .running) :
      Taken env s (.sinkExit exitReason exitCode) { s with sink := .ended exitReason exitCode }
  | sinkStop {exitReason : ExitReason} {exitCode : Int}
      (hsink : s.sink = .ended exitReason exitCode) :
      Taken env s .sinkStop
        ({ s with sink := .stopped exitReason exitCode }.put
          (s.scheduler, onSinkStop exitReason exitCode))
  | reduce {exit : Option (Nat × ExitReason × Int)} (hposted : s.reduces ≠ 0) :
      Taken env s (.reduce exit) (s.reduce exit)
  | addDevice {pa session : String} {args : Option InitJobArgs} :
      Taken env s (.addDevice pa session args)
        { s with
          scheduler :=
            { s.scheduler with
              deviceList :=
                s.scheduler.deviceList ++ [{
                  device :=
                    (args.bind (RemoteDPEDevice.initJob ·
                      { pa := pa, session := session })).getD
                      { pa := pa, session := session } }] } }
  | doAction {k : Nat} {cookie : Int} {w : Listed} {r : RemoteDPEDevice × List RscRequest}
      (hw : s.scheduler.deviceList[k]? = some w) (hr : w.ready.doAction cookie = some r) :
      Taken env s (.doAction k cookie) (s.put (s.scheduler.putDevice k { w with device := r.1 }))
  | checkHeartBeat {k : Nat} {expired : Bool} {w : Listed}
      (hw : s.scheduler.deviceList[k]? = some w) :
      Taken env s (.checkHeartBeat k expired)
        (s.put (s.scheduler.putDevice k
          { w with device := (w.ready.checkHeartBeat expired).1 }))
  | reply {k : Nat} {reply : RscReply} {w : Listed} (hw : s.scheduler.deviceList[k]? = some w) :
      Taken env s (.reply k reply)
        (s.put (s.scheduler.putDevice k
          { device := w.ready.handleMessage reply
            unanswered := w.unanswered && !decide (w.AnsweredBy reply) }))

theorem taken_of_step {env : ProjectEnv} {s t : JobRun} {e : Event}
    (h : step env s e = some t) : s.ended = none ∧ Taken env s e t := by
  simp only [step] at h
  split at h
  · cases h
  · next hended =>
    refine ⟨by simpa using hended, ?_⟩
    cases e with
    | sourceOutput isStdOut data =>
      simp only at h
      split at h
      · cases h
      · next hsource =>
        obtain rfl := Option.some.inj h
        exact .sourceOutput (by simpa using hsource)
    | sourceStop exitReason exitCode fs sinkStarts =>
      simp only at h
      split at h
      · cases h
      · next hsource =>
        obtain rfl := Option.some.inj h
        exact .sourceStop (by simpa using hsource)
    | sinkOutput isStdOut data =>
      simp only at h
      split at h
      · obtain rfl := Option.some.inj h
        exact .sinkOutput
      · obtain rfl := Option.some.inj h
        exact .sinkOutput
      · cases h
    | sinkExit exitReason exitCode =>
      simp only at h
      split at h
      · next hsink =>
        obtain rfl := Option.some.inj h
        exact .sinkExit hsink
      · cases h
    | sinkStop =>
      simp only at h
      split at h
      · next hsink =>
        obtain rfl := Option.some.inj h
        exact .sinkStop hsink
      · cases h
    | reduce exit =>
      simp only at h
      split at h
      · cases h
      · next hposted =>
        obtain rfl := Option.some.inj h
        exact .reduce hposted
    | addDevice pa session args =>
      obtain rfl := Option.some.inj h
      exact .addDevice
    | doAction k cookie =>
      obtain ⟨w, hw, h⟩ := Option.bind_eq_some_iff.1 h
      obtain ⟨r, hr, rfl⟩ := Option.map_eq_some_iff.1 h
      exact .doAction hw hr
    | checkHeartBeat k expired =>
      obtain ⟨w, hw, h⟩ := Option.bind_eq_some_iff.1 h
      split at h
      · cases h
      · obtain rfl := Option.some.inj h
        exact .checkHeartBeat hw
    | reply k reply =>
      obtain ⟨w, hw, rfl⟩ := Option.map_eq_some_iff.1 h
      exact .reply hw

/-- What a step does, with the device events as one. -/
inductive Stepped (env : ProjectEnv) (s : JobRun) : Event → JobRun → Prop where
  | sourceOutput {isStdOut : Bool} {data inputData : Bytes} (hsource : s.source = none) :
      Stepped env s (.sourceOutput isStdOut data)
        { s with scheduler := { s.scheduler with inputData := inputData } }
  | sourceStop {exitReason : ExitReason} {exitCode : Int} {fs : FileSystem} {sinkStarts : Bool}
      (hsource : s.source = none) :
      Stepped env s (.sourceStop exitReason exitCode fs sinkStarts)
        ({ s with source := some (exitReason, exitCode) }.put
          (s.scheduler.onSourceStop env fs sinkStarts))
  | sinkOutput {isStdOut : Bool} {data outputData : Bytes} :
      Stepped env s (.sinkOutput isStdOut data)
        { s with scheduler := { s.scheduler with outputData := outputData } }
  | sinkExit {exitReason : ExitReason} {exitCode : Int} (hsink : s.sink = .running) :
      Stepped env s (.sinkExit exitReason exitCode) { s with sink := .ended exitReason exitCode }
  | sinkStop {exitReason : ExitReason} {exitCode : Int}
      (hsink : s.sink = .ended exitReason exitCode) :
      Stepped env s .sinkStop
        ({ s with sink := .stopped exitReason exitCode }.put
          (s.scheduler, onSinkStop exitReason exitCode))
  | reduce {exit : Option (Nat × ExitReason × Int)} (hposted : s.reduces ≠ 0) :
      Stepped env s (.reduce exit) (s.reduce exit)
  | addDevice {pa session : String} {args : Option InitJobArgs} {device : RemoteDPEDevice}
      (hstate : device.deviceState ≠ .running) (hidle : device.deviceState ≠ .runningIdle) :
      Stepped env s (.addDevice pa session args)
        { s with
          scheduler :=
            { s.scheduler with deviceList := s.scheduler.deviceList ++ [{ device := device }] } }
  | device {e : Event} {k : Nat} {w : Listed} {r : DPEScheduler × List SchedulerDeed}
      (hw : s.scheduler.deviceList[k]? = some w) (hstep : DeviceStep s.scheduler k w e r) :
      Stepped env s e (s.put r)

theorem stepped_of_step {env : ProjectEnv} {s t : JobRun} {e : Event}
    (h : step env s e = some t) : s.ended = none ∧ Stepped env s e t := by
  obtain ⟨hended, htaken⟩ := taken_of_step h
  refine ⟨hended, ?_⟩
  cases htaken with
  | sourceOutput hsource => exact .sourceOutput hsource
  | sourceStop hsource => exact .sourceStop hsource
  | sinkOutput => exact .sinkOutput
  | sinkExit hsink => exact .sinkExit hsink
  | sinkStop hsink => exact .sinkStop hsink
  | reduce hposted => exact .reduce hposted
  | @addDevice pa session args =>
    refine .addDevice ?_ ?_
    all_goals
      cases args with
      | none => exact RemoteDeviceState.noConfusion
      | some args => exact RemoteDeviceState.noConfusion
  | doAction hw hr => exact .device hw (deviceStep_doAction hr _)
  | checkHeartBeat hw => exact .device hw (deviceStep_checkHeartBeat s.scheduler _ _ _)
  | reply hw => exact .device hw (deviceStep_reply s.scheduler _ _ _)

end JobRun

end Dcfpe

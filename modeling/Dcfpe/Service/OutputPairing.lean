import Dcfpe.Service.JobStep
import Dcfpe.Service.TaskOutput
import Mathlib.Data.List.Nodup
import Mathlib.Data.List.Perm.Subperm

/-!
# Whose output is stored

The scheduler's side waits for a reply before it sends the next task, so at most one `DoTask` is
outstanding: as a request, as a worker process, or as a reply (`outstanding`).  And the worker
processes are started in the order of their `DoTask`s, one for each at most (`begun`).  So the reply
that is matched with `curr_task_id_` is that of the last `DoTask`, and its output is what its own
worker process has written, as far as a message can carry it: bytes that are not the text of a
string without NUL characters arrive changed.
-/

set_option autoImplicit false

namespace Dcfpe

def RscMessage.isDoTask : RscMessage → Bool
  | .doTask _ _ => true
  | _ => false

def RscReply.isDoTask : RscReply → Bool
  | .doTask _ _ _ => true
  | _ => false

/-- A `DoTask` of this device may be outstanding. -/
def RemoteDPEDevice.Busy (r : RemoteDPEDevice) : Prop :=
  r.deviceState = .running ∨ r.deviceState = .failed ∨ r.deviceState = .idle

/-- The bytes are the text of a string without NUL characters. -/
def IsText (bytes : Bytes) : Prop :=
  ∃ cs : List Char, '\x00' ∉ cs ∧ cs.flatMap String.utf8EncodeChar = bytes

/-- A text that can be read at all is read unchanged, and nothing else is. -/
def Transport.Faithful (transport : Transport) : Prop :=
  ∀ bytes bytes', transport bytes = some bytes' → (bytes' = bytes ↔ IsText bytes)

/-- What the worker process has written to its stdout, as far as `OnOutput` was given it. -/
def WorkerRun.output (run : WorkerRun) : Bytes := run.chunks.flatten

def FinishedRun.Succeeded (run : FinishedRun) : Prop := run.exitCode = 0 ∧ run.exitReason = .exit

namespace TaskLink

/-! ## What a step does -/

/-- What a step of a link leads to. -/
inductive Moved (transport : Transport) (l : TaskLink) : TaskLink → Prop where
  | remote {r : RemoteDPEDevice} {out : List RscRequest} {s : DPEScheduler}
      (hbusy : l.remote.Busy → r.Busy)
      (hidle : r.deviceState = .runningIdle → l.remote.deviceState = .runningIdle)
      (hplace : r.currTaskIdx = l.remote.currTaskIdx)
      (hout : ∀ request ∈ out, request.message.isDoTask = false)
      (hids : taskIds s = taskIds l.scheduler) :
      Moved transport l
        { l with
          remote := r
          requests := l.requests ++ out.map fun request => { message := request }
          scheduler := s }
  | handOut {r : RemoteDPEDevice} {out : List RscRequest} {s : DPEScheduler} {i : Nat}
      (hidle : l.remote.deviceState = .runningIdle) (hr : r.deviceState = .running)
      (hplace : r.currTaskIdx = i) (hi : i < (taskIds l.scheduler).length)
      (hout : ∀ request ∈ out, request.message.isDoTask = true) (hone : out.length ≤ 1)
      (hids : taskIds s = taskIds l.scheduler) :
      Moved transport l
        { l with
          remote := r
          requests :=
            l.requests ++ out.map fun request => { message := request, task := some l.sent.length }
          sent := l.sent ++ [i]
          scheduler := s }
  | lost {requests : List (Posted RscRequest)} {replies : List (Posted RscReply)}
      {s : DPEScheduler} (hrequests : requests.Sublist l.requests)
      (hreplies : replies.Sublist l.replies) (hids : taskIds s = taskIds l.scheduler) :
      Moved transport l { l with requests := requests, replies := replies, scheduler := s }
  | closed {requests : List (Posted RscRequest)} (hrequests : requests.Sublist l.requests) :
      Moved transport l { l with requests := requests, device := l.device.closeDevice }
  | answered {request : Posted RscRequest} {requests : List (Posted RscRequest)}
      {d : DPEDeviceImpl} {reply : RscReply} (hrequest : l.requests = request :: requests)
      (hregistered : l.device.registered = true)
      (hd : d = l.device ∨
        l.device.deviceState = .runningIdle ∧ d = { l.device with taskOutputData := [] })
      (hreply : reply.isDoTask = request.message.message.isDoTask)
      (hinit : reply ≠ .initJob "0") (hfailed : ∀ id output, reply ≠ .doTask "0" id output) :
      Moved transport l
        { l with
          requests := requests
          device := d
          replies := l.replies ++ [{ message := reply, task := request.task }] }
  | initialized {request : Posted RscRequest} {requests : List (Posted RscRequest)}
      (hrequest : l.requests = request :: requests) (hregistered : l.device.registered = true)
      (hwaiting : l.device.deviceState = .waiting)
      (hinit : request.message.message.isDoTask = false) :
      Moved transport l
        { l with
          requests := requests
          device := { l.device with deviceState := .runningIdle }
          replies := l.replies ++ [{ message := .initJob "0", task := request.task }] }
  | compiling {request : Posted RscRequest} {requests : List (Posted RscRequest)}
      (hrequest : l.requests = request :: requests) (hregistered : l.device.registered = true)
      (hwaiting : l.device.deviceState = .waiting) :
      Moved transport l
        { l with
          requests := requests
          device := { l.device with deviceState := .initializing, compiling := true } }
  | started {request : Posted RscRequest} {requests : List (Posted RscRequest)} {taskId : String}
      (hrequest : l.requests = request :: requests) (hregistered : l.device.registered = true)
      (hidle : l.device.deviceState = .runningIdle)
      (htask : request.message.message.isDoTask = true) :
      Moved transport l
        { l with
          requests := requests
          device :=
            { l.device with
              taskOutputData := []
              taskId := taskId
              deviceState := .running
              working := true }
          worker := request.task.map fun task => { task := task } }
  | compiled {state : DPEDeviceState} {out : List RscReply}
      (hcompiling : l.device.compiling = true) (hstate : state ≠ .waiting)
      (hinit : ∀ reply ∈ out, reply.isDoTask = false) (hone : out.length ≤ 1) :
      Moved transport l
        { l with
          device := { l.device with compiling := false, deviceState := state }
          replies := l.replies ++ out.map fun reply => { message := reply } }
  | output {worker : WorkerRun} (isStdOut : Bool) (data : Bytes)
      (hworker : l.worker = some worker) : Moved transport l (l.taskOutput isStdOut data worker)
  | stopped {worker : WorkerRun} (exitCode : Int) (exitReason : ExitReason)
      (hworker : l.worker = some worker) :
      Moved transport l (l.taskStop exitCode exitReason worker)
  | unread {reply : Posted RscReply} {replies : List (Posted RscReply)} {r : RemoteDPEDevice}
      (hreplies : l.replies = reply :: replies)
      (hstate : r.deviceState = l.remote.deviceState ∨ r.deviceState = .failed)
      (hplace : r.currTaskIdx = l.remote.currTaskIdx) :
      Moved transport l { l with remote := r, replies := replies }
  | initJobDone {reply : Posted RscReply} {replies : List (Posted RscReply)} {r : RemoteDPEDevice}
      (hreplies : l.replies = reply :: replies) (hreply : reply.message = .initJob "0")
      (hplace : r.currTaskIdx = l.remote.currTaskIdx) :
      Moved transport l { l with remote := r, replies := replies }
  | taskFailed {reply : Posted RscReply} {replies : List (Posted RscReply)} {r : RemoteDPEDevice}
      {s : DPEScheduler} (hreplies : l.replies = reply :: replies)
      (hreply : reply.message.isDoTask = true) (hplace : r.currTaskIdx = l.remote.currTaskIdx)
      (hids : taskIds s = taskIds l.scheduler) :
      Moved transport l { l with remote := r, replies := replies, scheduler := s }
  | taskSucceeded {reply : Posted RscReply} {replies : List (Posted RscReply)}
      {r : RemoteDPEDevice} {s : DPEScheduler} {output output' : Bytes}
      (hreplies : l.replies = reply :: replies)
      (hreply : reply.message = .doTask "0" (some l.remote.currTaskId) (some output))
      (hread : transport output = some output')
      (hlive : l.remote.deviceState ≠ .failed ∧ l.remote.deviceState ≠ .idle)
      (hplace : r.currTaskIdx = l.remote.currTaskIdx)
      (hids : taskIds s = taskIds l.scheduler) :
      Moved transport l
        { l with
          remote := r
          replies := replies
          scheduler := s
          stored := l.stored ++ (l.storePlace.map fun place =>
            { place := place, output := output', task := l.sent.length - 1 }).toList }

/-! ### The tasks of the scheduler stay where they are -/

theorem taskIds_setTask {f : DPETask → DPETask} (hid : ∀ task, (f task).id = task.id)
    (s : DPEScheduler) (i : Nat) :
    taskIds { s with projectState := s.projectState.setTask i f } = taskIds s := by
  refine List.ext_getElem? fun j => ?_
  simp only [taskIds, List.getElem?_map, DPEProjectState.setTask_getElem?]
  split
  · cases s.projectState.taskData[j]? with
    | none => rfl
    | some task => exact congrArg some (hid task)
  · rfl

theorem taskIds_onDeviceAvailable (s : DPEScheduler) :
    taskIds s.onDeviceAvailable = taskIds s := by
  refine DPEScheduler.onDeviceAvailable_induction (P := fun t => taskIds t = taskIds s) ?_ rfl
  rintro t u ht (_ | @⟨id, idx, queue, k, i, worker, task, -⟩)
  · exact ht
  · exact (taskIds_setTask (by exact fun _ => rfl) t i).trans ht

theorem taskIds_onTaskSucceed (device : RemoteDPEDevice) (s : DPEScheduler) :
    taskIds (s.onTaskSucceed device).1 = taskIds s := by
  have hrest : ∀ t : DPEScheduler, taskIds t = taskIds s →
      taskIds (if t.taskQueue = [] ∧ t.runningQueue.isEmpty then (t, [.willReduceResult])
        else if device.deviceState = .runningIdle then (t.onDeviceAvailable, [])
        else (t, ([] : List SchedulerDeed))).1 = taskIds s := by
    intro t ht
    split
    · exact ht
    · split
      · exact (taskIds_onDeviceAvailable t).trans ht
      · exact ht
  refine hrest _ ?_
  split
  · exact taskIds_setTask (by exact fun _ => rfl) s _
  · rfl

theorem taskIds_onTaskFailed (device : RemoteDPEDevice) (s : DPEScheduler) :
    taskIds (s.onTaskFailed device).1 = taskIds s := by
  rw [DPEScheduler.onTaskFailed]
  split
  · exact taskIds_setTask (by exact fun _ => rfl) s _
  · rfl

theorem taskIds_onDeviceLose (device : RemoteDPEDevice) (state : RemoteDeviceState)
    (s : DPEScheduler) : taskIds (s.onDeviceLose device state) = taskIds s := by
  rw [DPEScheduler.onDeviceLose]
  split
  · dsimp only
    split
    · exact taskIds_setTask (by exact fun _ => rfl) s _
    · rfl
  · rfl

/-! ### The device is given a request -/

/-- What a registered device does with a request. -/
inductive Handled (d : DPEDeviceImpl) (request : RscRequest) :
    DPEDeviceImpl × List RscReply → Prop where
  | ignored : Handled d request (d, [])
  | closed : Handled d request (d.closeDevice, [])
  | answered {d' : DPEDeviceImpl} {reply : RscReply}
      (hd : d' = d ∨ d.deviceState = .runningIdle ∧ d' = { d with taskOutputData := [] })
      (hreply : reply.isDoTask = request.message.isDoTask) (hinit : reply ≠ .initJob "0")
      (hfailed : ∀ id output, reply ≠ .doTask "0" id output) : Handled d request (d', [reply])
  | initialized (hwaiting : d.deviceState = .waiting) (hinit : request.message.isDoTask = false) :
      Handled d request ({ d with deviceState := .runningIdle }, [.initJob "0"])
  | compiling (hwaiting : d.deviceState = .waiting) :
      Handled d request ({ d with deviceState := .initializing, compiling := true }, [])
  | started {taskId : String} (hidle : d.deviceState = .runningIdle)
      (htask : request.message.isDoTask = true) :
      Handled d request
        ({ d with
            taskOutputData := []
            taskId := taskId
            deviceState := .running
            working := true }, [])

theorem handled (env : DPEDeviceImpl.Env) {d : DPEDeviceImpl} (request : RscRequest)
    (hregistered : d.registered = true) : Handled d request (d.handleMessage env request) := by
  have hsend : ∀ {d' : DPEDeviceImpl} {reply : RscReply}, d'.registered = d.registered →
      Handled d request (d', [reply]) → Handled d request (d'.sendMessage reply) := by
    intro d' reply hd' h
    rwa [DPEDeviceImpl.sendMessage, hd', hregistered, if_pos rfl]
  rw [DPEDeviceImpl.handleMessage, hregistered, Bool.not_true, if_neg Bool.false_ne_true]
  split
  · exact .ignored
  · split
    · next cookie hmessage =>
      exact hsend rfl (.answered (.inl rfl) (by rw [hmessage]; rfl) (by simp) (by simp))
    · next args hmessage =>
      have hrefused : Handled d request (d.sendMessage (.initJob "-1")) :=
        hsend rfl (.answered (.inl rfl) (by rw [hmessage]; rfl) (by simp) (by simp))
      rw [DPEDeviceImpl.handleInitJobMessage]
      split
      · exact hrefused
      next hwaiting =>
      split
      · exact hrefused
      split
      · exact hrefused
      split
      · exact hsend rfl (.initialized (not_not.1 hwaiting) (by rw [hmessage]; rfl))
      split
      · exact hrefused
      · exact .compiling (not_not.1 hwaiting)
    · next taskId input hmessage =>
      have hrefused : ∀ {d' : DPEDeviceImpl}, d'.registered = d.registered →
          (d' = d ∨ d.deviceState = .runningIdle ∧ d' = { d with taskOutputData := [] }) →
          Handled d request (d'.sendMessage (.doTask "-1" none none)) := fun hd' hd =>
        hsend hd' (.answered hd (by rw [hmessage]; rfl) (by simp) (by simp))
      rw [DPEDeviceImpl.handleDoTaskMessage]
      split
      · exact hrefused rfl (.inl rfl)
      next hidle =>
      split
      · exact hrefused rfl (.inr ⟨not_not.1 hidle, rfl⟩)
      · exact .started (not_not.1 hidle) (by rw [hmessage]; rfl)
    · exact .closed

theorem moved_recvRequest {transport : Transport} {env : DPEDeviceImpl.Env}
    {request : Posted RscRequest} {requests : List (Posted RscRequest)} {l : TaskLink}
    (hfree : l.device.deviceState = .runningIdle → l.device.working = false)
    (hrequest : l.requests = request :: requests) (hregistered : l.device.registered = true) :
    Moved transport l ({ l with requests := requests }.recvRequest env request) := by
  have hpop : requests.Sublist l.requests := hrequest ▸ List.sublist_cons_self request requests
  have hhandled := handled env request.message hregistered
  simp only [recvRequest]
  generalize l.device.handleMessage env request.message = r at hhandled ⊢
  cases hhandled with
  | ignored =>
    rw [Bool.and_not_self, if_neg Bool.false_ne_true]
    have hmoved : Moved transport l { l with requests := requests } := .lost hpop (.refl _) rfl
    simpa [putDevice] using hmoved
  | closed =>
    have hworking : l.device.closeDevice.working = l.device.working := by
      rw [DPEDeviceImpl.closeDevice]
      split <;> rfl
    rw [hworking, Bool.and_not_self, if_neg Bool.false_ne_true]
    simpa [putDevice] using (Moved.closed hpop : Moved transport l _)
  | answered hd hreply hinit hfailed =>
    rw [if_neg (by rcases hd with rfl | ⟨-, rfl⟩ <;> simp)]
    exact .answered hrequest hregistered hd hreply hinit hfailed
  | initialized hwaiting hinit =>
    rw [Bool.and_not_self, if_neg Bool.false_ne_true]
    exact .initialized hrequest hregistered hwaiting hinit
  | compiling hwaiting =>
    rw [Bool.and_not_self, if_neg Bool.false_ne_true]
    simpa [putDevice] using
      (Moved.compiling hrequest hregistered hwaiting : Moved transport l _)
  | started hidle htask =>
    simpa [putDevice, hfree hidle] using
      (Moved.started hrequest hregistered hidle htask : Moved transport l _)

/-! ### The scheduler's side is given a reply -/

/-- What is read of a `DoTask` reply. -/
theorem read_doTask {transport : Transport} {errorCode : String} {taskId : Option String}
    {output : Option Bytes} {message : RscReply}
    (h : (RscReply.doTask errorCode taskId output).read transport = some message) :
    ∃ output', message = .doTask errorCode taskId output' ∧
      ∀ bytes ∈ output', ∃ bytes' ∈ output, transport bytes' = some bytes := by
  cases output with
  | none =>
    obtain rfl := Option.some.inj h
    exact ⟨none, rfl, nofun⟩
  | some bytes' =>
    obtain ⟨bytes, hbytes, rfl⟩ := Option.map_eq_some_iff.1 h
    refine ⟨some bytes, rfl, fun b hb => ⟨bytes', rfl, ?_⟩⟩
    rw [hbytes, hb]

theorem moved_recvReply {transport : Transport} {reply : Posted RscReply}
    {replies : List (Posted RscReply)} {l : TaskLink} (hreplies : l.replies = reply :: replies) :
    Moved transport l ({ l with replies := replies }.recvReply transport reply.message) := by
  rw [recvReply]
  split
  · exact .lost (.refl _) (hreplies ▸ List.sublist_cons_self reply replies) rfl
  next message hread =>
  change Moved transport l
    ({ l with replies := replies, remote := l.ready.handleMessage message }.managerCalls)
  by_cases hdead : l.remote.deviceState = .failed ∨ l.remote.deviceState = .idle
  · have hquiet : l.ready.handleMessage message = l.ready := if_pos hdead
    rw [hquiet]
    exact .unread hreplies (.inl rfl) rfl
  have hhandle : l.ready.handleMessage message = _ := if_neg hdead
  rw [hhandle]
  cases hmessage : reply.message with
  | heartBeat cookie =>
    rw [hmessage] at hread
    obtain rfl := Option.some.inj hread
    dsimp only
    split <;> exact .unread hreplies (.inl rfl) rfl
  | initJob errorCode =>
    rw [hmessage] at hread
    obtain rfl := Option.some.inj hread
    simp only [RemoteDPEDevice.handleInitJob]
    split
    · exact .unread hreplies (.inr rfl) rfl
    · next hcode => exact .initJobDone hreplies (by rw [hmessage, not_not.1 hcode]) rfl
  | doTask errorCode taskId output =>
    rw [hmessage] at hread
    obtain ⟨output', rfl, hsource⟩ := read_doTask hread
    have hdo : reply.message.isDoTask = true := by rw [hmessage]; rfl
    simp only [RemoteDPEDevice.handleDoTask]
    split
    · exact .taskFailed hreplies hdo rfl (taskIds_onTaskFailed _ _)
    next hcode =>
    split
    · exact .taskFailed hreplies hdo rfl (taskIds_onTaskFailed _ _)
    next hid =>
    split
    · exact .taskFailed hreplies hdo rfl (taskIds_onTaskFailed _ _)
    · next bytes =>
      obtain ⟨bytes', rfl, hbytes⟩ := hsource bytes rfl
      refine .taskSucceeded hreplies ?_ hbytes (not_or.1 hdead) rfl (taskIds_onTaskSucceed _ _)
      rw [hmessage, not_not.1 hcode, not_not.1 hid]
      rfl

/-! ### The end of a worker process -/

theorem onStop_device (exitCode : Int) (exitReason : ExitReason) (d : DPEDeviceImpl) :
    (d.onStop exitCode exitReason).1 =
      { d with deviceState := .runningIdle, working := false } := by
  rw [DPEDeviceImpl.onStop]
  dsimp only
  split <;> rfl

theorem onStop_length (exitCode : Int) (exitReason : ExitReason) (d : DPEDeviceImpl) :
    (d.onStop exitCode exitReason).2.length ≤ 1 := by
  simp only [DPEDeviceImpl.onStop, DPEDeviceImpl.sendMessage]
  split <;> split <;> simp

theorem of_mem_onStop {exitCode : Int} {exitReason : ExitReason} {d : DPEDeviceImpl}
    {reply : RscReply} (h : reply ∈ (d.onStop exitCode exitReason).2) :
    reply = .doTask "-1" (some d.taskId) none ∨
      (exitCode = 0 ∧ exitReason = .exit) ∧
        reply = .doTask "0" (some d.taskId) (some d.taskOutputData) := by
  simp only [DPEDeviceImpl.onStop, DPEDeviceImpl.sendMessage] at h
  split at h
  · split at h
    · exact .inl (List.mem_singleton.1 h)
    · cases h
  · next hgood =>
    obtain ⟨hcode, hreason⟩ := not_or.1 hgood
    split at h
    · exact .inr ⟨⟨not_not.1 hcode, not_not.1 hreason⟩, List.mem_singleton.1 h⟩
    · cases h

/-! ### Every step -/

theorem sends_sendMessage {r : RemoteDPEDevice} {message : RscMessage} {b : Bool}
    (h : message.isDoTask = b) :
    ∀ request ∈ r.sendMessage message, request.message.isDoTask = b := by
  intro request hrequest
  rw [RemoteDPEDevice.sendMessage] at hrequest
  split at hrequest
  · rw [List.mem_singleton.1 hrequest]
    exact h
  · cases hrequest

theorem moved_doAction {transport : Transport} {l : TaskLink} {cookie : Int}
    {r : RemoteDPEDevice × List RscRequest} (h : l.remote.doAction cookie = some r) :
    Moved transport l (l.putRemote none r) := by
  rw [RemoteDPEDevice.doAction] at h
  split at h
  · cases h
  split at h
  · cases h
  split at h
  · obtain rfl := Option.some.inj h
    exact .remote id id rfl (by simp) rfl
  · obtain rfl := Option.some.inj h
    refine .remote id id rfl ?_ rfl
    rw [RemoteDPEDevice.trySendInitJobMessage]
    split
    · simp
    · exact sends_sendMessage rfl
  · obtain rfl := Option.some.inj h
    rw [RemoteDPEDevice.onRepeatedActionFinish]
    split <;> exact .remote id id rfl (by simp) rfl

theorem moved_checkHeartBeat (transport : Transport) (expired : Bool) (l : TaskLink) :
    Moved transport l (l.putRemote none (l.ready.checkHeartBeat expired)).managerCalls := by
  rw [RemoteDPEDevice.checkHeartBeat]
  split
  · exact .remote id id rfl (sends_sendMessage rfl) rfl
  split
  · exact .remote (fun _ => .inr (.inr rfl)) (fun h => by cases h) rfl (sends_sendMessage rfl)
      (taskIds_onDeviceLose _ _ _)
  · exact .remote id id rfl (by simp) rfl

theorem moved_handOut {transport : Transport} {i : Nat} {l l' : TaskLink}
    (h : l.handOut i = some l') : Moved transport l l' := by
  rw [handOut] at h
  split at h
  · cases h
  next task htask =>
  split at h
  · cases h
  obtain ⟨r, hr, rfl⟩ := Option.map_eq_some_iff.1 h
  rw [RemoteDPEDevice.doTask] at hr
  split at hr
  · cases hr
  next hidle =>
  obtain rfl := Option.some.inj hr
  have hi : i < (taskIds l.scheduler).length := by
    rw [taskIds, List.length_map]
    exact (List.getElem?_eq_some_iff.1 htask).1
  refine .handOut (not_not.1 hidle) rfl rfl hi (sends_sendMessage rfl) ?_
    (taskIds_setTask (by exact fun _ => rfl) l.scheduler i)
  rw [RemoteDPEDevice.sendMessage]
  split <;> simp

theorem moved_of_step {transport : Transport} {l l' : TaskLink} {a : Action}
    (hfree : l.device.deviceState = .runningIdle → l.device.registered = true →
      l.device.working = false) (hstep : step transport l a = some l') : Moved transport l l' := by
  cases a with
  | initJob args =>
    obtain ⟨r, hr, rfl⟩ := Option.map_eq_some_iff.1 hstep
    rw [RemoteDPEDevice.initJob] at hr
    split at hr
    · cases hr
    next hready =>
    have hr' : r.deviceState = .initializing ∧ r.currTaskIdx = l.remote.currTaskIdx := by
      rw [← Option.some.inj hr]
      exact ⟨rfl, rfl⟩
    have hbusy : ¬ l.remote.Busy := by simp [RemoteDPEDevice.Busy, not_not.1 hready]
    have hmoved : Moved transport l
        { l with remote := r, requests := l.requests ++ List.map _ [] } :=
      .remote (fun h => absurd h hbusy) (by simp [hr'.1]) hr'.2 (by simp) rfl
    rwa [List.map_nil, List.append_nil] at hmoved
  | doAction cookie =>
    obtain ⟨r, hr, rfl⟩ := Option.map_eq_some_iff.1 hstep
    exact moved_doAction hr
  | handOut i => exact moved_handOut hstep
  | schedule s =>
    rw [step] at hstep
    split at hstep
    · next hids =>
      obtain rfl := Option.some.inj hstep
      exact .lost (.refl _) (.refl _) hids
    · cases hstep
  | checkHeartBeat expired =>
    rw [step] at hstep
    split at hstep
    · obtain rfl := Option.some.inj hstep
      exact moved_checkHeartBeat transport expired l
    · cases hstep
  | stop =>
    obtain rfl := Option.some.inj hstep
    exact .remote (fun _ => .inr (.inr rfl)) (fun h => by cases h) rfl (sends_sendMessage rfl) rfl
  | loseRequest i =>
    obtain rfl := Option.some.inj hstep
    exact .lost (List.eraseIdx_sublist _ _) (.refl _) rfl
  | recvRequest env =>
    rw [step] at hstep
    split at hstep
    · cases hstep
    next request requests hrequest =>
    split at hstep
    · next hregistered =>
      obtain rfl := Option.some.inj hstep
      exact moved_recvRequest (fun hidle => hfree hidle hregistered) hrequest hregistered
    · cases hstep
  | compileFinished exitCode exitReason =>
    rw [step] at hstep
    split at hstep
    · next hcompiling =>
      obtain rfl := Option.some.inj hstep
      rw [DPEDeviceImpl.onCompileFinished]
      dsimp only
      split
      all_goals
        refine .compiled hcompiling (by simp) ?_ ?_
        all_goals
          rw [DPEDeviceImpl.sendMessage]
          split <;> simp [RscReply.isDoTask]
    · cases hstep
  | taskOutput isStdOut data =>
    obtain ⟨worker, hworker, rfl⟩ := Option.map_eq_some_iff.1 hstep
    exact .output isStdOut data hworker
  | taskStop exitCode exitReason =>
    obtain ⟨worker, hworker, rfl⟩ := Option.map_eq_some_iff.1 hstep
    exact .stopped exitCode exitReason hworker
  | checkDevice expired =>
    obtain rfl := Option.some.inj hstep
    rw [DPEDeviceImpl.checkHeartBeat]
    split
    · exact .closed (.refl _)
    · exact .lost (.refl _) (.refl _) rfl
  | loseReply i =>
    obtain rfl := Option.some.inj hstep
    exact .lost (.refl _) (List.eraseIdx_sublist _ _) rfl
  | recvReply =>
    rw [step] at hstep
    split at hstep
    · cases hstep
    next reply replies hreplies =>
    split at hstep
    · obtain rfl := Option.some.inj hstep
      exact moved_recvReply hreplies
    · cases hstep

/-! ## The numbers of the tasks -/

/-- The `DoTask`s for which a worker process was started or may still be. -/
def begun (l : TaskLink) : List Nat :=
  l.finished.map (·.task) ++ (l.worker.map (·.task)).toList ++ l.requests.filterMap (·.task)

def outstanding (l : TaskLink) : List Nat :=
  l.requests.filterMap (·.task) ++ (l.worker.map (·.task)).toList ++ l.replies.filterMap (·.task)

/-- The successes of `InitJob` that are on their way. -/
def initJobs (replies : List (Posted RscReply)) : Nat :=
  replies.countP (·.message = .initJob "0")

/-- The successes of `InitJob` that are still to come. -/
def initJobsToCome (d : DPEDeviceImpl) : Nat :=
  (if d.compiling = true then 1 else 0) +
    if d.registered = true ∧ d.deviceState = .waiting then 1 else 0

theorem filterMap_task_cons {α : Type} (message : Posted α) (messages : List (Posted α)) :
    (message :: messages).filterMap (·.task) =
      message.task.toList ++ messages.filterMap (·.task) := by
  cases htask : message.task <;> simp [htask]

theorem filterMap_untagged {α : Type} (out : List α) :
    (out.map fun message => ({ message := message } : Posted α)).filterMap (·.task) = [] := by
  induction out with
  | nil => rfl
  | cons message out ih => rwa [List.map_cons, List.filterMap_cons_none rfl]

theorem filterMap_tagged {α : Type} {out : List α} (hone : out.length ≤ 1) (task : Option Nat) :
    ((out.map fun message => ({ message := message, task := task } : Posted α)).filterMap
      (·.task)).Sublist task.toList := by
  match out, hone with
  | [], _ => exact List.nil_sublist _
  | [message], _ => cases task <;> exact .refl _

theorem taskOutput_task (isStdOut : Bool) (data : Bytes) (worker : WorkerRun) (l : TaskLink) :
    (l.taskOutput isStdOut data worker).worker.map (·.task) = some worker.task := by
  cases isStdOut <;> rfl

/-- Messages are numbered if they are about a task. -/
structure Tagged (l : TaskLink) : Prop where
  requests : ∀ request ∈ l.requests, request.task.isSome = request.message.message.isDoTask
  replies : ∀ reply ∈ l.replies, reply.task.isSome = reply.message.isDoTask

theorem tagged_moved {transport : Transport} {l l' : TaskLink} (h : l.Tagged)
    (hmoved : Moved transport l l') : l'.Tagged := by
  have hrequests : ∀ {requests : List (Posted RscRequest)}, requests.Sublist l.requests →
      ∀ request ∈ requests, request.task.isSome = request.message.message.isDoTask :=
    fun hsub request hrequest => h.requests request (hsub.subset hrequest)
  have hreplies : ∀ {replies : List (Posted RscReply)}, replies.Sublist l.replies →
      ∀ reply ∈ replies, reply.task.isSome = reply.message.isDoTask :=
    fun hsub reply hreply => h.replies reply (hsub.subset hreply)
  have hpop : ∀ {request requests}, l.requests = request :: requests →
      requests.Sublist l.requests := fun heq => heq ▸ List.sublist_cons_self _ _
  have hpopReply : ∀ {reply replies}, l.replies = reply :: replies →
      replies.Sublist l.replies := fun heq => heq ▸ List.sublist_cons_self _ _
  have hhead : ∀ {request requests}, l.requests = request :: requests →
      request.task.isSome = request.message.message.isDoTask := fun heq =>
    h.requests _ (heq ▸ List.mem_cons_self)
  cases hmoved with
  | remote hbusy hidle hplace hout hids =>
    exact ⟨List.forall_mem_append.2
      ⟨h.requests, List.forall_mem_map.2 fun request hmem => (hout request hmem).symm⟩, h.replies⟩
  | handOut hidle hr hplace hi hout hone hids =>
    exact ⟨List.forall_mem_append.2
      ⟨h.requests, List.forall_mem_map.2 fun request hmem => (hout request hmem).symm⟩, h.replies⟩
  | lost hreq hrep hids => exact ⟨hrequests hreq, hreplies hrep⟩
  | closed hreq => exact ⟨hrequests hreq, h.replies⟩
  | answered hrequest hregistered hd hreply hinit hfailed =>
    exact ⟨hrequests (hpop hrequest), List.forall_mem_append.2
      ⟨h.replies, List.forall_mem_singleton.2 ((hhead hrequest).trans hreply.symm)⟩⟩
  | initialized hrequest hregistered hwaiting hinit =>
    exact ⟨hrequests (hpop hrequest), List.forall_mem_append.2
      ⟨h.replies, List.forall_mem_singleton.2 ((hhead hrequest).trans hinit)⟩⟩
  | compiling hrequest hregistered hwaiting => exact ⟨hrequests (hpop hrequest), h.replies⟩
  | started hrequest hregistered hidle htask => exact ⟨hrequests (hpop hrequest), h.replies⟩
  | compiled hcompiling hstate hinit hone =>
    exact ⟨h.requests, List.forall_mem_append.2
      ⟨h.replies, List.forall_mem_map.2 fun reply hmem => (hinit reply hmem).symm⟩⟩
  | output isStdOut data hworker => exact ⟨h.requests, h.replies⟩
  | @stopped worker exitCode exitReason hworker =>
    refine ⟨h.requests, List.forall_mem_append.2 ⟨h.replies, List.forall_mem_map.2 ?_⟩⟩
    intro reply hmem
    rcases of_mem_onStop hmem with rfl | ⟨-, rfl⟩ <;> rfl
  | unread hrep hstate hplace => exact ⟨h.requests, hreplies (hpopReply hrep)⟩
  | initJobDone hrep hreply hplace => exact ⟨h.requests, hreplies (hpopReply hrep)⟩
  | taskFailed hrep hreply hplace hids => exact ⟨h.requests, hreplies (hpopReply hrep)⟩
  | taskSucceeded hrep hreply hread hlive hplace hids =>
    exact ⟨h.requests, hreplies (hpopReply hrep)⟩

/-- The device works as long as there is a worker process, whose output it collects. -/
structure Working (l : TaskLink) : Prop where
  working : l.device.working = l.worker.isSome
  running : l.worker.isSome = true → l.device.registered = true → l.device.deviceState = .running
  output : ∀ worker ∈ l.worker, worker.chunks.flatten = l.device.taskOutputData

theorem Working.free {l : TaskLink} (h : l.Working) (hidle : l.device.deviceState ≠ .running)
    (hregistered : l.device.registered = true) : l.worker = none := by
  by_contra hworker
  exact hidle (h.running (Option.isSome_iff_ne_none.2 hworker) hregistered)

theorem working_moved {transport : Transport} {l l' : TaskLink} (htagged : l.Tagged)
    (hcompiling : l.device.compiling = true → l.worker = none) (h : l.Working)
    (hmoved : Moved transport l l') : l'.Working := by
  cases hmoved with
  | remote hbusy hidle hplace hout hids => exact ⟨h.working, h.running, h.output⟩
  | handOut hidle hr hplace hi hout hone hids => exact ⟨h.working, h.running, h.output⟩
  | lost hreq hrep hids => exact ⟨h.working, h.running, h.output⟩
  | closed hreq =>
    rw [DPEDeviceImpl.closeDevice]
    split
    · exact ⟨h.working, h.running, h.output⟩
    · exact ⟨h.working, by simp, h.output⟩
  | answered hrequest hregistered hd hreply hinit hfailed =>
    rcases hd with rfl | ⟨hidle, rfl⟩
    · exact ⟨h.working, h.running, h.output⟩
    · have hnone := h.free (by simp [hidle]) hregistered
      refine ⟨h.working, h.running, fun worker hworker => ?_⟩
      rw [hnone] at hworker
      cases hworker
  | initialized hrequest hregistered hwaiting hinit =>
    have hnone := h.free (by simp [hwaiting]) hregistered
    exact ⟨h.working, fun hsome => (by rw [hnone] at hsome; cases hsome), h.output⟩
  | compiling hrequest hregistered hwaiting =>
    have hnone := h.free (by simp [hwaiting]) hregistered
    exact ⟨h.working, fun hsome => (by rw [hnone] at hsome; cases hsome), h.output⟩
  | @started request requests taskId hrequest hregistered hidle htask =>
    have hsome : request.task.isSome = true :=
      (htagged.requests _ (hrequest ▸ List.mem_cons_self)).trans htask
    obtain ⟨task, htask⟩ := Option.isSome_iff_exists.1 hsome
    rw [htask]
    exact ⟨rfl, fun _ _ => rfl, fun worker hworker => by obtain rfl := Option.some.inj hworker; rfl⟩
  | compiled hcomp hstate hinit hone =>
    exact ⟨h.working, fun hsome => (by rw [hcompiling hcomp] at hsome; cases hsome), h.output⟩
  | @output worker isStdOut data hworker =>
    have hsome : l.worker.isSome = true := by rw [hworker]; rfl
    have hflat := h.output worker hworker
    cases isStdOut with
    | false =>
      refine ⟨h.working.trans hsome, fun _ => h.running hsome, fun worker' hworker' => ?_⟩
      obtain rfl := Option.some.inj hworker'
      exact hflat
    | true =>
      refine ⟨h.working.trans hsome, fun _ => h.running hsome, fun worker' hworker' => ?_⟩
      obtain rfl := Option.some.inj hworker'
      simp [taskOutput, DPEDeviceImpl.onOutput, hflat]
  | stopped exitCode exitReason hworker =>
    rw [taskStop, putDevice, onStop_device]
    exact ⟨rfl, by simp, by simp⟩
  | unread hrep hstate hplace => exact ⟨h.working, h.running, h.output⟩
  | initJobDone hrep hreply hplace => exact ⟨h.working, h.running, h.output⟩
  | taskFailed hrep hreply hplace hids => exact ⟨h.working, h.running, h.output⟩
  | taskSucceeded hrep hreply hread hlive hplace hids => exact ⟨h.working, h.running, h.output⟩

/-- At most one success of `InitJob` is given to the scheduler's side, before the first task. -/
structure Fresh (l : TaskLink) : Prop where
  once : initJobs l.replies + initJobsToCome l.device ≤ 1
  first : initJobs l.replies + initJobsToCome l.device ≠ 0 →
    l.sent = [] ∧ l.remote.deviceState ≠ .runningIdle

/-- Worker processes are started in the order of their tasks. -/
structure Begun (l : TaskLink) : Prop where
  sorted : l.begun.Pairwise (· < ·)
  lt : ∀ task ∈ l.begun, task < l.sent.length

/-- Only the last task may be outstanding. -/
structure Outstanding (l : TaskLink) : Prop where
  once : l.outstanding.length ≤ 1
  last : ∀ task ∈ l.outstanding, task + 1 = l.sent.length ∧ l.remote.Busy

theorem Begun.of_sublist {l l' : TaskLink} (h : l.Begun) (hbegun : l'.begun.Sublist l.begun)
    (hsent : l'.sent = l.sent) : l'.Begun :=
  ⟨h.sorted.sublist hbegun, fun task htask => hsent ▸ h.lt task (hbegun.subset htask)⟩

theorem begun_moved {transport : Transport} {l l' : TaskLink} (htagged : l.Tagged)
    (hworking : l.Working) (h : l.Begun) (hmoved : Moved transport l l') : l'.Begun := by
  have hrequests : ∀ {requests : List (Posted RscRequest)}, requests.Sublist l.requests →
      (l.finished.map (·.task) ++ (l.worker.map (·.task)).toList ++
        requests.filterMap (·.task)).Sublist l.begun := fun hsub =>
    (List.Sublist.refl _).append (hsub.filterMap _)
  have hpop : ∀ {request requests}, l.requests = request :: requests →
      requests.Sublist l.requests := fun heq => heq ▸ List.sublist_cons_self _ _
  cases hmoved with
  | remote hbusy hidle hplace hout hids =>
    refine h.of_sublist ?_ rfl
    rw [begun, List.filterMap_append, filterMap_untagged, List.append_nil]
    exact .refl _
  | @handOut r out s i hidle hr hplace hi hout hone hids =>
    have hsorted : (l.begun ++ [l.sent.length]).Pairwise (· < ·) :=
      List.pairwise_append.2 ⟨h.sorted, List.pairwise_singleton _ _,
        fun task htask last hlast => List.mem_singleton.1 hlast ▸ h.lt task htask⟩
    have hlt : ∀ task ∈ l.begun ++ [l.sent.length], task < (l.sent ++ [i]).length := by
      rw [List.length_append, List.length_singleton]
      refine List.forall_mem_append.2 ⟨fun task htask => ?_, by simp⟩
      exact Nat.lt_succ_of_lt (h.lt task htask)
    have hbegun : (l.finished.map (·.task) ++ (l.worker.map (·.task)).toList ++
        (l.requests ++ out.map fun request =>
          ({ message := request, task := some l.sent.length } : Posted RscRequest)).filterMap
            (·.task)).Sublist
        (l.begun ++ [l.sent.length]) := by
      rw [List.filterMap_append, ← List.append_assoc]
      exact (List.Sublist.refl _).append (filterMap_tagged hone _)
    exact ⟨hsorted.sublist hbegun, fun task htask => hlt task (hbegun.subset htask)⟩
  | lost hreq hrep hids => exact h.of_sublist (hrequests hreq) rfl
  | closed hreq => exact h.of_sublist (hrequests hreq) rfl
  | answered hrequest hregistered hd hreply hinit hfailed =>
    exact h.of_sublist (hrequests (hpop hrequest)) rfl
  | initialized hrequest hregistered hwaiting hinit =>
    exact h.of_sublist (hrequests (hpop hrequest)) rfl
  | compiling hrequest hregistered hwaiting =>
    exact h.of_sublist (hrequests (hpop hrequest)) rfl
  | @started request requests taskId hrequest hregistered hidle htask =>
    have hnone := hworking.free (by rw [hidle]; exact nofun) hregistered
    have hsome : request.task.isSome = true :=
      (htagged.requests _ (hrequest ▸ List.mem_cons_self)).trans htask
    obtain ⟨task, htask⟩ := Option.isSome_iff_exists.1 hsome
    refine h.of_sublist ?_ rfl
    simp [begun, hnone, hrequest, htask]
  | compiled hcomp hstate hinit hone => exact h.of_sublist (.refl _) rfl
  | @output worker isStdOut data hworker =>
    refine h.of_sublist ?_ rfl
    rw [begun, begun, taskOutput_task, hworker]
    exact .refl _
  | stopped exitCode exitReason hworker =>
    refine h.of_sublist ?_ rfl
    simp [begun, taskStop, putDevice, hworker]
  | unread hrep hstate hplace => exact h.of_sublist (.refl _) rfl
  | initJobDone hrep hreply hplace => exact h.of_sublist (.refl _) rfl
  | taskFailed hrep hreply hplace hids => exact h.of_sublist (.refl _) rfl
  | taskSucceeded hrep hreply hread hlive hplace hids => exact h.of_sublist (.refl _) rfl

theorem Outstanding.of_subperm {l l' : TaskLink} (h : l.Outstanding)
    (hsub : l'.outstanding.Subperm l.outstanding) (hsent : l'.sent = l.sent)
    (hbusy : l.remote.Busy → l'.remote.Busy) : l'.Outstanding := by
  refine ⟨hsub.length_le.trans h.once, fun task htask => ?_⟩
  obtain ⟨hlast, hwas⟩ := h.last task (hsub.subset htask)
  exact ⟨hsent ▸ hlast, hbusy hwas⟩

theorem Outstanding.of_nil {l : TaskLink} (h : l.outstanding = []) : l.Outstanding := by
  refine ⟨?_, ?_⟩ <;> simp [h]

/-- A device that is not busy has no task. -/
theorem Outstanding.eq_nil {l : TaskLink} (h : l.Outstanding) (hfree : ¬ l.remote.Busy) :
    l.outstanding = [] :=
  List.eq_nil_iff_forall_not_mem.2 fun task htask => hfree (h.last task htask).2

/-- With the reply to the last task nothing is outstanding. -/
theorem Outstanding.eq_nil_of_reply {l : TaskLink} (h : l.Outstanding) {reply : Posted RscReply}
    {replies : List (Posted RscReply)} (hrep : l.replies = reply :: replies)
    (htask : reply.task.isSome = true) :
    l.requests.filterMap (·.task) ++ (l.worker.map (·.task)).toList ++
      replies.filterMap (·.task) = [] := by
  obtain ⟨task, htask⟩ := Option.isSome_iff_exists.1 htask
  have honce := h.once
  rw [outstanding, hrep, filterMap_task_cons, htask, Option.toList_some] at honce
  simp only [List.length_append, List.length_singleton] at honce
  refine List.length_eq_zero_iff.1 ?_
  simp only [List.length_append]
  omega

theorem Fresh.sent_eq_nil {l : TaskLink} (h : l.Fresh) {reply : Posted RscReply}
    (hmem : reply ∈ l.replies) (hreply : reply.message = .initJob "0") : l.sent = [] := by
  have hpos : 0 < initJobs l.replies :=
    List.countP_pos_iff.2 ⟨reply, hmem, by simpa using hreply⟩
  exact (h.first (by omega)).1

theorem outstanding_moved {transport : Transport} {l l' : TaskLink} (htagged : l.Tagged)
    (hworking : l.Working) (hfresh : l.Fresh) (h : l.Outstanding)
    (hmoved : Moved transport l l') : l'.Outstanding := by
  have hsublist : ∀ {requests : List (Posted RscRequest)} {replies : List (Posted RscReply)},
      requests.Sublist l.requests → replies.Sublist l.replies →
      (requests.filterMap (·.task) ++ (l.worker.map (·.task)).toList ++
        replies.filterMap (·.task)).Subperm l.outstanding := fun hreq hrep =>
    (((hreq.filterMap _).append (.refl _)).append (hrep.filterMap _)).subperm
  have hpop : ∀ {request requests}, l.requests = request :: requests →
      requests.Sublist l.requests := fun heq => heq ▸ List.sublist_cons_self _ _
  have hpopReply : ∀ {reply replies}, l.replies = reply :: replies →
      replies.Sublist l.replies := fun heq => heq ▸ List.sublist_cons_self _ _
  have hanswer : ∀ {request : Posted RscRequest} {requests message},
      l.requests = request :: requests →
      (requests.filterMap (·.task) ++ (l.worker.map (·.task)).toList ++
        (l.replies ++ [({ message := message, task := request.task } : Posted RscReply)]).filterMap
          (·.task)).Subperm l.outstanding := by
    intro request requests message hrequest
    rw [outstanding, hrequest, List.filterMap_append, filterMap_task_cons, filterMap_task_cons,
      List.filterMap_nil, List.append_nil, ← List.append_assoc]
    refine (List.perm_append_comm.trans (List.Perm.of_eq ?_)).subperm
    simp only [List.append_assoc]
  cases hmoved with
  | remote hbusy hidle hplace hout hids =>
    refine h.of_subperm ?_ rfl hbusy
    rw [outstanding, List.filterMap_append, filterMap_untagged, List.append_nil]
    exact .refl _
  | @handOut r out s i hidle hr hplace hi hout hone hids =>
    have hnil := h.eq_nil (by simp [RemoteDPEDevice.Busy, hidle])
    have hsub : ((l.requests ++ out.map fun request =>
        ({ message := request, task := some l.sent.length } : Posted RscRequest)).filterMap
          (·.task) ++ (l.worker.map (·.task)).toList ++ l.replies.filterMap (·.task)).Sublist
        [l.sent.length] := by
      obtain ⟨hleft, hreplies⟩ := List.append_eq_nil_iff.1 hnil
      obtain ⟨hrequests, hworker⟩ := List.append_eq_nil_iff.1 hleft
      rw [List.filterMap_append, hrequests, hworker, hreplies, List.append_nil, List.append_nil]
      exact filterMap_tagged hone _
    refine ⟨hsub.length_le, fun task htask => ⟨?_, .inl hr⟩⟩
    rw [List.mem_singleton.1 (hsub.subset htask), List.length_append, List.length_singleton]
  | lost hreq hrep hids => exact h.of_subperm (hsublist hreq hrep) rfl id
  | closed hreq => exact h.of_subperm (hsublist hreq (.refl _)) rfl id
  | answered hrequest hregistered hd hreply hinit hfailed =>
    exact h.of_subperm (hanswer hrequest) rfl id
  | initialized hrequest hregistered hwaiting hinit =>
    exact h.of_subperm (hanswer hrequest) rfl id
  | compiling hrequest hregistered hwaiting =>
    exact h.of_subperm (hsublist (hpop hrequest) (.refl _)) rfl id
  | @started request requests taskId hrequest hregistered hidle htask =>
    have hnone := hworking.free (by rw [hidle]; exact nofun) hregistered
    refine h.of_subperm ?_ rfl id
    rw [outstanding, outstanding, hnone, hrequest, filterMap_task_cons]
    refine (List.Perm.append_right _ ?_).subperm
    cases request.task with
    | none => exact .refl _
    | some task => exact (List.perm_append_singleton task _).trans (by simp)
  | compiled hcomp hstate hinit hone =>
    refine h.of_subperm ?_ rfl id
    rw [outstanding, List.filterMap_append, filterMap_untagged, List.append_nil]
    exact .refl _
  | @output worker isStdOut data hworker =>
    refine h.of_subperm ?_ rfl id
    rw [outstanding, outstanding, taskOutput_task, hworker]
    exact .refl _
  | @stopped worker exitCode exitReason hworker =>
    refine h.of_subperm ?_ rfl id
    have htags := filterMap_tagged (onStop_length exitCode exitReason l.device) (some worker.task)
    rw [outstanding, outstanding, taskStop, putDevice, hworker, List.filterMap_append,
      Option.map_none, Option.toList_none, List.append_nil, List.append_assoc]
    refine ((List.Sublist.refl _).append ((List.Sublist.refl _).append htags)).subperm.trans ?_
    exact (List.Perm.append_left _ List.perm_append_comm).subperm
  | unread hrep hstate hplace =>
    refine h.of_subperm (hsublist (.refl _) (hpopReply hrep)) rfl fun hbusy => ?_
    rcases hstate with hstate | hstate
    · rwa [RemoteDPEDevice.Busy, hstate]
    · exact .inr (.inl hstate)
  | initJobDone hrep hreply hplace =>
    have hsent := hfresh.sent_eq_nil (hrep ▸ List.mem_cons_self) hreply
    have hnil : l.outstanding = [] := List.eq_nil_iff_forall_not_mem.2 fun task htask => by
      have hlast := (h.last task htask).1
      rw [hsent] at hlast
      exact Nat.succ_ne_zero task hlast
    refine .of_nil (List.eq_nil_of_length_eq_zero (Nat.le_zero.1 ?_))
    exact (hsublist (.refl _) (hpopReply hrep)).length_le.trans_eq (by rw [hnil]; rfl)
  | taskFailed hrep hreply hplace hids =>
    exact .of_nil (h.eq_nil_of_reply hrep
      ((htagged.replies _ (hrep ▸ List.mem_cons_self)).trans hreply))
  | taskSucceeded hrep hreply hread hlive hplace hids =>
    refine .of_nil (h.eq_nil_of_reply hrep
      ((htagged.replies _ (hrep ▸ List.mem_cons_self)).trans ?_))
    rw [hreply]
    rfl

theorem Fresh.of_le {l l' : TaskLink} (h : l.Fresh)
    (hle : initJobs l'.replies + initJobsToCome l'.device ≤
      initJobs l.replies + initJobsToCome l.device) (hsent : l'.sent = l.sent)
    (hidle : l'.remote.deviceState = .runningIdle → l.remote.deviceState = .runningIdle) :
    l'.Fresh := by
  refine ⟨hle.trans h.once, fun hpos => ?_⟩
  obtain ⟨hnil, hnot⟩ := h.first (by omega)
  exact ⟨hsent.trans hnil, mt hidle hnot⟩

theorem Fresh.of_zero {l : TaskLink} (h : initJobs l.replies + initJobsToCome l.device = 0) :
    l.Fresh :=
  ⟨by omega, fun hpos => absurd h hpos⟩

theorem initJobs_sublist {replies replies' : List (Posted RscReply)}
    (h : replies.Sublist replies') : initJobs replies ≤ initJobs replies' :=
  h.countP_le

theorem initJobs_append (replies replies' : List (Posted RscReply)) :
    initJobs (replies ++ replies') = initJobs replies + initJobs replies' :=
  List.countP_append

theorem initJobs_le_length (replies : List (Posted RscReply)) :
    initJobs replies ≤ replies.length :=
  List.countP_le_length

theorem initJobs_eq_zero (out : List RscReply) (hout : ∀ reply ∈ out, reply ≠ .initJob "0")
    (task : Option Nat) :
    initJobs (out.map fun reply => { message := reply, task := task }) = 0 :=
  List.countP_eq_zero.2 (List.forall_mem_map.2 fun reply hmem => by simpa using hout reply hmem)

theorem initJobsToCome_le {d d' : DPEDeviceImpl} (hcompiling : d'.compiling = d.compiling)
    (hwaiting : d'.registered = true → d'.deviceState = .waiting →
      d.registered = true ∧ d.deviceState = .waiting) : initJobsToCome d' ≤ initJobsToCome d := by
  rw [initJobsToCome, hcompiling]
  refine Nat.add_le_add_left ?_ _
  by_cases hd : d'.registered = true ∧ d'.deviceState = .waiting
  · rw [if_pos hd, if_pos (hwaiting hd.1 hd.2)]
  · rw [if_neg hd]
    exact Nat.zero_le _

/-- A device that is not waiting any more. -/
theorem initJobsToCome_of_waiting {d : DPEDeviceImpl} (hregistered : d.registered = true)
    (hwaiting : d.deviceState = .waiting) {state : DPEDeviceState} (hstate : state ≠ .waiting) :
    initJobsToCome { d with deviceState := state } + 1 = initJobsToCome d := by
  have hnot : ¬ (d.registered = true ∧ state = .waiting) := fun h => hstate h.2
  have hwas : d.registered = true ∧ d.deviceState = .waiting := ⟨hregistered, hwaiting⟩
  rw [initJobsToCome, initJobsToCome, if_neg hnot, if_pos hwas]

theorem initJobsToCome_compiling {d : DPEDeviceImpl} (hregistered : d.registered = true)
    (hwaiting : d.deviceState = .waiting) :
    initJobsToCome { d with deviceState := .initializing, compiling := true } ≤
      initJobsToCome d := by
  have hnot : ¬ (d.registered = true ∧ DPEDeviceState.initializing = .waiting) :=
    fun h => nomatch h.2
  have hwas : d.registered = true ∧ d.deviceState = .waiting := ⟨hregistered, hwaiting⟩
  rw [initJobsToCome, initJobsToCome, if_neg hnot, if_pos hwas, if_pos rfl]
  omega

theorem initJobsToCome_compiled {d : DPEDeviceImpl} (hcompiling : d.compiling = true)
    {state : DPEDeviceState} (hstate : state ≠ .waiting) :
    initJobsToCome { d with compiling := false, deviceState := state } + 1 ≤
      initJobsToCome d := by
  have hnot : ¬ (d.registered = true ∧ state = .waiting) := fun h => hstate h.2
  rw [initJobsToCome, initJobsToCome, hcompiling, if_neg Bool.false_ne_true, if_neg hnot,
    if_pos rfl]
  omega

theorem fresh_moved {transport : Transport} {l l' : TaskLink} (htagged : l.Tagged)
    (hout : l.Outstanding) (h : l.Fresh) (hmoved : Moved transport l l') : l'.Fresh := by
  have hpop : ∀ {reply replies}, l.replies = reply :: replies →
      initJobs replies + initJobsToCome l.device ≤ initJobs l.replies + initJobsToCome l.device :=
    fun heq => Nat.add_le_add_right (heq ▸ initJobs_sublist (List.sublist_cons_self _ _)) _
  have hanswered : ∀ {reply : Posted RscReply} {replies}, l.replies = reply :: replies →
      reply.message.isDoTask = true → initJobs replies + initJobsToCome l.device = 0 := by
    intro reply replies hrep hreply
    obtain ⟨task, htask⟩ := Option.isSome_iff_exists.1
      ((htagged.replies reply (hrep ▸ List.mem_cons_self)).trans hreply)
    have hmem : task ∈ l.outstanding := by
      rw [outstanding, hrep, filterMap_task_cons, htask]
      simp
    have hzero : initJobs l.replies + initJobsToCome l.device = 0 := by
      by_contra hpos
      have hlast := (hout.last task hmem).1
      rw [(h.first hpos).1] at hlast
      exact Nat.succ_ne_zero task hlast
    exact Nat.le_zero.1 (hzero ▸ hpop hrep)
  cases hmoved with
  | remote hbusy hidle hplace hout' hids => exact h.of_le le_rfl rfl hidle
  | handOut hidle hr hplace hi hout' hone hids =>
    exact .of_zero (by_contra fun hpos => (h.first hpos).2 hidle)
  | lost hreq hrep hids => exact h.of_le (Nat.add_le_add_right (initJobs_sublist hrep) _) rfl id
  | closed hreq =>
    refine h.of_le (Nat.add_le_add_left (initJobsToCome_le ?_ ?_) _) rfl id
    · rw [DPEDeviceImpl.closeDevice]
      split <;> rfl
    · rw [DPEDeviceImpl.closeDevice]
      split
      · exact .intro
      · exact nofun
  | @answered request requests d reply hrequest hregistered hd hreply hinit hfailed =>
    refine h.of_le ?_ rfl id
    have hnew : initJobs [{ message := reply, task := request.task }] = 0 :=
      initJobs_eq_zero [reply] (by simpa using hinit) request.task
    have hsame : initJobsToCome d ≤ initJobsToCome l.device := by
      rcases hd with rfl | ⟨-, rfl⟩ <;> exact le_rfl
    dsimp only
    rw [initJobs_append]
    omega
  | @initialized request requests hrequest hregistered hwaiting hinit =>
    refine h.of_le ?_ rfl id
    have hnew := initJobs_le_length [{ message := .initJob "0", task := request.task }]
    have hwas := initJobsToCome_of_waiting hregistered hwaiting
      (nofun : DPEDeviceState.runningIdle ≠ .waiting)
    dsimp only
    rw [initJobs_append]
    rw [List.length_singleton] at hnew
    omega
  | compiling hrequest hregistered hwaiting =>
    exact h.of_le (Nat.add_le_add_left (initJobsToCome_compiling hregistered hwaiting) _) rfl id
  | started hrequest hregistered hidle htask =>
    refine h.of_le (Nat.add_le_add_left (initJobsToCome_le ?_ ?_) _) rfl id
    · rfl
    · exact nofun
  | @compiled state out hcomp hstate hinit hone =>
    refine h.of_le ?_ rfl id
    have hnew := initJobs_le_length (out.map fun reply => { message := reply })
    have hwas := initJobsToCome_compiled hcomp hstate
    dsimp only
    rw [initJobs_append]
    rw [List.length_map] at hnew
    omega
  | output isStdOut data hworker =>
    refine h.of_le (Nat.add_le_add_left (initJobsToCome_le ?_ ?_) _) rfl id <;> cases isStdOut
    exacts [rfl, rfl, .intro, .intro]
  | @stopped worker exitCode exitReason hworker =>
    refine h.of_le ?_ rfl id
    have hnew := initJobs_eq_zero (l.device.onStop exitCode exitReason).2
      (fun reply hmem => by rcases of_mem_onStop hmem with rfl | ⟨-, rfl⟩ <;> exact nofun)
      (some worker.task)
    have hsame : initJobsToCome (l.device.onStop exitCode exitReason).1 ≤
        initJobsToCome l.device := by
      rw [onStop_device]
      exact initJobsToCome_le rfl nofun
    change initJobs (l.replies ++ _) + initJobsToCome (l.device.onStop exitCode exitReason).1 ≤ _
    rw [initJobs_append]
    omega
  | unread hrep hstate hplace =>
    refine h.of_le (hpop hrep) rfl fun hidle => ?_
    rcases hstate with hstate | hstate
    · exact hstate ▸ hidle
    · rw [hstate] at hidle
      cases hidle
  | @initJobDone reply replies r hrep hreply hplace =>
    refine .of_zero ?_
    have honce := h.once
    rw [initJobs, hrep, List.countP_cons_of_pos (by simpa using hreply)] at honce
    change initJobs replies + 1 + _ ≤ 1 at honce
    dsimp only
    omega
  | taskFailed hrep hreply hplace hids => exact .of_zero (hanswered hrep hreply)
  | taskSucceeded hrep hreply hread hlive hplace hids =>
    exact .of_zero (hanswered hrep (by rw [hreply]; rfl))

/-! ## Whose output it is -/

/-- The outputs on their way and in the store are those of worker processes that have succeeded. -/
structure Filled (transport : Transport) (l : TaskLink) : Prop where
  place : ∀ i ∈ l.sent.getLast?,
    l.remote.currTaskIdx = (i : Nat) ∧ i < (taskIds l.scheduler).length
  replies : ∀ reply ∈ l.replies, ∀ id output, reply.message = .doTask "0" id (some output) →
    ∃ run ∈ l.finished, reply.task = some run.task ∧ run.Succeeded ∧ run.output = output
  stored : ∀ r ∈ l.stored, l.sent[r.task]? = some r.place ∧
    ∃ run ∈ l.finished, run.task = r.task ∧ run.Succeeded ∧ transport run.output = some r.output

theorem storePlace_eq {l : TaskLink} {i place : Nat} (hidx : l.remote.currTaskIdx = i)
    (hi : i < (taskIds l.scheduler).length) (h : l.storePlace = some place) : place = i := by
  rw [taskIds, List.length_map] at hi
  have hin : ¬ ((i : Int) < 0 ∨ (i : Int) ≥ l.scheduler.projectState.taskData.length) := by omega
  simp only [storePlace, hidx, DPEProjectState.getTask, if_neg hin] at h
  split at h
  · split at h
    · cases h
    · exact (Option.some.inj h).symm
  · cases h

theorem Filled.replies_append {transport : Transport} {l : TaskLink} (h : l.Filled transport)
    {out : List (Posted RscReply)}
    (hfailed : ∀ reply ∈ out, ∀ id output, reply.message ≠ .doTask "0" id (some output)) :
    ∀ reply ∈ l.replies ++ out, ∀ id output, reply.message = .doTask "0" id (some output) →
      ∃ run ∈ l.finished, reply.task = some run.task ∧ run.Succeeded ∧ run.output = output := by
  intro reply hmem id output hreply
  rcases List.mem_append.1 hmem with hmem | hmem
  · exact h.replies reply hmem id output hreply
  · exact absurd hreply (hfailed reply hmem id output)

theorem filled_moved {transport : Transport} {l l' : TaskLink} (hworking : l.Working)
    (hout : l.Outstanding) (h : l.Filled transport) (hmoved : Moved transport l l') :
    l'.Filled transport := by
  have hpop : ∀ {reply replies}, l.replies = reply :: replies → ∀ reply ∈ replies, ∀ id output,
      reply.message = .doTask "0" id (some output) →
        ∃ run ∈ l.finished, reply.task = some run.task ∧ run.Succeeded ∧ run.output = output :=
    fun heq reply hmem => h.replies reply (heq ▸ List.mem_cons_of_mem _ hmem)
  cases hmoved with
  | remote hbusy hidle hplace hout' hids =>
    exact ⟨by rw [hplace, hids]; exact h.place, h.replies, h.stored⟩
  | @handOut r out s i hidle hr hplace hi hout' hone hids =>
    refine ⟨fun j hj => ?_, h.replies, fun r hr => ?_⟩
    · rw [List.getLast?_concat] at hj
      obtain rfl := Option.some.inj hj
      exact ⟨hplace, hids ▸ hi⟩
    · obtain ⟨hsent, hrun⟩ := h.stored r hr
      refine ⟨(List.getElem?_append_left ?_).trans hsent, hrun⟩
      exact (List.getElem?_eq_some_iff.1 hsent).1
  | lost hreq hrep hids =>
    exact ⟨by rw [hids]; exact h.place, fun reply hmem => h.replies reply (hrep.subset hmem),
      h.stored⟩
  | closed hreq => exact ⟨h.place, h.replies, h.stored⟩
  | answered hrequest hregistered hd hreply hinit hfailed =>
    exact ⟨h.place,
      h.replies_append (List.forall_mem_singleton.2 fun id output => hfailed id output),
      h.stored⟩
  | initialized hrequest hregistered hwaiting hinit =>
    exact ⟨h.place, h.replies_append (List.forall_mem_singleton.2 nofun), h.stored⟩
  | compiling hrequest hregistered hwaiting => exact ⟨h.place, h.replies, h.stored⟩
  | started hrequest hregistered hidle htask => exact ⟨h.place, h.replies, h.stored⟩
  | compiled hcomp hstate hinit hone =>
    refine ⟨h.place, h.replies_append (List.forall_mem_map.2 fun reply hmem id output heq => ?_),
      h.stored⟩
    have hno := hinit reply hmem
    rw [show reply = _ from heq] at hno
    cases hno
  | output isStdOut data hworker => exact ⟨h.place, h.replies, h.stored⟩
  | @stopped worker exitCode exitReason hworker =>
    refine ⟨h.place, fun reply hmem id output hreply => ?_, fun r hr => ?_⟩
    · rcases List.mem_append.1 hmem with hmem | hmem
      · obtain ⟨run, hrun, heq⟩ := h.replies reply hmem id output hreply
        exact ⟨run, List.mem_append_left _ hrun, heq⟩
      · obtain ⟨message, hmessage, rfl⟩ := List.mem_map.1 hmem
        rcases of_mem_onStop hmessage with rfl | ⟨hgood, rfl⟩
        · exact absurd hreply (by simp)
        · refine ⟨_, List.mem_append_right _ (List.mem_singleton_self _), rfl, hgood, ?_⟩
          rw [← Option.some.inj (RscReply.doTask.inj hreply).2.2]
          exact hworking.output worker hworker
    · obtain ⟨hsent, run, hrun, heq⟩ := h.stored r hr
      exact ⟨hsent, run, List.mem_append_left _ hrun, heq⟩
  | unread hrep hstate hplace => exact ⟨by rw [hplace]; exact h.place, hpop hrep, h.stored⟩
  | initJobDone hrep hreply hplace => exact ⟨by rw [hplace]; exact h.place, hpop hrep, h.stored⟩
  | taskFailed hrep hreply hplace hids =>
    exact ⟨by rw [hplace, hids]; exact h.place, hpop hrep, h.stored⟩
  | @taskSucceeded reply replies r s output output' hrep hreply hread hlive hplace hids =>
    refine ⟨by rw [hplace, hids]; exact h.place, hpop hrep, List.forall_mem_append.2 ⟨h.stored, ?_⟩⟩
    intro r' hr'
    obtain ⟨place, hstore, rfl⟩ := Option.map_eq_some_iff.1 (Option.mem_toList.1 hr')
    obtain ⟨run, hrun, htask, hsucceeded, hrunOutput⟩ :=
      h.replies reply (hrep ▸ List.mem_cons_self) _ _ hreply
    have hmem : run.task ∈ l.outstanding := by
      rw [outstanding, hrep, filterMap_task_cons, htask]
      simp
    have hlast := (hout.last _ hmem).1
    obtain ⟨i, hi⟩ := Option.isSome_iff_exists.1 (List.getLast?_isSome (l := l.sent) |>.2 (by
      rintro hnil
      rw [hnil] at hlast
      exact Nat.succ_ne_zero _ hlast))
    refine ⟨?_, run, hrun, ?_, hsucceeded, ?_⟩
    · obtain ⟨hidx, hlt⟩ := h.place i hi
      rw [storePlace_eq hidx hlt hstore]
      exact List.getLast?_eq_getElem?.symm.trans hi
    · change run.task = l.sent.length - 1
      omega
    · rw [hrunOutput]
      exact hread

/-- What every step keeps. -/
structure Inv (transport : Transport) (l : TaskLink) : Prop where
  tagged : l.Tagged
  working : l.Working
  fresh : l.Fresh
  begun : l.Begun
  outstanding : l.Outstanding
  filled : l.Filled transport

theorem inv_start (transport : Transport) (scheduler : DPEScheduler) (pa session : String) :
    (start scheduler pa session).Inv transport where
  tagged := ⟨nofun, nofun⟩
  working := ⟨rfl, nofun, nofun⟩
  fresh := ⟨by simp [start, initJobs, initJobsToCome], fun _ => ⟨rfl, nofun⟩⟩
  begun := ⟨List.Pairwise.nil, nofun⟩
  outstanding := .of_nil rfl
  filled := ⟨nofun, nofun, nofun⟩

theorem Inv.moved {transport : Transport} {l l' : TaskLink} {a : Action} (h : l.Inv transport)
    (hstep : step transport l a = some l') : Moved transport l l' := by
  refine moved_of_step (fun hidle hregistered => ?_) hstep
  rw [h.working.working, h.working.free (by rw [hidle]; exact nofun) hregistered]
  rfl

theorem inv_step {transport : Transport} {l l' : TaskLink} {a : Action} (h : l.Inv transport)
    (hstep : step transport l a = some l') : l'.Inv transport := by
  have hmoved := h.moved hstep
  have hcompiling : l.device.compiling = true → l.worker = none := by
    intro hcomp
    have hpos : initJobs l.replies + initJobsToCome l.device ≠ 0 := by
      rw [initJobsToCome, if_pos hcomp]
      omega
    by_contra hworker
    obtain ⟨worker, hworker⟩ := Option.ne_none_iff_exists'.1 hworker
    have hlt := h.begun.lt worker.task (by rw [TaskLink.begun, hworker]; simp)
    rw [(h.fresh.first hpos).1] at hlt
    exact Nat.not_lt_zero _ hlt
  exact
    { tagged := tagged_moved h.tagged hmoved
      working := working_moved h.tagged hcompiling h.working hmoved
      fresh := fresh_moved h.tagged h.outstanding h.fresh hmoved
      begun := begun_moved h.tagged h.working h.begun hmoved
      outstanding := outstanding_moved h.tagged h.working h.fresh h.outstanding hmoved
      filled := filled_moved h.working h.outstanding h.filled hmoved }

/-! ## The outputs that are stored -/

/-- The output is what the one worker process that was started for the `DoTask` of the task has
written, and this process has exited normally with code 0. -/
def Earned (l : TaskLink) (r : StoredOutput) : Prop :=
  l.sent[r.task]? = some r.place ∧
    ∃ run ∈ l.finished, run.task = r.task ∧ run.exitCode = 0 ∧ run.exitReason = .exit ∧
      run.chunks.flatten = r.output ∧
      ∀ worker ∈ l.finished.map (·.toWorkerRun) ++ l.worker.toList, worker.task = r.task →
        worker = run.toWorkerRun

theorem Begun.worker_eq {l : TaskLink} (h : l.Begun) {worker worker' : WorkerRun}
    (hmem : worker ∈ l.finished.map (·.toWorkerRun) ++ l.worker.toList)
    (hmem' : worker' ∈ l.finished.map (·.toWorkerRun) ++ l.worker.toList)
    (htask : worker.task = worker'.task) : worker = worker' := by
  have hsorted : ((l.finished.map (·.toWorkerRun) ++ l.worker.toList).map (·.task)).Nodup := by
    have hpre := h.sorted.sublist (List.sublist_append_left _ _)
    rw [List.map_append, List.map_map, ← Option.toList_map]
    exact hpre.imp Nat.ne_of_lt
  exact List.inj_on_of_nodup_map hsorted hmem hmem' htask

theorem earned_iff {transport : Transport} {l : TaskLink} (h : l.Inv transport) {r : StoredOutput}
    (hr : r ∈ l.stored) {run : FinishedRun} (hrun : run ∈ l.finished) (htask : run.task = r.task) :
    l.Earned r ↔ run.output = r.output := by
  have hmem : ∀ {run}, run ∈ l.finished → run.toWorkerRun ∈
      l.finished.map (·.toWorkerRun) ++ l.worker.toList := fun hrun =>
    List.mem_append_left _ (List.mem_map_of_mem hrun)
  have hsame : ∀ {run'}, run' ∈ l.finished → run'.task = r.task →
      run'.toWorkerRun = run.toWorkerRun := fun hrun' htask' =>
    h.begun.worker_eq (hmem hrun') (hmem hrun) (htask'.trans htask.symm)
  obtain ⟨hplace, run', hrun', htask', hsucceeded, -⟩ := h.filled.stored r hr
  constructor
  · rintro ⟨-, run'', hrun'', htask'', -, -, houtput, -⟩
    rw [WorkerRun.output, ← hsame hrun'' htask'']
    exact houtput
  · intro houtput
    refine ⟨hplace, run', hrun', htask', hsucceeded.1, hsucceeded.2, ?_,
      fun worker hworker hw => ?_⟩
    · rw [hsame hrun' htask']
      exact houtput
    · exact h.begun.worker_eq hworker (hmem hrun') (hw.trans htask'.symm)

/-- The next reply is read and accepted, and its output is stored. -/
structure Stores (transport : Transport) (l : TaskLink) (r : StoredOutput) (output : Bytes) :
    Prop where
  live : l.remote.deviceState ≠ .failed ∧ l.remote.deviceState ≠ .idle
  reply : ∃ reply ∈ l.replies.head?,
    reply.message = .doTask "0" (some l.remote.currTaskId) (some output)
  read : transport output = some r.output
  place : l.storePlace = some r.place
  task : r.task = l.sent.length - 1

theorem moved_stored {transport : Transport} {l l' : TaskLink} (hmoved : Moved transport l l') :
    l'.stored = l.stored ∨
      ∃ r output, l.Stores transport r output ∧ l'.stored = l.stored ++ [r] := by
  cases hmoved with
  | @taskSucceeded reply replies r s output output' hrep hreply hread hlive hplace hids =>
    cases hstore : l.storePlace with
    | none => exact .inl (List.append_nil _)
    | some place =>
      exact .inr ⟨_, output, ⟨hlive, ⟨reply, by rw [hrep]; rfl, hreply⟩, hread, hstore, rfl⟩, rfl⟩
  | _ => exact .inl rfl

theorem moved_finished {transport : Transport} {l l' : TaskLink} (hmoved : Moved transport l l') :
    ∀ run ∈ l.finished, run ∈ l'.finished := by
  cases hmoved with
  | stopped exitCode exitReason hworker => exact fun run hrun => List.mem_append_left _ hrun
  | _ => exact fun run hrun => hrun

/-- Only the delivery of a reply stores an output. -/
theorem stored_step {transport : Transport} {l l' : TaskLink} {a : Action} (ha : a ≠ .recvReply)
    (hstep : step transport l a = some l') : l'.stored = l.stored := by
  cases a with
  | recvReply => exact absurd rfl ha
  | handOut i =>
    rw [step, handOut] at hstep
    split at hstep
    · cases hstep
    split at hstep
    · cases hstep
    obtain ⟨r, -, rfl⟩ := Option.map_eq_some_iff.1 hstep
    rfl
  | checkHeartBeat expired =>
    rw [step] at hstep
    split at hstep
    · obtain rfl := Option.some.inj hstep
      rw [RemoteDPEDevice.checkHeartBeat]
      split
      · rfl
      split <;> rfl
    · cases hstep
  | recvRequest env =>
    rw [step] at hstep
    split at hstep
    · cases hstep
    split at hstep
    · obtain rfl := Option.some.inj hstep
      rw [recvRequest]
      dsimp only
      split <;> rfl
    · cases hstep
  | initJob _ | doAction _ | taskOutput _ _ | taskStop _ _ =>
    obtain ⟨r, -, rfl⟩ := Option.map_eq_some_iff.1 hstep
    rfl
  | schedule _ | compileFinished _ _ =>
    rw [step] at hstep
    split at hstep
    · obtain rfl := Option.some.inj hstep
      rfl
    · cases hstep
  | stop | loseRequest _ | checkDevice _ | loseReply _ =>
    obtain rfl := Option.some.inj hstep
    rfl

theorem stored_of_stores {transport : Transport} {l l' : TaskLink} {r : StoredOutput}
    {output : Bytes} (h : l.Stores transport r output)
    (hstep : step transport l .recvReply = some l') : l'.stored = l.stored ++ [r] := by
  obtain ⟨reply, hhead, hreply⟩ := h.reply
  obtain ⟨replies, hrep⟩ := List.head?_eq_some_iff.1 hhead
  have hdead : ¬ (l.remote.deviceState = .failed ∨ l.remote.deviceState = .idle) :=
    not_or.2 h.live
  have hread : reply.message.read transport =
      some (.doTask "0" (some l.remote.currTaskId) (some r.output)) := by
    rw [hreply, RscReply.read, h.read]
    rfl
  have hhandle : l.ready.handleMessage
      (.doTask "0" (some l.remote.currTaskId) (some r.output)) = _ := if_neg hdead
  rw [step, hrep] at hstep
  dsimp only at hstep
  split at hstep
  · obtain rfl := Option.some.inj hstep
    rw [recvReply, hread]
    change ({ l with
      replies := replies
      remote := l.ready.handleMessage (.doTask "0" (some l.remote.currTaskId) (some r.output)) } :
        TaskLink).managerCalls.stored = _
    rw [hhandle]
    simp only [RemoteDPEDevice.handleDoTask, ready, ne_eq, not_true_eq_false, if_false]
    change l.stored ++ (l.storePlace.map fun place =>
      ({ place := place, output := r.output, task := l.sent.length - 1 } : StoredOutput)).toList = _
    rw [h.place, ← h.task]
    rfl
  · cases hstep

theorem earned_moved {transport : Transport} {l l' : TaskLink} {a : Action}
    (h : l.Inv transport) (hstep : step transport l a = some l') {r : StoredOutput}
    (hr : r ∈ l.stored) (hr' : r ∈ l'.stored) : l'.Earned r ↔ l.Earned r := by
  obtain ⟨-, run, hrun, htask, -⟩ := h.filled.stored r hr
  rw [earned_iff h hr hrun htask,
    earned_iff (inv_step h hstep) hr' (moved_finished (h.moved hstep) run hrun) htask]

/-- An output that is stored by a step is earned if it is a text. -/
theorem earned_of_stores {transport : Transport} (ht : transport.Faithful) {l l' : TaskLink}
    (h : l.Inv transport) (hstep : step transport l .recvReply = some l') {r : StoredOutput}
    {output : Bytes} (hstores : l.Stores transport r output) :
    l'.Earned r ↔ IsText output := by
  have hmem : r ∈ l'.stored := by
    rw [stored_of_stores hstores hstep]
    exact List.mem_append_right _ (List.mem_singleton_self r)
  obtain ⟨reply, hhead, hreply⟩ := hstores.reply
  obtain ⟨replies, hrep⟩ := List.head?_eq_some_iff.1 hhead
  obtain ⟨run, hrun, htask, -, houtput⟩ :=
    h.filled.replies reply (List.mem_of_mem_head? hhead) _ _ hreply
  have hout : run.task ∈ l.outstanding := by
    rw [outstanding, hrep, filterMap_task_cons, htask]
    simp
  have hlast := (h.outstanding.last _ hout).1
  have htask' : run.task = r.task := by
    rw [hstores.task]
    omega
  rw [earned_iff (inv_step h hstep) hmem (moved_finished (h.moved hstep) run hrun) htask', houtput,
    ← ht _ _ hstores.read]
  exact eq_comm

/-- If the step stores an output, this is a text. -/
def Readable (transport : Transport) (l : TaskLink) (a : Action) : Prop :=
  a = .recvReply → ∀ r output, l.Stores transport r output → IsText output

theorem earned_step {transport : Transport} (ht : transport.Faithful) {l l' : TaskLink}
    {a : Action} (h : l.Inv transport) (hstep : step transport l a = some l') :
    (∀ r ∈ l'.stored, l'.Earned r) ↔ (∀ r ∈ l.stored, l.Earned r) ∧ l.Readable transport a := by
  have hold : l'.stored = l.stored →
      ((∀ r ∈ l'.stored, l'.Earned r) ↔ ∀ r ∈ l.stored, l.Earned r) := fun heq =>
    ⟨fun hall r hr => (earned_moved h hstep hr (heq ▸ hr)).1 (hall r (heq ▸ hr)),
      fun hall r hr => (earned_moved h hstep (heq ▸ hr) hr).2 (hall r (heq ▸ hr))⟩
  by_cases ha : a = .recvReply
  · subst ha
    by_cases hstores : ∃ r output, l.Stores transport r output
    · obtain ⟨r, output, hstores⟩ := hstores
      have heq := stored_of_stores hstores hstep
      have hreadable : l.Readable transport .recvReply ↔ IsText output :=
        ⟨fun hall => hall rfl r output hstores, fun htext _ r' output' hstores' => by
          obtain ⟨reply, hhead, hreply⟩ := hstores.reply
          obtain ⟨reply', hhead', hreply'⟩ := hstores'.reply
          obtain rfl := Option.some.inj (hhead.symm.trans hhead')
          rw [hreply, RscReply.doTask.injEq, Option.some_inj] at hreply'
          exact Option.some.inj hreply'.2.2 ▸ htext⟩
      rw [hreadable, ← earned_of_stores ht h hstep hstores, heq, List.forall_mem_append,
        List.forall_mem_singleton]
      refine and_congr_left fun _ => forall₂_congr fun r' hr' => earned_moved h hstep hr' ?_
      rw [heq]
      exact List.mem_append_left _ hr'
    · have heq : l'.stored = l.stored := (moved_stored (h.moved hstep)).resolve_right
        fun ⟨r, output, hs, _⟩ => hstores ⟨r, output, hs⟩
      rw [hold heq]
      exact (and_iff_left fun _ r output hs => absurd ⟨r, output, hs⟩ hstores).symm
  · rw [hold (stored_step ha hstep)]
    exact (and_iff_left fun h => absurd h ha).symm

/-- **Whose output is stored.**  In every run, each output that is stored is what the one worker
process of the task's own `DoTask` has written, if and only if the outputs that are stored are the
text of strings without NUL characters. -/
theorem stored_earned_iff {transport : Transport} (ht : transport.Faithful)
    {scheduler : DPEScheduler} {pa session : String} {as : List Action} {l : TaskLink}
    (hrun : (step transport).run (start scheduler pa session) as = some l) :
    (∀ r ∈ l.stored, l.Earned r) ↔
      (step transport).Meets (Readable transport) (start scheduler pa session) as := by
  have hall : ∀ {l₀ : TaskLink}, l₀.Inv transport → (step transport).run l₀ as = some l →
      ((∀ r ∈ l.stored, l.Earned r) ↔ (∀ r ∈ l₀.stored, l₀.Earned r) ∧
        (step transport).Meets (Readable transport) l₀ as) := by
    clear hrun
    induction as with
    | nil =>
      intro l₀ _ hrun
      obtain rfl := Option.some.inj hrun
      exact (and_iff_left trivial).symm
    | cons a as ih =>
      intro l₀ h hrun
      obtain ⟨l₁, hstep, hrun⟩ := Machine.run_cons.1 hrun
      have hcons : (step transport).Meets (Readable transport) l₀ (a :: as) ↔
          l₀.Readable transport a ∧ (step transport).Meets (Readable transport) l₁ as := by
        simp only [Machine.Meets, hstep, Option.some_inj, forall_eq']
      rw [ih (inv_step h hstep) hrun, earned_step ht h hstep, hcons, and_assoc]
  rw [hall (inv_start transport scheduler pa session) hrun]
  refine and_iff_right fun r hr => ?_
  cases hr

/-! ## Samples -/

/-- What becomes of bytes that are ASCII, and of the byte FF, which is read as U+FFFD. -/
def sampleTransport : Transport := fun bytes =>
  if bytes.all fun b => 0 < b && b < 128 then some bytes
  else if bytes = [0xFF] then some [0xEF, 0xBF, 0xBD]
  else none

theorem isText_ascii {bytes : Bytes} (h : bytes.all fun b => 0 < b && b < 128) : IsText bytes := by
  have hchar : ∀ n : Fin 128, 0 < n → Char.ofNat n ≠ '\x00' ∧
      String.utf8EncodeChar (Char.ofNat n) = [UInt8.ofNat n] := by decide
  induction bytes with
  | nil => exact ⟨[], nofun, rfl⟩
  | cons b bytes ih =>
    rw [List.all_cons, Bool.and_eq_true, Bool.and_eq_true, decide_eq_true_iff,
      decide_eq_true_iff] at h
    obtain ⟨⟨hpos, hlt⟩, hrest⟩ := h
    obtain ⟨cs, hcs, rfl⟩ := ih hrest
    obtain ⟨hne, hencode⟩ := hchar ⟨b.toNat, UInt8.lt_iff_toNat_lt.1 hlt⟩
      (UInt8.lt_iff_toNat_lt.1 hpos)
    refine ⟨Char.ofNat b.toNat :: cs, ?_, ?_⟩
    · exact List.not_mem_cons_of_ne_of_not_mem hne.symm hcs
    · rw [List.flatMap_cons, hencode, UInt8.ofNat_toNat]
      rfl

theorem head_utf8EncodeChar (c : Char) :
    ∃ b bytes, String.utf8EncodeChar c = b :: bytes ∧ b ≠ 0xFF := by
  have hlt : ∀ n, n % 256 < 255 → UInt8.ofNat n ≠ 0xFF := by
    intro n hn heq
    have hnat := congrArg UInt8.toNat heq
    rw [UInt8.toNat_ofNat'] at hnat
    change n % 256 = 255 at hnat
    omega
  fun_cases String.utf8EncodeChar c
  all_goals exact ⟨_, _, rfl, hlt _ (by omega)⟩

theorem not_isText_ff : ¬ IsText [0xFF] := by
  rintro ⟨cs, -, hcs⟩
  cases cs with
  | nil => cases hcs
  | cons c cs =>
    obtain ⟨b, bytes, hc, hb⟩ := head_utf8EncodeChar c
    rw [List.flatMap_cons, hc, List.cons_append] at hcs
    exact hb (List.cons.inj hcs).1

theorem sampleTransport_faithful : sampleTransport.Faithful := by
  intro bytes bytes' h
  rw [sampleTransport] at h
  split at h
  · next hascii =>
    obtain rfl := Option.some.inj h
    exact iff_of_true rfl (isText_ascii hascii)
  split at h
  · next hff =>
    obtain rfl := Option.some.inj h
    rw [hff]
    exact iff_of_false (by decide) not_isText_ff
  · cases h

/-- A scheduler with one task. -/
def sampleScheduler : DPEScheduler where
  projectState := { id2idx := (∅ : Std.TreeMap Int Nat).insert 1 0,
                    taskData := [{ id := 1, input := [120] }] }
  taskQueue := [(1, 0)]

/-- The task is run, and its worker process writes the chunks. -/
def sampleActions (chunks : List Bytes) : List Action :=
  ([.initJob JobRun.sampleArgs, .doAction 1, .recvRequest {}, .compileFinished 0 .exit,
    .recvReply, .handOut 0, .recvRequest {}] : List Action) ++
    chunks.map (Action.taskOutput true) ++ ([.taskStop 0 .exit, .recvReply] : List Action)

/-- The output of a reply is ASCII. -/
def outputAscii : RscReply → Bool
  | .doTask _ _ (some output) => output.all fun b => 0 < b && b < 128
  | _ => true

theorem sampleActions_run : ((step sampleTransport).run (start sampleScheduler "pa" "1")
    (sampleActions [[88], [89]])).isSome = true := by decide

theorem readable_sampleActions : (step sampleTransport).Meets (Readable sampleTransport)
    (start sampleScheduler "pa" "1") (sampleActions [[88], [89]]) := by
  have hascii : (step sampleTransport).Meets
      (fun l _ => ∀ reply ∈ l.replies.head?, outputAscii reply.message = true)
      (start sampleScheduler "pa" "1") (sampleActions [[88], [89]]) := by decide
  refine hascii.imp fun l a h _ r output hstores => ?_
  obtain ⟨reply, hhead, hreply⟩ := hstores.reply
  have houtput := h reply hhead
  rw [hreply] at houtput
  exact isText_ascii houtput

theorem stored_earned_sample : ∃ l : TaskLink,
    (step sampleTransport).run (start sampleScheduler "pa" "1") (sampleActions [[88], [89]]) =
        some l ∧
      l.stored = [{ place := 0, output := [88, 89], task := 0 }] ∧ ∀ r ∈ l.stored, l.Earned r := by
  have hrun := (Option.some_get sampleActions_run).symm
  exact ⟨_, hrun, by decide,
    (stored_earned_iff sampleTransport_faithful hrun).2 readable_sampleActions⟩

theorem ffActions_run : ((step sampleTransport).run (start sampleScheduler "pa" "1")
    (sampleActions [[0xFF]])).isSome = true := by decide

/-- The byte FF is stored as U+FFFD. -/
theorem stored_replaced :
    ¬ ∀ (transport : Transport) (scheduler : DPEScheduler) (pa session : String)
        (as : List Action) (l : TaskLink), transport.Faithful →
      (step transport).run (start scheduler pa session) as = some l →
      ∀ r ∈ l.stored, l.Earned r := by
  intro h
  have hrun := (Option.some_get ffActions_run).symm
  obtain ⟨-, run, hmem, -, -, -, houtput, -⟩ := h _ _ _ _ _ _ sampleTransport_faithful hrun
    { place := 0, output := [0xEF, 0xBF, 0xBD], task := 0 } (by decide)
  have hchunks : ∀ run ∈ (Option.get _ ffActions_run).finished,
      run.chunks.flatten ≠ [0xEF, 0xBF, 0xBD] := by decide
  exact hchunks run hmem houtput

end TaskLink

end Dcfpe

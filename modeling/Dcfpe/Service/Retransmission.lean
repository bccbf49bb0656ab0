import Dcfpe.Service.InitJob

/-!
# When resending `InitJob` is harmless

The device takes the first copy of `InitJob` it receives, and from then on it is not WAITING any
more.  So of the replies to `InitJob` the one to copy 0 is a success and every other one is an
error, whatever else goes on.  An error moves the scheduler's side to FAILED, from where the success
no longer helps: a copy too many is harmless exactly if its reply is lost.
-/

set_option autoImplicit false

namespace Dcfpe

/-- The fields of `InitJob` the device insists on are there. -/
def InitJobArgs.Complete (args : InitJobArgs) : Prop :=
  args.jobName ≠ "" ∧ args.workerName ≠ "" ∧ args.data ≠ ""

instance (args : InitJobArgs) : Decidable args.Complete := inferInstanceAs (Decidable (_ ∧ _))

/-- The image is there, or a compilation starts. -/
def InitJobEnv.Succeeds (env : InitJobEnv) : Prop :=
  env.compilerMade = true ∧ (env.alreadyCompiled = true ∨ env.compileStarted = true)

instance (env : InitJobEnv) : Decidable env.Succeeds := inferInstanceAs (Decidable (_ ∧ _))

/-! ## The scheduler's side -/

namespace RemoteDPEDevice

/-- What every step of the scheduler's side keeps. -/
structure Kept (r r' : RemoteDPEDevice) : Prop where
  pa : r'.pa = r.pa
  session : r'.session = r.session
  registered : r'.registered = true → r.registered = true
  idle : r'.registered = true → r'.deviceState = .idle → r.deviceState = .idle
  action : ∀ ra' ∈ r'.doInitJob, ra'.action.Complete ∨ ∃ ra ∈ r.doInitJob, ra'.action = ra.action

/-- The requests are those of the scheduler's side, and ask for no job but the one it was given. -/
def Sends (r : RemoteDPEDevice) (requests : List RscRequest) : Prop :=
  ∀ req ∈ requests, req.pa = r.pa ∧ req.session = r.session ∧
    ∀ args, req.message = .initJob args → ∃ ra ∈ r.doInitJob, args = ra.action

theorem Kept.of_eq {r r' : RemoteDPEDevice} (hpa : r'.pa = r.pa) (hsession : r'.session = r.session)
    (hregistered : r'.registered = r.registered)
    (hidle : r'.deviceState = .idle → r.deviceState = .idle)
    (haction : r'.doInitJob = r.doInitJob ∨ r'.doInitJob = none) : Kept r r' := by
  refine ⟨hpa, hsession, hregistered ▸ id, fun _ => hidle, fun ra' hra' => .inr ?_⟩
  rcases haction with h | h
  · exact ⟨ra', h ▸ hra', rfl⟩
  · rw [h] at hra'
    cases hra'

theorem sends_nil (r : RemoteDPEDevice) : r.Sends [] := fun _ h => absurd h List.not_mem_nil

theorem sends_sendMessage {r : RemoteDPEDevice} {message : RscMessage}
    (h : ∀ args, message = .initJob args → ∃ ra ∈ r.doInitJob, args = ra.action) :
    r.Sends (r.sendMessage message) := by
  intro req hreq
  rw [sendMessage] at hreq
  split at hreq
  · obtain rfl := List.mem_singleton.1 hreq
    exact ⟨rfl, rfl, h⟩
  · cases hreq

theorem kept_initJob {r r' : RemoteDPEDevice} {args : InitJobArgs} (hargs : args.Complete)
    (h : r.initJob args = some r') : Kept r r' ∧ r'.deviceState ≠ .failed := by
  rw [initJob] at h
  split at h
  · cases h
  · obtain rfl := Option.some_inj.1 h
    refine ⟨⟨rfl, rfl, id, fun _ => by simp, fun ra' hra' => .inl ?_⟩, by simp⟩
    obtain rfl := Option.some_inj.1 hra'
    exact hargs

theorem kept_doAction {r r' : RemoteDPEDevice} {cookie : Int} {out : List RscRequest}
    (h : r.doAction cookie = some (r', out)) :
    Kept r r' ∧ r.Sends out ∧ r'.deviceState = r.deviceState := by
  rw [doAction] at h
  split at h
  · cases h
  next ra hra =>
  have hkeep : ∀ outcome ra', ra.doAction cookie = (ra', outcome) → ra'.action = ra.action := by
    intro outcome ra' hra'
    rw [RepeatedAction.doAction] at hra'
    simp only at hra'
    split at hra'
    · split at hra' <;> obtain ⟨rfl, -⟩ := Prod.mk.inj hra' <;> rfl
    · obtain ⟨rfl, -⟩ := Prod.mk.inj hra'
      rfl
  split at h
  · cases h
  split at h
  · next ra' hra' =>
    obtain ⟨rfl, rfl⟩ := Prod.mk.inj (Option.some_inj.1 h)
    refine ⟨⟨rfl, rfl, id, fun _ => id, fun ra'' hra'' => .inr ⟨ra, hra, ?_⟩⟩, sends_nil r, rfl⟩
    obtain rfl := Option.some_inj.1 hra''
    exact hkeep _ _ hra'
  · next ra' hra' =>
    obtain ⟨rfl, rfl⟩ := Prod.mk.inj (Option.some_inj.1 h)
    refine ⟨⟨rfl, rfl, id, fun _ => id, fun ra'' hra'' => .inr ⟨ra, hra, ?_⟩⟩, ?_, rfl⟩
    · obtain rfl := Option.some_inj.1 hra''
      exact hkeep _ _ hra'
    · rw [trySendInitJobMessage]
      split
      · exact sends_nil r
      · refine sends_sendMessage fun args hargs => ⟨ra, hra, ?_⟩
        rw [← RscMessage.initJob.inj hargs, hkeep _ _ hra']
  · next ra' hra' =>
    obtain ⟨rfl, rfl⟩ := Prod.mk.inj (Option.some_inj.1 h)
    refine ⟨?_, sends_nil r, ?_⟩
    · rw [onRepeatedActionFinish]
      split
      · refine ⟨rfl, rfl, id, fun _ => id, fun ra'' hra'' => .inr ⟨ra, hra, ?_⟩⟩
        obtain rfl := Option.some_inj.1 hra''
        rw [RepeatedAction.restart]
        split <;> exact hkeep _ ra' hra'
      · exact .of_eq rfl rfl rfl id (.inr rfl)
    · rw [onRepeatedActionFinish]
      split <;> rfl

theorem kept_doTask {r r' : RemoteDPEDevice} {taskId taskIdx : Int} {data : String}
    {out : List RscRequest} (h : r.doTask taskId taskIdx data = some (r', out)) :
    Kept r r' ∧ r.Sends out ∧ r'.deviceState ≠ .failed := by
  rw [doTask] at h
  split at h
  · cases h
  · obtain ⟨rfl, rfl⟩ := Prod.mk.inj (Option.some_inj.1 h)
    exact ⟨.of_eq rfl rfl rfl (by simp) (.inl rfl), sends_sendMessage (by simp), by simp⟩

theorem kept_stop (r : RemoteDPEDevice) :
    Kept r r.stop.1 ∧ r.Sends r.stop.2 ∧ r.stop.1.deviceState ≠ .failed :=
  ⟨⟨rfl, rfl, (by rintro ⟨⟩), (by rintro ⟨⟩), fun ra hra => .inr ⟨ra, hra, rfl⟩⟩,
    sends_sendMessage (by simp), by simp [stop]⟩

theorem kept_checkHeartBeat (r : RemoteDPEDevice) (expired : Bool) :
    Kept r (r.checkHeartBeat expired).1 ∧ r.Sends (r.checkHeartBeat expired).2 ∧
      (r.deviceState ≠ .failed → (r.checkHeartBeat expired).1.deviceState ≠ .failed) := by
  rw [checkHeartBeat]
  split
  · exact ⟨.of_eq rfl rfl rfl id (.inl rfl), sends_sendMessage (by simp), id⟩
  split
  · obtain ⟨hkept, hsends, hstate⟩ :=
      kept_stop (({ r with deviceState := .failed } : RemoteDPEDevice).call
        (.onDeviceLose r.deviceState))
    exact ⟨⟨hkept.pa, hkept.session, hkept.registered, (by rintro ⟨⟩), hkept.action⟩, hsends,
      fun _ => hstate⟩
  · exact ⟨.of_eq rfl rfl rfl id (.inl rfl), sends_nil r, id⟩

theorem kept_handleMessage (r : RemoteDPEDevice) (reply : RscReply) :
    Kept r (r.handleMessage reply) := by
  have hheard := r.heard reply
  generalize r.handleMessage reply = r' at hheard
  cases hheard with
  | dead => exact .of_eq rfl rfl rfl id (.inl rfl)
  | heartBeat => exact .of_eq rfl rfl rfl id (.inl rfl)
  | initJobFailed => exact .of_eq rfl rfl rfl (by simp [call]) (.inl rfl)
  | initJobDone => exact .of_eq rfl rfl rfl (by simp [call]) (.inr rfl)
  | taskFailed => exact .of_eq rfl rfl rfl (by simp [call]) (.inl rfl)
  | taskSucceeded => exact .of_eq rfl rfl rfl (by simp [call]) (.inl rfl)

/-- What a reply to `InitJob` does. -/
theorem handleMessage_initJob {r : RemoteDPEDevice} (hf : r.deviceState ≠ .failed)
    (hi : r.deviceState ≠ .idle) (errorCode : String) :
    (r.handleMessage (.initJob errorCode)).deviceState =
      if errorCode = "0" then .runningIdle else .failed := by
  rw [handleMessage, if_neg (by simp [hf, hi])]
  simp only [handleInitJob, ne_eq, ite_not]
  split <;> rfl

/-- No other reply moves to FAILED. -/
theorem handleMessage_other {r : RemoteDPEDevice} {reply : RscReply} (hf : r.deviceState ≠ .failed)
    (h : ∀ errorCode, reply ≠ .initJob errorCode) :
    (r.handleMessage reply).deviceState ≠ .failed := by
  have hheard := r.heard reply
  generalize r.handleMessage reply = r' at hheard
  cases hheard with
  | dead => exact hf
  | heartBeat => exact hf
  | initJobFailed => exact absurd rfl (h _)
  | initJobDone => exact absurd rfl (h _)
  | taskFailed => exact RemoteDeviceState.noConfusion
  | taskSucceeded => exact RemoteDeviceState.noConfusion

end RemoteDPEDevice

/-! ## The device -/

namespace DPEDeviceImpl

/-- What every step of a device keeps, but for the first copy of `InitJob`. -/
structure Kept (d d' : DPEDeviceImpl) : Prop where
  session : d'.session = d.session
  compiling : d'.compiling = true → d.compiling = true
  working : d'.working = true →
    d.working = true ∨ d.registered = true ∧ d.deviceState = .runningIdle
  registered : d'.registered = true →
    d.registered = true ∧ (d'.deviceState = .waiting ↔ d.deviceState = .waiting)

/-- None of the replies is one to `InitJob`. -/
def NoInitJob (replies : List RscReply) : Prop :=
  ∀ reply ∈ replies, ∀ errorCode, reply ≠ .initJob errorCode

theorem noInitJob_nil : NoInitJob [] := fun _ h => absurd h List.not_mem_nil

theorem Kept.refl (d : DPEDeviceImpl) : Kept d d := ⟨rfl, id, .inl, fun h => ⟨h, Iff.rfl⟩⟩

theorem kept_closeDevice (d : DPEDeviceImpl) : Kept d d.closeDevice := by
  rw [closeDevice]
  split
  · exact .refl d
  · exact ⟨rfl, id, .inl, fun h => by cases h⟩

theorem kept_checkHeartBeat (d : DPEDeviceImpl) (expired : Bool) :
    Kept d (d.checkHeartBeat expired) := by
  rw [checkHeartBeat]
  split
  · exact kept_closeDevice d
  · exact .refl d

theorem kept_onOutput (d : DPEDeviceImpl) (isStdOut : Bool) (data : List UInt8) :
    Kept d (d.onOutput isStdOut data) := by
  rw [onOutput]
  split
  · exact ⟨rfl, id, .inl, fun h => ⟨h, Iff.rfl⟩⟩
  · exact .refl d

theorem mem_sendMessage {d : DPEDeviceImpl} {reply reply' : RscReply}
    (h : reply' ∈ (d.sendMessage reply).2) : reply' = reply := by
  rw [sendMessage] at h
  simp only at h
  split at h
  · exact List.mem_singleton.1 h
  · cases h

theorem noInitJob_sendMessage {d : DPEDeviceImpl} {reply : RscReply}
    (h : ∀ errorCode, reply ≠ .initJob errorCode) : NoInitJob (d.sendMessage reply).2 :=
  fun _ hreply => mem_sendMessage hreply ▸ h

theorem kept_onStop (d : DPEDeviceImpl) (exitCode : Int) (exitReason : ExitReason)
    (hd : d.registered = true → d.deviceState ≠ .waiting) :
    Kept d (d.onStop exitCode exitReason).1 ∧ NoInitJob (d.onStop exitCode exitReason).2 := by
  rw [onStop]
  simp only
  split
  · refine ⟨⟨rfl, id, (by rintro ⟨⟩), fun h => ⟨h, by simp [hd h, sendMessage]⟩⟩,
      noInitJob_sendMessage (by simp)⟩
  · refine ⟨⟨rfl, id, (by rintro ⟨⟩), fun h => ⟨h, by simp [hd h, sendMessage]⟩⟩,
      noInitJob_sendMessage (by simp)⟩

theorem kept_handleDoTask (d : DPEDeviceImpl) (hr : d.registered = true) (started : Bool)
    (taskId : String) : Kept d (d.handleDoTaskMessage started taskId).1 ∧
      NoInitJob (d.handleDoTaskMessage started taskId).2 := by
  rw [handleDoTaskMessage]
  simp only
  split
  · exact ⟨.refl d, noInitJob_sendMessage (by simp)⟩
  next hstate =>
  split
  · exact ⟨⟨rfl, id, .inl, fun h => ⟨h, Iff.rfl⟩⟩, noInitJob_sendMessage (by simp)⟩
  · have hidle : d.deviceState = .runningIdle := not_not.1 hstate
    refine ⟨⟨rfl, id, fun _ => .inr ⟨hr, hidle⟩, fun h => ⟨h, ?_⟩⟩, noInitJob_nil⟩
    simp [hidle]

/-- A request of its own session is handled by a device whose channel is registered. -/
theorem handleMessage_eq (d : DPEDeviceImpl) (env : Env) {req : RscRequest}
    (hr : d.registered = true) (hsession : req.session = d.session) :
    d.handleMessage env req =
      match req.message with
      | .heartBeat cookie => d.handleHeartBeatMessage cookie
      | .initJob args => d.handleInitJobMessage env.initJob req.pa args
      | .doTask taskId _ => d.handleDoTaskMessage env.taskStarted taskId
      | .closeDevice => (d.closeDevice, []) := by
  refine (if_neg ?_).trans (if_neg (not_not.2 hsession))
  simp [hr]

/-- The first copy of `InitJob` makes it run, or compile. -/
theorem handleInitJob_waiting {d : DPEDeviceImpl} (hd : d.deviceState = .waiting)
    {env : InitJobEnv} (henv : env.Succeeds) {pa : String} (hpa : pa ≠ "") {args : InitJobArgs}
    (hargs : args.Complete) :
    d.handleInitJobMessage env pa args =
        { d with deviceState := .runningIdle }.sendMessage (.initJob "0") ∨
      d.handleInitJobMessage env pa args =
        ({ d with deviceState := .initializing, compiling := true }, []) := by
  obtain ⟨hjob, hworker, hdata⟩ := hargs
  obtain ⟨hmade, hcompile⟩ := henv
  have hfields : ¬ (pa.isEmpty = true ∨ args.jobName.isEmpty = true ∨
      args.workerName.isEmpty = true ∨ args.data.isEmpty = true) := by
    simp [hpa, hjob, hworker, hdata]
  rw [handleInitJobMessage]
  simp only
  rw [if_neg (not_not.2 hd), if_neg hfields, if_neg (by simp [hmade])]
  split
  · exact .inl rfl
  · next hnot =>
    rw [if_neg (by simp [hcompile.resolve_left hnot])]
    exact .inr rfl

/-- Every other copy is answered with an error. -/
theorem handleInitJob_extra {d : DPEDeviceImpl} (hd : d.deviceState ≠ .waiting) (env : InitJobEnv)
    (pa : String) (args : InitJobArgs) :
    d.handleInitJobMessage env pa args = d.sendMessage (.initJob "-1") := by
  rw [handleInitJobMessage]
  simp only
  rw [if_pos hd]

end DPEDeviceImpl

/-! ## The link -/

namespace DeviceLink

/-- The environment of a job that can be initialized. -/
def Action.Succeeds : Action → Prop
  | .initJob args => args.Complete
  | .recvRequest env => env.initJob.Succeeds
  | .compileFinished exitCode exitReason => exitCode = 0 ∧ exitReason = .exit
  | _ => True

instance : DecidablePred Action.Succeeds := fun a => by
  cases a <;> unfold Action.Succeeds <;> infer_instance

/-- A reply to `InitJob` is a success if it answers copy 0, and an error if it answers another. -/
def Answers (answer : Answer) : Prop :=
  (∃ n, answer.copy = some n ∧ answer.reply = .initJob (if n = 0 then "0" else "-1")) ∨
    answer.copy = none ∧ ∀ errorCode, answer.reply ≠ .initJob errorCode

structure Inv (l : DeviceLink) : Prop where
  pa : l.remote.pa ≠ ""
  session : l.remote.session = l.device.session
  idle : l.remote.registered = true → l.remote.deviceState ≠ .idle
  action : ∀ ra ∈ l.remote.doInitJob, ra.action.Complete
  requests : ∀ req ∈ l.requests, req.pa ≠ "" ∧ req.session = l.device.session ∧
    ∀ args, req.message = .initJob args → args.Complete
  /-- The device waits until the first copy comes. -/
  waiting : l.device.registered = true → (l.device.deviceState = .waiting ↔ l.copies = 0)
  busy : l.device.compiling = true ∨ l.device.working = true → 0 < l.copies
  compileCopy : l.compileCopy = 0
  replies : ∀ answer ∈ l.replies, Answers answer

theorem inv_start {pa : String} (hpa : pa ≠ "") (session : String) : (start pa session).Inv where
  pa := hpa
  session := rfl
  idle := by simp [start]
  action := by simp [start]
  requests := by simp [start]
  waiting := by simp [start]
  busy := by simp [start]
  compileCopy := rfl
  replies := by simp [start]

/-- Messages may be lost. -/
theorem Inv.lose {l : DeviceLink} (h : l.Inv) (requests : List RscRequest) (replies : List Answer)
    (hreq : ∀ req ∈ requests, req ∈ l.requests) (hrep : ∀ answer ∈ replies, answer ∈ l.replies) :
    Inv { l with requests := requests, replies := replies } :=
  { h with
    requests := fun req hr => h.requests req (hreq req hr)
    replies := fun answer ha => h.replies answer (hrep answer ha) }

theorem inv_remote {l : DeviceLink} (h : l.Inv) {r : RemoteDPEDevice} {out : List RscRequest}
    (hkept : l.remote.Kept r) (hsends : l.remote.Sends out) : (l.putRemote (r, out)).Inv :=
  { h with
    pa := hkept.pa ▸ h.pa
    session := hkept.session.trans h.session
    idle := fun hr hi => h.idle (hkept.registered hr) (hkept.idle hr hi)
    action := fun ra hra => by
      rcases hkept.action ra hra with hc | ⟨ra', hra', heq⟩
      · exact hc
      · exact heq ▸ h.action ra' hra'
    requests := fun req hreq => by
      rcases List.mem_append.1 hreq with hreq | hreq
      · exact h.requests req hreq
      · obtain ⟨hpa, hsession, hargs⟩ := hsends req hreq
        refine ⟨hpa ▸ h.pa, hsession.trans h.session, fun args ha => ?_⟩
        obtain ⟨ra, hra, rfl⟩ := hargs args ha
        exact h.action ra hra }

/-- The device goes on, and says nothing about `InitJob`. -/
theorem inv_device {l : DeviceLink} (h : l.Inv) {d : DPEDeviceImpl} {out : List RscReply}
    (hkept : l.device.Kept d) (hno : DPEDeviceImpl.NoInitJob out) :
    (l.putDevice none (d, out)).Inv :=
  { h with
    session := h.session.trans hkept.session.symm
    requests := fun req hreq => by
      obtain ⟨hpa, hsession, hargs⟩ := h.requests req hreq
      exact ⟨hpa, hsession.trans hkept.session.symm, hargs⟩
    waiting := fun hr => by
      obtain ⟨hr', hw⟩ := hkept.registered hr
      exact hw.trans (h.waiting hr')
    busy := fun hb => by
      rcases hb with hb | hb
      · exact h.busy (.inl (hkept.compiling hb))
      rcases hkept.working hb with hw | ⟨hr, hs⟩
      · exact h.busy (.inr hw)
      · exact Nat.pos_of_ne_zero fun h0 => by
          rw [(h.waiting hr).2 h0] at hs
          cases hs
    replies := fun answer ha => by
      rcases List.mem_append.1 ha with ha | ha
      · exact h.replies answer ha
      · obtain ⟨reply, hreply, rfl⟩ := List.mem_map.1 ha
        exact .inr ⟨rfl, hno reply hreply⟩ }

theorem inv_compileFinished {l : DeviceLink} (h : l.Inv) (hc : l.device.compiling = true) :
    (l.putDevice (some l.compileCopy) (l.device.onCompileFinished 0 .exit)).Inv := by
  have hcopies := h.busy (.inl hc)
  exact
    { h with
      waiting := fun _ => ⟨(by rintro ⟨⟩), fun h0 => absurd h0 (Nat.pos_iff_ne_zero.1 hcopies)⟩
      busy := fun _ => hcopies
      replies := fun answer ha => by
        rcases List.mem_append.1 ha with ha | ha
        · exact h.replies answer ha
        · obtain ⟨reply, hreply, rfl⟩ := List.mem_map.1 ha
          exact .inl ⟨0, by rw [h.compileCopy], DPEDeviceImpl.mem_sendMessage hreply⟩ }

/-- A copy of `InitJob` has been dealt with. -/
theorem inv_copied {l : DeviceLink} (h : l.Inv) {d : DPEDeviceImpl} {out : List RscReply} {n : Nat}
    (hsession : d.session = l.device.session) (hw : d.deviceState ≠ .waiting) (hn : n = 0)
    (hout : ∀ reply ∈ out, reply = .initJob (if l.copies = 0 then "0" else "-1")) :
    Inv { l.putDevice (some l.copies) (d, out) with copies := l.copies + 1, compileCopy := n } :=
  { h with
    session := h.session.trans hsession.symm
    requests := fun req hreq => by
      obtain ⟨hpa, hs, hargs⟩ := h.requests req hreq
      exact ⟨hpa, hs.trans hsession.symm, hargs⟩
    waiting := fun _ => ⟨fun hs => absurd hs hw, (by rintro ⟨⟩)⟩
    busy := fun _ => Nat.succ_pos _
    compileCopy := hn
    replies := fun answer ha => by
      rcases List.mem_append.1 ha with ha | ha
      · exact h.replies answer ha
      · obtain ⟨reply, hreply, rfl⟩ := List.mem_map.1 ha
        exact .inl ⟨l.copies, rfl, hout reply hreply⟩ }

/-- A copy of `InitJob` comes: the first is taken, and the others are refused. -/
theorem inv_copy {l : DeviceLink} (h : l.Inv) (hr : l.device.registered = true)
    {env : InitJobEnv} (henv : env.Succeeds) {pa : String} (hpa : pa ≠ "") {args : InitJobArgs}
    (hargs : args.Complete) {d : DPEDeviceImpl} {out : List RscReply}
    (hd : l.device.handleInitJobMessage env pa args = (d, out)) :
    Inv { l.putDevice (some l.copies) (d, out) with
      copies := l.copies + 1
      compileCopy := if d.compiling && !l.device.compiling then l.copies else l.compileCopy } := by
  by_cases hw : l.device.deviceState = .waiting
  · have hzero := (h.waiting hr).1 hw
    have hn : (if d.compiling && !l.device.compiling then l.copies else l.compileCopy) = 0 := by
      split
      · exact hzero
      · exact h.compileCopy
    rcases DPEDeviceImpl.handleInitJob_waiting hw henv hpa hargs with heq | heq
    · obtain ⟨rfl, rfl⟩ := Prod.mk.inj (hd.symm.trans heq)
      refine inv_copied h rfl (by simp) hn fun reply hreply => ?_
      rw [DPEDeviceImpl.mem_sendMessage hreply, if_pos hzero]
    · obtain ⟨rfl, rfl⟩ := Prod.mk.inj (hd.symm.trans heq)
      exact inv_copied h rfl (by simp) hn fun reply hreply => by cases hreply
  · have hsome : l.copies ≠ 0 := fun h0 => hw ((h.waiting hr).2 h0)
    obtain ⟨rfl, rfl⟩ :=
      Prod.mk.inj (hd.symm.trans (DPEDeviceImpl.handleInitJob_extra hw env pa args))
    refine inv_copied h rfl hw (by simp [h.compileCopy])
      fun reply hreply => ?_
    rw [DPEDeviceImpl.mem_sendMessage hreply, if_neg hsome]

theorem inv_recvRequest {l : DeviceLink} (h : l.Inv) (hr : l.device.registered = true)
    {env : DPEDeviceImpl.Env} (henv : env.initJob.Succeeds) {req : RscRequest}
    (hreq : req.pa ≠ "" ∧ req.session = l.device.session ∧
      ∀ args, req.message = .initJob args → args.Complete) : (l.recvRequest env req).Inv := by
  obtain ⟨hpa, hsession, hargs⟩ := hreq
  rw [recvRequest, l.device.handleMessage_eq env hr hsession]
  rcases hm : req.message with cookie | args | ⟨taskId, taskInput⟩ | _
  · rw [if_neg (by rintro ⟨-, args, heq⟩; rw [hm] at heq; cases heq)]
    exact inv_device h (.refl _) (DPEDeviceImpl.noInitJob_sendMessage (by simp))
  · rw [if_pos ⟨hsession, args, hm⟩]
    exact inv_copy h hr henv hpa (hargs args hm) rfl
  · rw [if_neg (by rintro ⟨-, args, heq⟩; rw [hm] at heq; cases heq)]
    obtain ⟨hkept, hno⟩ := l.device.kept_handleDoTask hr env.taskStarted taskId
    exact inv_device h hkept hno
  · rw [if_neg (by rintro ⟨-, args, heq⟩; rw [hm] at heq; cases heq)]
    exact inv_device h l.device.kept_closeDevice DPEDeviceImpl.noInitJob_nil

theorem inv_step {l l' : DeviceLink} {a : Action} (h : l.Inv) (ha : a.Succeeds)
    (hstep : step l a = some l') : l'.Inv := by
  rcases a with args | cookie | ⟨taskId, taskIdx, data⟩ | expired | _ | i | env |
    ⟨exitCode, exitReason⟩ | ⟨isStdOut, data⟩ | ⟨exitCode, exitReason⟩ | expired | i | _ <;>
    simp only [step] at hstep
  · obtain ⟨r, hr, rfl⟩ := Option.map_eq_some_iff.1 hstep
    simpa [putRemote] using inv_remote h (RemoteDPEDevice.kept_initJob ha hr).1
      (RemoteDPEDevice.sends_nil l.remote)
  · obtain ⟨⟨r, out⟩, hr, rfl⟩ := Option.map_eq_some_iff.1 hstep
    obtain ⟨hkept, hsends, -⟩ := RemoteDPEDevice.kept_doAction hr
    exact inv_remote h hkept hsends
  · obtain ⟨⟨r, out⟩, hr, rfl⟩ := Option.map_eq_some_iff.1 hstep
    obtain ⟨hkept, hsends, -⟩ := RemoteDPEDevice.kept_doTask hr
    exact inv_remote h hkept hsends
  · split at hstep
    · obtain rfl := Option.some_inj.1 hstep
      obtain ⟨hkept, hsends, -⟩ := l.remote.kept_checkHeartBeat expired
      exact inv_remote h hkept hsends
    · cases hstep
  · obtain rfl := Option.some_inj.1 hstep
    obtain ⟨hkept, hsends, -⟩ := l.remote.kept_stop
    exact inv_remote h hkept hsends
  · obtain rfl := Option.some_inj.1 hstep
    exact h.lose _ l.replies (fun req => List.mem_of_mem_eraseIdx) fun _ => id
  · split at hstep
    · cases hstep
    next req requests hreq =>
    split at hstep
    · next hr =>
      obtain rfl := Option.some_inj.1 hstep
      refine inv_recvRequest (h.lose requests l.replies (fun req' hreq' => ?_) fun _ => id) hr ha
        (h.requests req (hreq ▸ List.mem_cons_self))
      exact hreq ▸ List.mem_cons_of_mem req hreq'
    · cases hstep
  · split at hstep
    · next hc =>
      obtain ⟨rfl, rfl⟩ := ha
      obtain rfl := Option.some_inj.1 hstep
      exact inv_compileFinished h hc
    · cases hstep
  · split at hstep
    · obtain rfl := Option.some_inj.1 hstep
      simpa [putDevice] using inv_device h (l.device.kept_onOutput isStdOut data)
        DPEDeviceImpl.noInitJob_nil
    · cases hstep
  · split at hstep
    · next hw =>
      obtain rfl := Option.some_inj.1 hstep
      have hpos := h.busy (.inr hw)
      obtain ⟨hkept, hno⟩ := l.device.kept_onStop exitCode exitReason fun hr hs => by
        have hzero := (h.waiting hr).1 hs
        omega
      exact inv_device h hkept hno
    · cases hstep
  · obtain rfl := Option.some_inj.1 hstep
    simpa [putDevice] using inv_device h (l.device.kept_checkHeartBeat expired)
      DPEDeviceImpl.noInitJob_nil
  · obtain rfl := Option.some_inj.1 hstep
    exact h.lose l.requests _ (fun _ => id) fun answer => List.mem_of_mem_eraseIdx
  · split at hstep
    · cases hstep
    next answer replies hrep =>
    split at hstep
    · obtain rfl := Option.some_inj.1 hstep
      have hlose := h.lose l.requests replies (fun _ => id) fun answer' hans =>
        hrep ▸ List.mem_cons_of_mem answer hans
      simpa [putRemote] using inv_remote hlose (l.remote.kept_handleMessage answer.reply)
        (RemoteDPEDevice.sends_nil _)
    · cases hstep

/-! ## Delivering the replies -/

/-- The scheduler's side is given a reply to a copy of `InitJob` that was not the first. -/
def AnswersExtraCopy (l : DeviceLink) (a : Action) : Prop :=
  a = .recvReply ∧ l.remote.registered = true ∧
    ∃ answer ∈ l.replies.head?, answer.copy ≠ none ∧ answer.copy ≠ some 0

instance (l : DeviceLink) (a : Action) : Decidable (l.AnswersExtraCopy a) :=
  inferInstanceAs (Decidable (_ ∧ _ ∧ ∃ answer ∈ l.replies.head?, _))

/-- Being given a reply to `InitJob` does not move the scheduler's side to FAILED, and moves it to
RUNNING_IDLE if it is a success. -/
def Harmless (l : DeviceLink) (a : Action) : Prop :=
  ∀ l', a = .recvReply → step l a = some l' → ∀ answer ∈ l.replies.head?,
    ∀ errorCode, answer.reply = .initJob errorCode →
      (l.remote.deviceState ≠ .failed → l'.remote.deviceState ≠ .failed) ∧
        (errorCode = "0" → l'.remote.deviceState = .runningIdle)

theorem recvReply_eq {l : DeviceLink} {answer : Answer} (hrep : answer ∈ l.replies.head?)
    (hr : l.remote.registered = true) :
    step l .recvReply =
      some { l with remote := l.remote.handleMessage answer.reply, replies := l.replies.tail } := by
  obtain ⟨replies, hrep⟩ := List.head?_eq_some_iff.1 hrep
  simp [step, hrep, hr]

theorem harmless_iff {l : DeviceLink} (h : l.Inv) (hf : l.remote.deviceState ≠ .failed)
    (a : Action) : l.Harmless a ↔ ¬ l.AnswersExtraCopy a := by
  constructor
  · rintro hharm ⟨rfl, hr, answer, hans, hnone, hzero⟩
    have hreply : answer.reply = .initJob "-1" := by
      rcases h.replies answer (List.mem_of_mem_head? hans) with ⟨n, hn, hreply⟩ | ⟨hn, -⟩
      · rw [hreply, if_neg]
        rintro rfl
        exact hzero hn
      · exact absurd hn hnone
    refine (hharm _ rfl (recvReply_eq hans hr) answer hans "-1" hreply).1 hf ?_
    rw [hreply, RemoteDPEDevice.handleMessage_initJob hf (h.idle hr)]
    simp
  · rintro hno l' rfl hstep answer hans errorCode hreply
    have hr : l.remote.registered = true := by
      by_contra hr
      obtain ⟨replies, hrep⟩ := List.head?_eq_some_iff.1 hans
      simp [step, hrep, hr] at hstep
    have hzero : errorCode = "0" := by
      rcases h.replies answer (List.mem_of_mem_head? hans) with ⟨n, hn, hreply'⟩ | ⟨-, hreply'⟩
      · have hn0 : n = 0 := by
          by_contra hn0
          exact hno ⟨rfl, hr, answer, hans, by simp [hn], by simp [hn, hn0]⟩
        rw [hreply', if_pos hn0] at hreply
        exact (RscReply.initJob.inj hreply).symm
      · exact absurd hreply (hreply' errorCode)
    rw [recvReply_eq hans hr, Option.some_inj] at hstep
    have hstate : l'.remote.deviceState = .runningIdle := by
      rw [← hstep, hreply, RemoteDPEDevice.handleMessage_initJob hf (h.idle hr), if_pos hzero]
    exact ⟨fun _ => by rw [hstate]; simp, fun _ => hstate⟩

/-- Nothing but a reply to `InitJob` moves the scheduler's side to FAILED. -/
theorem not_failed_step {l l' : DeviceLink} {a : Action} (hf : l.remote.deviceState ≠ .failed)
    (ha : a.Succeeds) (hharm : l.Harmless a) (hstep : step l a = some l') :
    l'.remote.deviceState ≠ .failed := by
  have hstep' := hstep
  rcases a with args | cookie | ⟨taskId, taskIdx, data⟩ | expired | _ | i | env |
    ⟨exitCode, exitReason⟩ | ⟨isStdOut, data⟩ | ⟨exitCode, exitReason⟩ | expired | i | _ <;>
    simp only [step] at hstep
  · obtain ⟨r, hr, rfl⟩ := Option.map_eq_some_iff.1 hstep
    exact (RemoteDPEDevice.kept_initJob ha hr).2
  · obtain ⟨⟨r, out⟩, hr, rfl⟩ := Option.map_eq_some_iff.1 hstep
    obtain ⟨-, -, hstate⟩ := RemoteDPEDevice.kept_doAction hr
    exact hstate ▸ hf
  · obtain ⟨⟨r, out⟩, hr, rfl⟩ := Option.map_eq_some_iff.1 hstep
    exact (RemoteDPEDevice.kept_doTask hr).2.2
  · split at hstep
    · obtain rfl := Option.some_inj.1 hstep
      exact (l.remote.kept_checkHeartBeat expired).2.2 hf
    · cases hstep
  · obtain rfl := Option.some_inj.1 hstep
    exact l.remote.kept_stop.2.2
  · obtain rfl := Option.some_inj.1 hstep
    exact hf
  · split at hstep
    · cases hstep
    split at hstep
    · obtain rfl := Option.some_inj.1 hstep
      rw [recvRequest]
      split <;> exact hf
    · cases hstep
  · split at hstep
    · obtain rfl := Option.some_inj.1 hstep
      exact hf
    · cases hstep
  · split at hstep
    · obtain rfl := Option.some_inj.1 hstep
      exact hf
    · cases hstep
  · split at hstep
    · obtain rfl := Option.some_inj.1 hstep
      exact hf
    · cases hstep
  · obtain rfl := Option.some_inj.1 hstep
    exact hf
  · obtain rfl := Option.some_inj.1 hstep
    exact hf
  · split at hstep
    · cases hstep
    next answer replies hrep =>
    split at hstep
    · obtain rfl := Option.some_inj.1 hstep
      by_cases hinit : ∃ errorCode, answer.reply = .initJob errorCode
      · obtain ⟨errorCode, hreply⟩ := hinit
        exact (hharm _ rfl hstep' answer (by simp [hrep]) errorCode hreply).1 hf
      · exact RemoteDPEDevice.handleMessage_other hf fun errorCode hreply =>
          hinit ⟨errorCode, hreply⟩
    · cases hstep

/-- **When resending `InitJob` is harmless.**  In every run in which the job can be initialized, no
reply to `InitJob` makes the scheduler's side fail, and the success it is given makes it
RUNNING_IDLE, if and only if it is given no reply to a copy that is not the first. -/
theorem initJob_harmless_iff {pa : String} (hpa : pa ≠ "") (session : String) {as : List Action}
    (hsucc : ∀ a ∈ as, a.Succeeds) :
    step.Meets Harmless (start pa session) as ↔
      step.Meets (fun l a => ¬ l.AnswersExtraCopy a) (start pa session) as :=
  Machine.meets_congr_on (P := fun l => l.Inv ∧ l.remote.deviceState ≠ .failed)
    (L := Action.Succeeds)
    (fun _ _ _ ha h hC hstep => ⟨inv_step h.1 ha hstep, not_failed_step h.2 ha hC hstep⟩)
    (fun _ a _ h => harmless_iff h.1 h.2 a) hsucc ⟨inv_start hpa session, by simp [start]⟩

def job : InitJobArgs := { jobName := "job", workerName := "worker.cc", data := "int main" }

/-- One copy is sent, and the device compiles. -/
def oneCopy : List Action :=
  [.initJob job, .doAction 1, .recvRequest {}, .compileFinished 0 .exit, .recvReply]

theorem initJob_harmless_oneCopy : step.Meets Harmless (start "pa" "session") oneCopy :=
  (initJob_harmless_iff (by decide) "session" (by decide)).2 (by decide)

/-- The second copy is sent while the device compiles. -/
def twoCopies : List Action :=
  [.initJob job, .doAction 1, .recvRequest {}, .doAction 1, .recvRequest {}, .recvReply,
    .compileFinished 0 .exit, .recvReply]

/-- Its reply makes the scheduler's side fail, and the success comes too late. -/
theorem second_copy_fails :
    (∀ a ∈ twoCopies, a.Succeeds) ∧
      (step.run (start "pa" "session") twoCopies).map
        (fun l => (l.remote.deviceState, l.device.deviceState, l.replies)) =
        some (.failed, .runningIdle, []) := by
  decide

end DeviceLink

end Dcfpe

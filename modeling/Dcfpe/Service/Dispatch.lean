import Dcfpe.Service.JobStep

/-!
# Waiting tasks and idle devices

`OnDeviceAvailable` hands out tasks until there are no more of them or no idle device.  It is called
when the source has finished, when a device has initialized its job and when one has finished a
task.  The loss of a device is the one event that puts a task into the queue, and it is not followed
by such a call.  `served_iff` says that this is where, and the only place where, a task is left
waiting next to an idle device.
-/

set_option autoImplicit false

namespace Dcfpe

namespace DPEScheduler

/-- No task is waiting, or no device of the list is idle. -/
def AllServed (s : DPEScheduler) : Prop :=
  s.taskQueue = [] ∨ ∀ w ∈ s.deviceList, w.device.deviceState ≠ .runningIdle

instance (s : DPEScheduler) : Decidable s.AllServed := inferInstanceAs (Decidable (_ ∨ _))

/-! ## What the loop of OnDeviceAvailable leaves -/

theorem getWorker_eq_none {s : DPEScheduler} (h : s.getWorker = none) :
    ∀ w ∈ s.deviceList, w.device.deviceState ≠ .runningIdle := by
  rw [getWorker, List.findIdx?_eq_none_iff] at h
  exact fun w hw => by simpa using h w hw

/-- The loop ends only when it may. -/
theorem served_of_availableStep {s : DPEScheduler} (h : s.availableStep = none) : s.AllServed := by
  rw [availableStep] at h
  split at h
  · next hqueue => exact .inl hqueue
  · split at h
    · next hworker => exact .inr (getWorker_eq_none hworker)
    · next k hk =>
      obtain ⟨worker, hworker, hidle⟩ := getWorker_eq_some hk
      split at h
      · cases h
      · next i hget =>
        obtain ⟨task, htask, -⟩ := DPEProjectState.getTask_spec hget
        rw [hworker, htask] at h
        dsimp only at h
        split at h <;> cases h

/-- Each round takes the front off the queue. -/
theorem HandOut.length {s t : DPEScheduler} (h : s.HandOut t) :
    s.taskQueue.length = t.taskQueue.length + 1 := by
  cases h with
  | dropped hqueue => rw [hqueue]; rfl
  | handed hqueue => rw [hqueue]; rfl

theorem onDeviceAvailable_served (s : DPEScheduler) : s.onDeviceAvailable.AllServed := by
  rw [onDeviceAvailable]
  generalize hn : s.taskQueue.length = n
  induction n generalizing s with
  | zero => exact .inl (List.length_eq_zero_iff.1 hn)
  | succ n ih =>
    rw [availableLoop]
    split
    · next hnone => exact served_of_availableStep hnone
    · next t ht =>
      have := (handOut_of_availableStep ht).length
      exact ih t (by omega)

/-- An event that changes one device and makes none idle. -/
theorem AllServed.setDevice {s : DPEScheduler} (h : s.AllServed) {k : Nat} {w w' : Listed}
    (hw : s.deviceList[k]? = some w)
    (hstate : w'.device.deviceState = .runningIdle → w.device.deviceState = .runningIdle) :
    (s.setDevice k w').AllServed := by
  refine h.imp id fun hidle v hv => ?_
  rcases List.mem_or_eq_of_mem_set hv with hv | rfl
  · exact hidle v hv
  · exact fun hc => hidle w (List.mem_of_getElem? hw) (hstate hc)

theorem onTaskSucceed_served {s : DPEScheduler} {device : RemoteDPEDevice}
    (hstate : device.deviceState = .runningIdle) : (s.onTaskSucceed device).1.AllServed := by
  simp only [onTaskSucceed]
  split
  · next hdone => exact .inl hdone.1
  · exact onDeviceAvailable_served _

/-- A lost device leaves its task in the queue, and the others as they were. -/
theorem served_lost_iff {s : DPEScheduler} (h : s.AllServed) (k : Nat) (w' : Listed)
    (state : RemoteDeviceState) :
    ({ (s.setDevice k w').onDeviceLose w'.device state with
        deviceList := ((s.setDevice k w').onDeviceLose w'.device state).deviceList.eraseIdx k } :
      DPEScheduler).AllServed ↔
      (state = .running →
        ∀ v ∈ s.deviceList.eraseIdx k, v.device.deviceState ≠ .runningIdle) := by
  have herase : (s.deviceList.set k w').eraseIdx k = s.deviceList.eraseIdx k :=
    List.eraseIdx_set_eq
  by_cases hrun : state = .running
  · simp [onDeviceLose, hrun, setDevice, AllServed, herase]
  · simp only [onDeviceLose, if_neg hrun, setDevice, AllServed, herase]
    exact iff_of_true (h.imp id fun hidle v hv => hidle v (List.mem_of_mem_eraseIdx hv))
      fun hc => absurd hc hrun

end DPEScheduler

namespace JobRun

open DPEScheduler

/-- Between the end of the source and the end of the job. -/
def Served (s : JobRun) : Prop :=
  s.source.isSome = true → s.ended = none → s.scheduler.AllServed

/-- No running device is lost while another one is idle. -/
def KeepsServed (s : JobRun) : Event → Prop
  | .checkHeartBeat k true => ∀ w ∈ s.scheduler.deviceList[k]?, w.device.hasReply = false →
      w.device.deviceState = .running →
      ∀ v ∈ s.scheduler.deviceList.eraseIdx k, v.device.deviceState ≠ .runningIdle
  | _ => True

instance (s : JobRun) : DecidablePred s.KeepsServed
  | .checkHeartBeat k true =>
    inferInstanceAs (Decidable (∀ w ∈ s.scheduler.deviceList[k]?, w.device.hasReply = false →
      w.device.deviceState = .running →
      ∀ v ∈ s.scheduler.deviceList.eraseIdx k, v.device.deviceState ≠ .runningIdle))
  | .checkHeartBeat _ false | .reply _ _
  | .sourceOutput _ _ | .sourceStop _ _ _ _ | .sinkOutput _ _ | .sinkExit _ _ | .sinkStop
  | .reduce _ | .addDevice _ _ _ | .doAction _ _ => isTrue trivial

/-- While the source runs there are no tasks, so no device has one. -/
def Blank (s : JobRun) : Prop :=
  s.source = none → s.ended = none → s.scheduler.taskQueue = [] ∧
    ∀ w ∈ s.scheduler.deviceList, w.device.deviceState ≠ .running

theorem blank_device {s : JobRun} (h : s.Blank) (hended : s.ended = none) {k : Nat} {w : Listed}
    {e : Event} {r : DPEScheduler × List SchedulerDeed} (hw : s.scheduler.deviceList[k]? = some w)
    (hstep : DeviceStep s.scheduler k w e r) : (s.put r).Blank := by
  intro hsource ht
  rw [put_source] at hsource
  obtain ⟨hqueue, hidle⟩ := h hsource hended
  rw [put_scheduler]
  have hset : ∀ {w' : Listed}, w'.device.deviceState ≠ .running →
      ∀ v ∈ (s.scheduler.setDevice k w').deviceList, v.device.deviceState ≠ .running := by
    intro w' hstate v hv
    rcases List.mem_or_eq_of_mem_set hv with hv | rfl
    · exact hidle v hv
    · exact hstate
  have hwidle := hidle w (List.mem_of_getElem? hw)
  cases hstep with
  | quiet htask hstate => exact ⟨hqueue, hset (by rw [hstate]; exact hwidle)⟩
  | initJobFailed htask hstate => exact ⟨hqueue, hset (by rw [hstate]; decide)⟩
  | initJobDone htask hstate =>
    rw [onDeviceAvailable_idle (by exact hqueue)]
    exact ⟨hqueue, hset (by rw [hstate]; decide)⟩
  | taskFailed => cases ht
  | taskSucceeded htask hstate =>
    simp only [onTaskSucceed]
    split
    · exact ⟨hqueue, hset (by rw [hstate]; decide)⟩
    · rw [onDeviceAvailable_idle (by exact hqueue)]
      exact ⟨hqueue, hset (by rw [hstate]; decide)⟩
  | @lost w' htask hreply =>
    simp only [onDeviceLose, if_neg hwidle]
    refine ⟨hqueue, fun v hv => hidle v (List.mem_of_mem_eraseIdx (i := k) ?_)⟩
    rwa [setDevice, List.eraseIdx_set_eq] at hv

theorem blank_step {env : ProjectEnv} {s t : JobRun} {e : Event} (h : s.Blank)
    (hstep : step env s e = some t) : t.Blank := by
  obtain ⟨hended, hstep⟩ := stepped_of_step hstep
  cases hstep with
  | sourceOutput hsource => exact h
  | sourceStop hsource =>
    intro ht
    rw [put_source] at ht
    cases ht
  | sinkOutput => exact h
  | sinkExit hsink => exact h
  | sinkStop hsink =>
    intro hsource ht
    rw [put_source] at hsource
    rw [put_scheduler]
    exact h hsource hended
  | @reduce exit hposted =>
    rcases reduce_cases exit s with ⟨-, ht⟩ | ⟨-, taken, sink, ht⟩
    · rw [ht]; exact h
    · rw [ht]; exact h
  | addDevice hstate _ =>
    intro hsource ht
    obtain ⟨hqueue, hidle⟩ := h hsource hended
    refine ⟨hqueue, fun v hv => ?_⟩
    rcases List.mem_append.1 hv with hv | hv
    · exact hidle v hv
    · rw [List.mem_singleton.1 hv]
      exact hstate
  | device hw hdevice => exact blank_device h hended hw hdevice

/-- What an event of a device leaves, unless the device may be lost by it. -/
theorem deviceStep_allServed {s : DPEScheduler} (h : s.AllServed) {k : Nat} {w : Listed} {e : Event}
    {r : DPEScheduler × List SchedulerDeed} (hw : s.deviceList[k]? = some w)
    (hstep : DeviceStep s k w e r) (he : ∀ j, e ≠ .checkHeartBeat j true) :
    r.2 = [.onRunningError] ∨ r.1.AllServed := by
  cases hstep with
  | quiet htask hstate => exact .inr (h.setDevice hw (by rw [hstate]; exact id))
  | initJobFailed htask hstate => exact .inr (h.setDevice hw (by rw [hstate]; exact nofun))
  | initJobDone => exact .inr (onDeviceAvailable_served _)
  | taskFailed => exact .inl rfl
  | taskSucceeded htask hstate => exact .inr (onTaskSucceed_served hstate)
  | lost => exact absurd rfl (he k)

/-- What the source leaves when it has finished. -/
theorem onSourceStop_allServed (env : ProjectEnv) (fs : FileSystem) (sinkStarts : Bool)
    (s : DPEScheduler) : (s.onSourceStop env fs sinkStarts).2 = [.onRunningError] ∨
      (s.onSourceStop env fs sinkStarts).1.AllServed := by
  rcases onSourceStop_cases env fs sinkStarts s with ⟨herror, -⟩ | ⟨hqueue, heq⟩ | ⟨-, heq⟩
  · exact .inl herror
  · rw [heq]; exact .inr (.inl hqueue)
  · rw [heq]; exact .inr (onDeviceAvailable_served _)

theorem served_put {s : JobRun} {r : DPEScheduler × List SchedulerDeed}
    (h : r.2 = [.onRunningError] ∨ r.1.AllServed) : (s.put r).Served := by
  intro _ ht
  rcases h with herror | h
  · rw [put, herror] at ht
    cases ht
  · rwa [put_scheduler]

/-- A step other than the loss of a device leaves everything served. -/
theorem served_step {env : ProjectEnv} {s t : JobRun} {e : Event} (h : s.Served)
    (hstep : step env s e = some t) (he : ∀ j, e ≠ .checkHeartBeat j true) : t.Served := by
  obtain ⟨hended, hstep⟩ := stepped_of_step hstep
  cases hstep with
  | sourceOutput hsource => exact h
  | sourceStop hsource => exact served_put (onSourceStop_allServed env _ _ _)
  | sinkOutput => exact h
  | sinkExit hsink => exact h
  | sinkStop hsink =>
    intro hsource ht
    rw [put_source] at hsource
    rw [put_scheduler]
    exact h hsource hended
  | @reduce exit hposted =>
    rcases reduce_cases exit s with ⟨-, ht⟩ | ⟨-, taken, sink, ht⟩
    · rw [ht]; exact h
    · rw [ht]; exact h
  | addDevice _ hidle =>
    intro hsource ht
    refine (h hsource hended).imp id fun hnone v hv => ?_
    rcases List.mem_append.1 hv with hv | hv
    · exact hnone v hv
    · rw [List.mem_singleton.1 hv]
      exact hidle
  | @device e k w r hw hdevice =>
    by_cases hsource : s.source.isSome = true
    · exact served_put (deviceStep_allServed (h hsource hended) hw hdevice he)
    · intro ht
      rw [put_source] at ht
      exact absurd ht hsource

/-- The heart beat of a device: a loss is the one event that may leave a task waiting. -/
theorem served_checkHeartBeat_iff {env : ProjectEnv} {s t : JobRun} {k : Nat} (h : s.Served)
    (hblank : s.Blank) (hstep : step env s (.checkHeartBeat k true) = some t) :
    t.Served ↔ s.KeepsServed (.checkHeartBeat k true) := by
  obtain ⟨hended, htaken⟩ := taken_of_step hstep
  cases htaken with
  | @checkHeartBeat _ _ w hw =>
    have hkeeps : s.KeepsServed (.checkHeartBeat k true) ↔ (w.device.hasReply = false →
        w.device.deviceState = .running →
        ∀ v ∈ s.scheduler.deviceList.eraseIdx k, v.device.deviceState ≠ .runningIdle) := by
      simp only [KeepsServed, hw, Option.mem_some_iff, forall_eq']
    rw [hkeeps]
    by_cases hsource : s.source.isSome = true
    · have hserved := h hsource hended
      rw [RemoteDPEDevice.checkHeartBeat]
      by_cases hreply : w.device.hasReply = true
      · rw [if_pos (by exact hreply), putDevice_quiet rfl]
        refine iff_of_true (served_put (.inr (hserved.setDevice hw id))) fun hc => ?_
        cases hreply.symm.trans hc
      · rw [if_neg (by exact hreply), if_pos rfl, putDevice_call rfl]
        have hlost := served_lost_iff hserved k
          { w with
            device :=
              (({ w.ready with deviceState := .failed }.call
                (.onDeviceLose w.device.deviceState)).stop).1 }
          w.device.deviceState
        exact ⟨fun ht _ => hlost.1 (ht hsource hended),
          fun hk _ _ => hlost.2 (hk (by simpa using hreply))⟩
    · -- before the end of the source there is no running device
      refine iff_of_true (fun ht => ?_) fun _ hrun => ?_
      · rw [put_source] at ht
        exact absurd ht hsource
      · exact absurd hrun ((hblank (by simpa using hsource) hended).2 w (List.mem_of_getElem? hw))

theorem step_served_iff {env : ProjectEnv} {s t : JobRun} {e : Event} (h : s.Served)
    (hblank : s.Blank) (hstep : step env s e = some t) : t.Served ↔ s.KeepsServed e := by
  by_cases he : ∃ k, e = .checkHeartBeat k true
  · obtain ⟨k, rfl⟩ := he
    exact served_checkHeartBeat_iff h hblank hstep
  · refine iff_of_true (served_step h hstep fun k hk => he ⟨k, hk⟩) ?_
    rw [KeepsServed.eq_def]
    split
    · next k => exact absurd ⟨k, rfl⟩ he
    · trivial

theorem served_start (project : DPEProject) : (start project).Served ∧ (start project).Blank := by
  refine ⟨fun hsource => ?_, fun _ _ => ⟨rfl, fun w hw => ?_⟩⟩
  · cases hsource
  · cases hw

/-- **No task waits next to an idle device**, in all the states between the end of the source and
the end of the job, exactly in the runs in which no running device is lost while another device is
idle. -/
theorem served_iff {env : ProjectEnv} {project : DPEProject} {es : List Event} {s : JobRun}
    (hrun : (step env).run (start project) es = some s) :
    (∀ pre t, pre <+: es → (step env).run (start project) pre = some t → t.Served) ↔
      (step env).Meets KeepsServed (start project) es := by
  obtain ⟨hserved, hblank⟩ := served_start project
  refine Machine.always_iff_of_meets (I := Blank)
    (fun s e t _ hblank _ _ hstep => blank_step hblank hstep) ?_ (Machine.meets_isSome hrun)
    hblank hserved
  intro s e hsome hblank hserved
  obtain ⟨t, ht⟩ := Option.isSome_iff_exists.1 hsome
  exact ⟨fun hall => (step_served_iff hserved hblank ht).1 (hall t ht), fun hkeeps u hu =>
    (step_served_iff hserved hblank hu).2 hkeeps⟩

/-- Two devices, one task: the first device gets it and is lost, the second stays idle. -/
def idleEvents : List Event :=
  [.sourceOutput true (Decimal.bytes "1:x\n".toList), .sourceStop .exit 0 (fun _ => none) true,
    .addDevice "pa" "1" (some sampleArgs), .addDevice "pa" "2" (some sampleArgs),
    .reply 0 (.initJob "0"), .reply 1 (.initJob "0"),
    .checkHeartBeat 0 false, .checkHeartBeat 0 true]

theorem idleEvents_run : ((step sampleEnv).run (start {}) idleEvents).isSome = true := by
  decide

theorem task_waits_idle :
    ¬ ∀ (env : ProjectEnv) (project : DPEProject) (es : List Event) (s : JobRun),
      (step env).run (start project) es = some s → s.source.isSome = true → s.ended = none →
      s.scheduler.taskQueue = [] ∨
        ∀ w ∈ s.scheduler.deviceList, w.device.deviceState ≠ .runningIdle := by
  intro h
  have hserved := h sampleEnv {} idleEvents _ (Option.some_get idleEvents_run).symm (by decide)
    (by decide)
  exact absurd hserved (by decide)

/-- Before the loss the tasks are served. -/
theorem served_iff_idle :
    (∀ pre t, pre <+: idleEvents.dropLast → (step sampleEnv).run (start {}) pre = some t →
        t.Served) ∧
      ¬ (step sampleEnv).Meets KeepsServed (start {}) idleEvents := by
  have hrun : ((step sampleEnv).run (start {}) idleEvents.dropLast).isSome = true := by decide
  exact ⟨(served_iff (Option.some_get hrun).symm).2 (by decide), by decide⟩

end JobRun

end Dcfpe

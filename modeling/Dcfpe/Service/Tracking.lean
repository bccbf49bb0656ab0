import Dcfpe.Service.JobStep

/-!
# Running tasks and the devices that run them

A task in `running_queue_` should be the current task of a running device: when that device is lost
the task is put back into the queue, and nothing else puts it back.  The state of a device is
overwritten by each reply to `InitJob`, though, and the id of its task goes through `atoi`.  A run
in which no such reply comes to a running device, and no id that `atoi` changes is looked up, keeps
its running tasks.
-/

set_option autoImplicit false

namespace Dcfpe

/-- Each running task is that of a running device. -/
def Covered (running : Std.TreeMap Int Int) (workers : List Listed) : Prop :=
  ∀ id : Int, id ∈ running → ∃ w ∈ workers,
    w.device.deviceState = .running ∧ w.device.currTaskId = toString id

/-- Each running device has a task of the project. -/
def Found (p : DPEProjectState) (workers : List Listed) : Prop :=
  ∀ w ∈ workers, w.device.deviceState = .running →
    ∃ (id : Int) (i : Nat), w.device.currTaskId = toString id ∧
      p.getTask id w.device.currTaskIdx = some i

/-- The id of a running device's task is the one `atoi` makes of it. -/
def Listed.Fits (w : Listed) : Prop :=
  w.device.deviceState = .running → toString (atoi w.device.currTaskId) = w.device.currTaskId

instance (w : Listed) : Decidable w.Fits :=
  inferInstanceAs (Decidable (w.device.deviceState = .running → _))

section
variable {running : Std.TreeMap Int Int} {workers : List Listed} {p : DPEProjectState} {k : Nat}
  {w w' : Listed}

theorem mem_set_of_ne {j : Nat} {v : Listed} (hv : workers[j]? = some v) (hne : j ≠ k)
    (w' : Listed) : v ∈ workers.set k w' :=
  List.mem_of_getElem? ((List.getElem?_set_ne hne.symm).trans hv)

theorem mem_set_self (hw : workers[k]? = some w) (w' : Listed) : w' ∈ workers.set k w' :=
  List.mem_of_getElem? (List.getElem?_set_self (List.getElem?_eq_some_iff.1 hw).1)

/-- A device changes that was not running, or goes on. -/
theorem Covered.set (h : Covered running workers) (hw : workers[k]? = some w)
    (hstate : w.device.deviceState = .running →
      w'.device.deviceState = .running ∧ w'.device.currTaskId = w.device.currTaskId) :
    Covered running (workers.set k w') := by
  intro id hid
  obtain ⟨v, hv, hrun, htask⟩ := h id hid
  obtain ⟨j, hj⟩ := List.getElem?_of_mem hv
  by_cases hjk : j = k
  · rw [hjk, hw] at hj
    obtain rfl := Option.some.inj hj
    obtain ⟨hrun', htask'⟩ := hstate hrun
    exact ⟨w', mem_set_self hw w', hrun', htask'.trans htask⟩
  · exact ⟨v, mem_set_of_ne hj hjk w', hrun, htask⟩

/-- A device gets a task. -/
theorem Covered.give (h : Covered running workers) (hw : workers[k]? = some w)
    (hidle : w.device.deviceState = .runningIdle) (id idx : Int) (task : DPETask) :
    Covered (running.insertIfNew id idx) (workers.set k (w.given id idx task)) := by
  intro id' hid'
  by_cases heq : id' = id
  · exact ⟨_, mem_set_self hw _, rfl, by rw [heq]; rfl⟩
  · have hold : id' ∈ running := by
      rcases Std.TreeMap.mem_insertIfNew.1 hid' with hc | hc
      · exact absurd (Std.LawfulEqCmp.eq_of_compare hc).symm heq
      · exact hc
    exact h.set hw (fun hrun => by cases hidle.symm.trans hrun) id' hold

/-- The task of a device is taken away; those that are left are of other devices. -/
theorem Covered.erase (h : Covered running workers) (hw : workers[k]? = some w) (hfits : w.Fits)
    {id : Int} (hid : id ∈ running.erase (atoi w.device.currTaskId)) :
    ∃ (j : Nat) (v : Listed), workers[j]? = some v ∧ j ≠ k ∧
      v.device.deviceState = .running ∧ v.device.currTaskId = toString id := by
  obtain ⟨hne, hmem⟩ := Std.TreeMap.mem_erase.1 hid
  obtain ⟨v, hv, hrun, htask⟩ := h id hmem
  obtain ⟨j, hj⟩ := List.getElem?_of_mem hv
  refine ⟨j, v, hj, ?_, hrun, htask⟩
  rintro rfl
  obtain rfl := Option.some.inj (hw.symm.trans hj)
  refine hne ?_
  rw [Decimal.toString_inj ((hfits hrun).trans htask)]
  exact Std.ReflCmp.compare_self

theorem Found.set (h : Found p workers) (hw : workers[k]? = some w) (htask : w.SameTask w')
    (hstate : w'.device.deviceState = .running → w.device.deviceState = .running) :
    Found p (workers.set k w') := by
  intro v hv hrun
  rcases List.mem_or_eq_of_mem_set hv with hv | rfl
  · exact h v hv hrun
  · rw [htask.taskId, htask.taskIdx]
    exact h w (List.mem_of_getElem? hw) (hstate hrun)

theorem Found.eraseIdx (h : Found p workers) (k : Nat) : Found p (workers.eraseIdx k) :=
  fun w hw => h w (List.mem_of_mem_eraseIdx hw)

theorem Found.setTask (h : Found p workers) {f : DPETask → DPETask}
    (hid : ∀ task, (f task).id = task.id) (i : Nat) : Found (p.setTask i f) workers := by
  intro w hw hrun
  obtain ⟨id, j, htask, hget⟩ := h w hw hrun
  exact ⟨id, j, htask, (DPEProjectState.getTask_setTask hid p i _ _).trans hget⟩

end

/-! ## The scheduler -/

namespace DPEScheduler

/-- The running tasks and the running devices belong together. -/
def Watched (s : DPEScheduler) : Prop :=
  Covered s.runningQueue s.deviceList ∧ Found s.projectState s.deviceList

variable {s : DPEScheduler} {k : Nat} {w w' : Listed}

theorem watched_handOut {t : DPEScheduler} (h : s.Watched) (hstep : s.HandOut t) : t.Watched := by
  cases hstep with
  | dropped => exact h
  | @handed id idx queue k i worker task hqueue hget htask hworker hidle =>
    refine ⟨h.1.give hworker hidle id idx task, ?_⟩
    have hold := h.2.setTask (f := fun task => { task with state := .running }) (fun _ => rfl) i
    intro v hv hrun
    rcases List.mem_or_eq_of_mem_set hv with hv | rfl
    · exact hold v hv hrun
    · refine ⟨id, i, rfl, ?_⟩
      exact (DPEProjectState.getTask_setTask (f := fun task => { task with state := .running })
        (fun _ => rfl) s.projectState i id idx).trans hget

theorem watched_onDeviceAvailable (h : s.Watched) : s.onDeviceAvailable.Watched :=
  onDeviceAvailable_induction (fun _ _ => watched_handOut) h

theorem watched_setDevice (h : s.Watched) (hw : s.deviceList[k]? = some w) (htask : w.SameTask w')
    (hstate : w'.device.deviceState = .running ↔ w.device.deviceState = .running) :
    (s.setDevice k w').Watched :=
  ⟨h.1.set hw fun hrun => ⟨hstate.2 hrun, htask.taskId⟩, h.2.set hw htask hstate.1⟩

/-- A device has finished its task. -/
theorem watched_succeeded (h : s.Watched) (hw : s.deviceList[k]? = some w) (hfits : w.Fits)
    (htask : w.SameTask w') (hstate : w'.device.deviceState = .runningIdle) :
    ((s.setDevice k w').onTaskSucceed w'.device).1.Watched := by
  have htracked : Covered (s.runningQueue.erase (atoi w'.device.currTaskId))
      (s.deviceList.set k w') := by
    intro id hid
    rw [htask.taskId] at hid
    obtain ⟨j, v, hj, hne, hv⟩ := h.1.erase hw hfits hid
    exact ⟨v, mem_set_of_ne hj hne w', hv⟩
  have hfound : Found s.projectState (s.deviceList.set k w') :=
    h.2.set hw htask fun hrun => by cases hstate.symm.trans hrun
  simp only [onTaskSucceed, setDevice]
  cases s.projectState.getTask (atoi w'.device.currTaskId) w'.device.currTaskIdx with
  | none =>
    split
    · exact ⟨htracked, hfound⟩
    · exact watched_onDeviceAvailable ⟨htracked, hfound⟩
  | some i =>
    have hfound' := hfound.setTask (f := fun task =>
      { task with result := w'.device.currTaskOutput, state := .finish }) (fun _ => rfl) i
    split
    · exact ⟨htracked, hfound'⟩
    · exact watched_onDeviceAvailable ⟨htracked, hfound'⟩

/-- A device is lost, and its task waits again. -/
theorem watched_lost (h : s.Watched) (hw : s.deviceList[k]? = some w) (hfits : w.Fits)
    (htask : w.SameTask w') :
    let t := (s.setDevice k w').onDeviceLose w'.device w.device.deviceState
    ({ t with deviceList := t.deviceList.eraseIdx k } : DPEScheduler).Watched := by
  have herase : (s.deviceList.set k w').eraseIdx k = s.deviceList.eraseIdx k :=
    List.eraseIdx_set_eq
  simp only [onDeviceLose, setDevice]
  split
  · next hrunning =>
    have htracked : Covered (s.runningQueue.erase (atoi w'.device.currTaskId))
        ((s.deviceList.set k w').eraseIdx k) := by
      intro id hid
      rw [htask.taskId] at hid
      obtain ⟨j, v, hj, hne, hv⟩ := h.1.erase hw hfits hid
      rw [herase]
      exact ⟨v, List.mem_eraseIdx_iff_getElem?.2 ⟨j, hne, hj⟩, hv⟩
    have hfound : Found s.projectState ((s.deviceList.set k w').eraseIdx k) :=
      herase ▸ h.2.eraseIdx k
    cases s.projectState.getTask (atoi w'.device.currTaskId) w'.device.currTaskIdx with
    | none => exact ⟨htracked, hfound⟩
    | some i =>
      exact ⟨htracked, hfound.setTask (f := fun task => { task with state := .pending })
        (fun _ => rfl) i⟩
  · next hidle =>
    refine ⟨fun id hid => ?_, herase ▸ h.2.eraseIdx k⟩
    obtain ⟨v, hv, hrun, hcurr⟩ := h.1 id hid
    obtain ⟨j, hj⟩ := List.getElem?_of_mem hv
    refine ⟨v, ?_, hrun, hcurr⟩
    rw [herase]
    refine List.mem_eraseIdx_iff_getElem?.2 ⟨j, ?_, hj⟩
    rintro rfl
    obtain rfl := Option.some.inj (hw.symm.trans hj)
    exact hidle hrun

theorem onDeviceLose_requeues {device : RemoteDPEDevice} {id : Int} {i : Nat} {task : DPETask}
    (hid : atoi device.currTaskId = id)
    (hget : s.projectState.getTask id device.currTaskIdx = some i)
    (htask : s.projectState.taskData[i]? = some task) :
    let t := s.onDeviceLose device .running
    (id, device.currTaskIdx) ∈ t.taskQueue ∧
      t.projectState.getTask id device.currTaskIdx = some i ∧
      t.projectState.taskData[i]? = some { task with state := .pending } := by
  simp only [onDeviceLose, if_true, hid, hget]
  refine ⟨List.mem_append_right _ (List.mem_singleton.2 rfl), ?_, ?_⟩
  · exact (DPEProjectState.getTask_setTask (f := fun task => { task with state := .pending })
      (fun _ => rfl) _ _ _ _).trans hget
  · rw [DPEProjectState.setTask_getElem?, if_pos rfl, htask]
    rfl

end DPEScheduler

/-! ## The runs -/

namespace JobRun

open DPEScheduler

/-- No device loses its task by the event: a running device gets no reply to `InitJob`, and one that
succeeds or is lost has a task whose id `atoi` does not change. -/
def KeepsTasks (s : JobRun) : Event → Prop
  | .reply k (.initJob _) => ∀ w ∈ s.scheduler.deviceList[k]?, w.device.deviceState ≠ .running
  | .reply k (.doTask errorCode taskId (some _)) => ∀ w ∈ s.scheduler.deviceList[k]?,
      errorCode = "0" → taskId = some w.device.currTaskId → w.Fits
  | .checkHeartBeat k true => ∀ w ∈ s.scheduler.deviceList[k]?, w.device.hasReply = false → w.Fits
  | _ => True

instance (s : JobRun) : DecidablePred s.KeepsTasks
  | .reply k (.initJob _) =>
    inferInstanceAs (Decidable
      (∀ w ∈ s.scheduler.deviceList[k]?, w.device.deviceState ≠ .running))
  | .reply k (.doTask errorCode taskId (some _)) =>
    inferInstanceAs (Decidable (∀ w ∈ s.scheduler.deviceList[k]?,
      errorCode = "0" → taskId = some w.device.currTaskId → w.Fits))
  | .checkHeartBeat k true =>
    inferInstanceAs (Decidable
      (∀ w ∈ s.scheduler.deviceList[k]?, w.device.hasReply = false → w.Fits))
  | .reply _ (.doTask _ _ none) | .reply _ (.heartBeat _) | .checkHeartBeat _ false
  | .sourceOutput _ _ | .sourceStop _ _ _ _ | .sinkOutput _ _ | .sinkExit _ _ | .sinkStop
  | .reduce _ | .addDevice _ _ _ | .doAction _ _ => isTrue trivial

/-- While the source runs, no device does. -/
def Watching (s : JobRun) : Prop :=
  s.ended = none → s.scheduler.Watched ∧
    (s.source = none → s.scheduler.taskQueue = [] ∧
      ∀ w ∈ s.scheduler.deviceList, w.device.deviceState ≠ .running)

theorem watching_device {s : JobRun} {k : Nat} {w : Listed} {e : Event}
    {r : DPEScheduler × List SchedulerDeed} (h : s.Watching) (hended : s.ended = none)
    (hkeeps : s.KeepsTasks e) (hw : s.scheduler.deviceList[k]? = some w)
    (hstep : DeviceStep s.scheduler k w e r) : (s.put r).Watching := by
  obtain ⟨hwatched, hblank⟩ := h hended
  have hrest : ∀ {w' : Listed}, w'.device.deviceState ≠ .running → s.source = none →
      (s.scheduler.setDevice k w').taskQueue = [] ∧
        ∀ v ∈ (s.scheduler.setDevice k w').deviceList, v.device.deviceState ≠ .running := by
    intro w' hstate hs
    refine ⟨(hblank hs).1, fun v hv => ?_⟩
    rcases List.mem_or_eq_of_mem_set hv with hv | rfl
    · exact (hblank hs).2 v hv
    · exact hstate
  have hmem := List.mem_of_getElem? hw
  intro ht
  rw [put_scheduler, put_source]
  cases hstep with
  | quiet htask hstate =>
    refine ⟨watched_setDevice hwatched hw htask (by rw [hstate]), fun hs => hrest ?_ hs⟩
    rw [hstate]
    exact (hblank hs).2 w hmem
  | initJobFailed htask hstate =>
    have hidle : w.device.deviceState ≠ .running := hkeeps w hw
    refine ⟨watched_setDevice hwatched hw htask ⟨fun hc => ?_, fun hc => absurd hc hidle⟩,
      fun hs => hrest ?_ hs⟩
    · cases hstate.symm.trans hc
    · rw [hstate]
      decide
  | initJobDone htask hstate =>
    have hidle : w.device.deviceState ≠ .running := hkeeps w hw
    refine ⟨watched_onDeviceAvailable (watched_setDevice hwatched hw htask
      ⟨fun hc => ?_, fun hc => absurd hc hidle⟩), fun hs => ?_⟩
    · cases hstate.symm.trans hc
    · obtain ⟨hqueue, hworkers⟩ := hrest (by rw [hstate]; decide) hs
      rw [onDeviceAvailable_idle hqueue]
      exact ⟨hqueue, hworkers⟩
  | taskFailed => cases ht
  | taskSucceeded htask hstate =>
    have hfits : w.Fits := hkeeps w hw rfl rfl
    refine ⟨watched_succeeded hwatched hw hfits htask hstate, fun hs => ?_⟩
    obtain ⟨hqueue, hworkers⟩ := hrest (by rw [hstate]; decide) hs
    simp only [onTaskSucceed]
    split
    · exact ⟨hqueue, hworkers⟩
    · rw [onDeviceAvailable_idle (by exact hqueue)]
      exact ⟨hqueue, hworkers⟩
  | @lost w' htask hreply =>
    have hfits : w.Fits := hkeeps w hw hreply
    refine ⟨watched_lost hwatched hw hfits htask, fun hs => ?_⟩
    rw [onDeviceLose, if_neg ((hblank hs).2 w hmem)]
    refine ⟨(hblank hs).1, fun v hv => (hblank hs).2 v ?_⟩
    change v ∈ (s.scheduler.deviceList.set k w').eraseIdx k at hv
    rw [List.eraseIdx_set_eq] at hv
    exact List.mem_of_mem_eraseIdx hv

theorem watching_step {env : ProjectEnv} {s t : JobRun} {e : Event} (h : s.Watching)
    (hkeeps : s.KeepsTasks e) (hstep : step env s e = some t) : t.Watching := by
  obtain ⟨hended, hstep⟩ := stepped_of_step hstep
  cases hstep with
  | sourceOutput => exact h
  | @sourceStop _ _ fs starts hsource =>
    obtain ⟨-, hblank⟩ := h hended
    obtain ⟨-, hrest⟩ := hblank hsource
    have hwatched : (s.scheduler.sourceStopped env fs).Watched := by
      refine ⟨fun id hid => ?_, fun w hw hrun => absurd hrun (hrest w hw)⟩
      exact absurd hid Std.TreeMap.not_mem_emptyc
    intro ht
    refine ⟨?_, fun hs => ?_⟩
    · rw [put_scheduler]
      rcases onSourceStop_cases env fs starts s.scheduler with ⟨hdeeds, -⟩ | ⟨-, hstop⟩ | ⟨-, hstop⟩
      · rw [put, hdeeds] at ht
        cases ht
      · rw [hstop]
        exact hwatched
      · rw [hstop]
        exact watched_onDeviceAvailable hwatched
    · rw [put_source] at hs
      cases hs
  | sinkOutput => exact h
  | sinkExit => exact h
  | sinkStop =>
    rw [onSinkStop]
    split
    · exact nofun
    · exact nofun
  | @reduce exit hposted =>
    rcases reduce_cases exit s with ⟨-, ht⟩ | ⟨-, taken, sink, ht⟩
    · rw [ht]
      exact h
    · rw [ht]
      exact h
  | addDevice hstate _ =>
    intro ht
    obtain ⟨⟨htracked, hfound⟩, hblank⟩ := h ht
    refine ⟨⟨fun id hid => ?_, fun w hw hrun => ?_⟩, fun hs => ⟨(hblank hs).1, fun w hw => ?_⟩⟩
    · obtain ⟨w, hw, hrun⟩ := htracked id hid
      exact ⟨w, List.mem_append_left _ hw, hrun⟩
    · rcases List.mem_append.1 hw with hw | hw
      · exact hfound w hw hrun
      · rw [List.mem_singleton.1 hw] at hrun
        exact absurd hrun hstate
    · rcases List.mem_append.1 hw with hw | hw
      · exact (hblank hs).2 w hw
      · rw [List.mem_singleton.1 hw]
        exact hstate
  | device hw hdevice => exact watching_device h hended hkeeps hw hdevice

theorem watching_start (project : DPEProject) : (start project).Watching := by
  refine fun _ => ⟨⟨fun id hid => ?_, fun w hw => ?_⟩, fun _ => ⟨rfl, fun w hw => ?_⟩⟩
  · exact absurd hid Std.TreeMap.not_mem_emptyc
  · cases hw
  · cases hw

/-- The device fails by the event, or is lost. -/
def Fails (k : Nat) (w : Listed) : Event → Prop
  | .reply j reply => j = k ∧ (w.ready.handleMessage reply).deviceState = .failed
  | .checkHeartBeat j expired => j = k ∧ (w.ready.checkHeartBeat expired).1.deviceState ≠ .running
  | _ => False

/-- The task of a device waits in the queue, and is pending. -/
def Requeued (w : Listed) (s : DPEScheduler) : Prop :=
  ∃ (id : Int) (i : Nat) (task : DPETask), w.device.currTaskId = toString id ∧
    (id, w.device.currTaskIdx) ∈ s.taskQueue ∧
    s.projectState.getTask id w.device.currTaskIdx = some i ∧
    s.projectState.taskData[i]? = some task ∧ task.state = .pending

/-- A running device that fails or is lost leaves its task in the queue. -/
theorem requeued_of_fails {env : ProjectEnv} {s t : JobRun} {e : Event} {k : Nat} {w : Listed}
    (h : s.Watching) (hkeeps : s.KeepsTasks e) (hstep : step env s e = some t)
    (hw : s.scheduler.deviceList[k]? = some w) (hrun : w.device.deviceState = .running)
    (hfails : Fails k w e) : Requeued w t.scheduler := by
  obtain ⟨hended, -⟩ := stepped_of_step hstep
  obtain ⟨⟨-, hfound⟩, -⟩ := h hended
  cases e with
  | reply j reply =>
    obtain ⟨rfl, hfailed⟩ := hfails
    have hheard := w.ready.heard reply
    generalize w.ready.handleMessage reply = device at hfailed hheard
    cases hheard with
    | dead => cases hrun.symm.trans hfailed
    | heartBeat => cases hrun.symm.trans hfailed
    | initJobFailed => exact absurd hrun (hkeeps w hw)
    | initJobDone => exact absurd hrun (hkeeps w hw)
    | taskFailed => cases hfailed
    | taskSucceeded => cases hfailed
  | checkHeartBeat j expired =>
    obtain ⟨rfl, hlost⟩ := hfails
    rw [RemoteDPEDevice.checkHeartBeat] at hlost
    split at hlost
    · exact absurd hrun hlost
    · next hreply =>
      split at hlost
      · next hexpired =>
        subst hexpired
        have hreply' : w.device.hasReply = false := by simpa [Listed.ready] using hreply
        have hfits : w.Fits := hkeeps w hw hreply'
        obtain ⟨id, i, hid, hget⟩ := hfound w (List.mem_of_getElem? hw) hrun
        have hatoi : atoi w.device.currTaskId = id :=
          Decimal.toString_inj ((hfits hrun).trans hid)
        obtain ⟨task, htask, -⟩ := DPEProjectState.getTask_spec hget
        have ht : t = s.put (s.scheduler.putDevice j
            { w with device := (w.ready.checkHeartBeat true).1 }) := by
          cases (taken_of_step hstep).2 with
          | checkHeartBeat hw' => rw [Option.some.inj (hw.symm.trans hw')]
        rw [RemoteDPEDevice.checkHeartBeat, if_neg hreply, if_pos rfl] at ht
        rw [ht, put_scheduler, putDevice_call rfl]
        have hstate : w.ready.deviceState = .running := hrun
        simp only [managerCall, hstate]
        obtain ⟨hqueue, hget', htask'⟩ := onDeviceLose_requeues (s := s.scheduler.setDevice j _)
          hatoi hget htask
        exact ⟨id, i, _, hid, hqueue, hget', htask', rfl⟩
      · exact absurd hrun hlost
  | sourceOutput => exact hfails.elim
  | sourceStop => exact hfails.elim
  | sinkOutput => exact hfails.elim
  | sinkExit => exact hfails.elim
  | sinkStop => exact hfails.elim
  | reduce => exact hfails.elim
  | addDevice => exact hfails.elim
  | doAction => exact hfails.elim

/-- In a run in which no device loses its task by an event, each running task is always that of a
running device, and a running device that fails or is lost puts its task back into the queue. -/
theorem tracked_of_keepsTasks {env : ProjectEnv} {project : DPEProject} {es : List Event}
    {s : JobRun} (hkeeps : (step env).Meets KeepsTasks (start project) es)
    (hrun : (step env).run (start project) es = some s) (hended : s.ended = none) :
    (∀ id : Int, id ∈ s.scheduler.runningQueue → ∃ w ∈ s.scheduler.deviceList,
      w.device.deviceState = .running ∧ w.device.currTaskId = toString id) ∧
    ∀ (e : Event) (t : JobRun) (k : Nat) (w : Listed), s.KeepsTasks e → step env s e = some t →
      s.scheduler.deviceList[k]? = some w → w.device.deviceState = .running → Fails k w e →
      Requeued w t.scheduler := by
  have hwatching : s.Watching := Machine.run_invariant_of_meets
    (fun _ _ _ => watching_step) (watching_start project) hkeeps hrun
  exact ⟨(hwatching hended).1.1, fun e t k w hkeeps hstep hw hrun hfails =>
    requeued_of_fails hwatching hkeeps hstep hw hrun hfails⟩

/-- A device has got a task, and its heart beat is not answered. -/
def silentEvents : List Event :=
  [.sourceOutput true (Decimal.bytes "1:x\n".toList), .sourceStop .exit 0 (fun _ => none) true,
    .addDevice "pa" "1" (some sampleArgs), .doAction 0 1, .reply 0 (.initJob "0"),
    .checkHeartBeat 0 false]

theorem silentEvents_run : ((step sampleEnv).run (start {}) silentEvents).isSome = true := by
  decide

theorem tracked_of_keepsTasks_silent :
    ∃ s t w, (step sampleEnv).run (start {}) silentEvents = some s ∧
      step sampleEnv s (.checkHeartBeat 0 true) = some t ∧
      s.scheduler.deviceList[0]? = some w ∧ 1 ∈ s.scheduler.runningQueue ∧
      Requeued w t.scheduler := by
  have hrun := (Option.some_get silentEvents_run).symm
  have hkept := (tracked_of_keepsTasks (by decide) hrun (by decide)).2
  refine ⟨_, _, _, hrun, rfl, rfl, by decide, ?_⟩
  exact hkept (.checkHeartBeat 0 true) _ 0 _ (by decide) rfl rfl rfl ⟨rfl, by decide⟩

/-- The device is sent `InitJob` twice.  The reply to the second copy, an error, comes when it has
got a task already; the device then fails, is lost a minute later, and the task stays where it is.
-/
def lateErrorEvents : List Event :=
  [.sourceOutput true (Decimal.bytes "1:x\n".toList), .sourceStop .exit 0 (fun _ => none) true,
    .addDevice "pa" "1" (some sampleArgs), .doAction 0 1, .doAction 0 1, .reply 0 (.initJob "0"),
    .reply 0 (.initJob "-1"), .checkHeartBeat 0 false, .checkHeartBeat 0 true]

theorem lateErrorEvents_run : ((step sampleEnv).run (start {}) lateErrorEvents).isSome = true := by
  decide

theorem running_task_lost :
    ¬ ∀ (env : ProjectEnv) (project : DPEProject) (es : List Event) (s : JobRun),
      (step env).run (start project) es = some s → s.ended = none →
      ∀ id : Int, id ∈ s.scheduler.runningQueue → ∃ w ∈ s.scheduler.deviceList,
        w.device.deviceState = .running ∧ w.device.currTaskId = toString id := by
  intro h
  have hrun := (Option.some_get lateErrorEvents_run).symm
  have hnone : (((step sampleEnv).run (start {}) lateErrorEvents).get
      lateErrorEvents_run).scheduler.deviceList = [] := by decide
  obtain ⟨w, hw, -⟩ := h sampleEnv {} lateErrorEvents _ hrun (by decide) 1 (by decide)
  rw [hnone] at hw
  cases hw

end JobRun

end Dcfpe

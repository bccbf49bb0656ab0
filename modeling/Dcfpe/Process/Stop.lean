import Dcfpe.Process.Run

/-!
# Stopping a process

`Stop` is called on the UI thread.  It queues a packet for the loop of `Run` and waits up to three
seconds for the thread to end, and then it terminates it.  While it waits the UI thread runs no
task, but the thread goes on posting them, and `Run` posts `OnThreadExit` at its end whatever has
ended it.  `Stop` neither invalidates the weak pointers of these tasks nor has them look at
`process_status_`, so what is queued when it returns reaches the host afterwards, unless the
`Process` is gone by then.

`step` puts the calls of the owners of a `Process` beside the moves of its child and its thread.
`no_callback_iff` says for which runs the host hears nothing after a `Stop` that has returned true.
-/

set_option autoImplicit false

namespace Dcfpe

namespace Process

/-- The actions of the child, of Windows and of the thread; the others are the UI thread's. -/
def Action.offUi : Action → Bool
  | .stop => false
  | .onProcessTimeOut => false
  | .runTask => false
  | _ => true

end Process

/-- A `Process` and the UI thread. -/
structure HostedProcess where
  /-- There is none before `Start`, when `process_status_` is `PROCESS_STATUS_PREPARE`. -/
  process : Option Process := none
  /-- `thread_handle_` is not `NULL`. -/
  threadHandle : Bool := false
  /-- The references to the `Process`; it is destroyed with the last one. -/
  references : Nat := 1
  /-- The UI thread waits in `Stop`. -/
  stopping : Bool := false
  /-- How often the host had been called when `Stop` first returned true. -/
  returned : Option Nat := none
  deriving DecidableEq, Repr

namespace HostedProcess

/-- How often the host has been called. -/
def calls (s : HostedProcess) : Nat := (s.process.map (·.ran.length)).getD 0

def returnTrue (s : HostedProcess) : HostedProcess :=
  { s with returned := s.returned.or (some s.calls) }

/-- `Stop`, up to its wait. -/
def stop (s : HostedProcess) : HostedProcess :=
  match s.process with
  | none => s
  | some p =>
    match p.status with
    | .stopped => s.returnTrue
    | .running => { s with process := some (p.post .forceStop), stopping := true }

/-- `Stop` after its wait. -/
def stopped (p : Process) (s : HostedProcess) : HostedProcess :=
  { s with process := some { p with status := .stopped }, threadHandle := false, stopping := false
  }.returnTrue

/-- The UI thread runs the oldest task.  Without a `Process` the weak pointer is null. -/
def runTask (s : HostedProcess) : Option HostedProcess :=
  match s.process with
  | none => none
  | some p =>
    if s.references > 0 then
      p.runTask.map fun q =>
        { s with
          process := some q
          threadHandle := s.threadHandle && p.uiTasks.head? ≠ some .onThreadExit }
    else if p.uiTasks = [] then none
    else some { s with process := some { p with uiTasks := p.uiTasks.tail } }

inductive Label where
  | start (option : ProcessOption) (processId : Nat)
  /-- An owner takes a reference. -/
  | acquire
  /-- An owner drops one; the last one runs `~Process`, which calls `Stop`. -/
  | release
  | stop
  /-- The wait of `Stop` is over because the thread has ended. -/
  | threadEnded
  /-- The three seconds are over, and the thread is terminated. -/
  | timedOut
  /-- The child, Windows or the thread moves. -/
  | move (a : Process.Action)
  /-- The task of the time limit. -/
  | onProcessTimeOut
  /-- A task that `Run` has posted. -/
  | runTask
  deriving DecidableEq, Repr

def step : Machine HostedProcess Label
  | s, .start option processId =>
    if s.references > 0 ∧ s.process = none then
      some { s with process := some (Process.start option processId), threadHandle := true }
    else none
  | s, .acquire =>
    if s.references > 0 ∧ !s.stopping then some { s with references := s.references + 1 } else none
  | s, .release =>
    if s.references > 0 ∧ !s.stopping then
      let s := { s with references := s.references - 1 }
      some (if s.references = 0 then s.stop else s)
    else none
  | s, .stop => if s.references > 0 ∧ !s.stopping then some s.stop else none
  | s, .threadEnded =>
    match s.process with
    | none => none
    | some p => if s.stopping ∧ !p.looping then some (s.stopped p) else none
  | s, .timedOut =>
    match s.process with
    | none => none
    | some p =>
      if s.stopping then some (s.stopped { p with looping := false, exitCode := -1 }) else none
  | s, .move a =>
    match s.process with
    | none => none
    | some p =>
      if a.offUi then (Process.step p a).map fun q => { s with process := some q } else none
  | s, .onProcessTimeOut =>
    match s.process with
    | none => none
    | some p =>
      if s.references > 0 ∧ !s.stopping then
        (Process.step p .onProcessTimeOut).map fun q => { s with process := some q }
      else none
  | s, .runTask => if s.stopping then none else s.runTask

/-- A `Process` that its first owner has made. -/
def create : HostedProcess := {}

/-- The host has not been called after a `Stop` that returned true. -/
def NoCallback (s : HostedProcess) : Prop := ∀ n ∈ s.returned, s.calls = n

/-- Nor is it when the UI thread turns to its next task. -/
def Silent (s : HostedProcess) : Prop :=
  s.NoCallback ∧ ∀ t, step s .runTask = some t → t.NoCallback

/-- The tasks that are queued for the UI thread. -/
def queued (s : HostedProcess) : List ProcessTask := (s.process.map (·.uiTasks)).getD []

/-- When `Stop` comes back from its wait, it is that of `~Process`, or the thread has been
terminated and none of its tasks is queued. -/
def Settled (s : HostedProcess) : Label → Prop
  | .threadEnded => (step s .threadEnded).isSome → s.references = 0
  | .timedOut => (step s .timedOut).isSome → s.references = 0 ∨ s.queued = []
  | _ => True

instance (s : HostedProcess) : Decidable s.NoCallback :=
  decidable_of_iff (∀ n, s.returned = some n → s.calls = n) Iff.rfl

end HostedProcess

/-! ## What the thread posts -/

namespace Process

/-- What the child, Windows and the thread do to the tasks of the UI thread: they post one at most,
and `OnThreadExit` is the last. -/
structure Moved (p q : Process) : Prop where
  status : q.status = p.status
  ran : q.ran = p.ran
  posts : q.looping = p.looping ∧ q.uiTasks = p.uiTasks ∨
    p.looping = true ∧ q.looping = true ∧
        (∃ isStdOut buffer, q.uiTasks = p.uiTasks ++ [.onProcessOutput isStdOut buffer]) ∨
      p.looping = true ∧ q.looping = false ∧ q.uiTasks = p.uiTasks ++ [.onThreadExit]

theorem Moved.post (p : Process) (packet : CompletionPacket) : Moved p (p.post packet) :=
  ⟨rfl, rfl, .inl ⟨rfl, rfl⟩⟩

/-- A loop that has ended posts nothing. -/
theorem Moved.posts_of_ended {p q : Process} (h : Moved p q) (hloop : p.looping = false) :
    q.looping = false ∧ q.uiTasks = p.uiTasks := by
  rcases h.posts with ⟨hsame, htasks⟩ | ⟨hp, -⟩ | ⟨hp, -⟩
  · exact ⟨hsame.trans hloop, htasks⟩
  · simp [hloop] at hp
  · simp [hloop] at hp

/-- A change that touches none of the fields that `Moved` is about. -/
structure Same (p q : Process) : Prop where
  status : q.status = p.status
  ran : q.ran = p.ran
  looping : q.looping = p.looping
  uiTasks : q.uiTasks = p.uiTasks

theorem Same.moved {p q : Process} (h : Same p q) : Moved p q :=
  ⟨h.status, h.ran, .inl ⟨h.looping, h.uiTasks⟩⟩

theorem same_setPio (isStdOut : Bool) (r : PipeServer) (p : Process) :
    Same p (p.setPio isStdOut r) := by
  rcases isStdOut with _ | _ <;> exact ⟨rfl, rfl, rfl, rfl⟩

theorem same_putPio (isStdOut : Bool) (r : PipeServer × Bool) (p : Process) :
    Same p (p.putPio isStdOut r) := by
  obtain ⟨h1, h2, h3, h4⟩ := same_setPio isStdOut r.1 p
  rw [putPio]
  split
  · exact ⟨h1, h2, h3, h4⟩
  · exact ⟨h1, h2, h3, h4⟩

theorem same_read (isStdOut : Bool) (p : Process) : Same p (p.read isStdOut) := by
  rw [read]
  split
  · exact ⟨rfl, rfl, rfl, rfl⟩
  · exact same_putPio isStdOut _ p

/-- A packet of a pipe brings a task, or nothing. -/
theorem handleIo_posts {p q : Process} {isStdOut : Bool} {reason : Option ExitReason}
    (h : p.handleIo isStdOut = (q, reason)) :
    Same p q ∨ reason = none ∧
      ∃ buffer, Same { p with uiTasks := p.uiTasks ++ [.onProcessOutput isStdOut buffer] } q := by
  rw [handleIo] at h
  split at h
  · obtain ⟨rfl, rfl⟩ := Prod.mk.inj h
    exact .inl ⟨rfl, rfl, rfl, rfl⟩
  · next pio hpio =>
    rcases hwait : pio.waitForPendingIo with ⟨pio', ok⟩
    obtain ⟨h1, h2, h3, h4⟩ := same_setPio isStdOut pio' p
    simp only [hwait] at h
    split at h
    · obtain ⟨rfl, rfl⟩ := Prod.mk.inj h
      exact .inl ⟨h1, h2, h3, h4⟩
    · have hsize : Same p (if isStdOut then
          { p.setPio isStdOut pio' with
            outputSize := (p.setPio isStdOut pio').outputSize + pio'.readSize }
          else p.setPio isStdOut pio') := by
        split
        · exact ⟨h1, h2, h3, h4⟩
        · exact ⟨h1, h2, h3, h4⟩
      generalize (if isStdOut then { p.setPio isStdOut pio' with
            outputSize := (p.setPio isStdOut pio').outputSize + pio'.readSize }
          else p.setPio isStdOut pio') = p' at h hsize
      split at h
      · obtain ⟨rfl, rfl⟩ := Prod.mk.inj h
        exact .inl hsize
      · obtain ⟨rfl, rfl⟩ := Prod.mk.inj h
        obtain ⟨r1, r2, r3, r4⟩ := same_read isStdOut
          { p' with uiTasks := p'.uiTasks ++ [.onProcessOutput isStdOut pio'.chunk] }
        refine .inr ⟨rfl, pio'.chunk, r1.trans hsize.status, r2.trans hsize.ran,
          r3.trans hsize.looping, r4.trans ?_⟩
        rw [hsize.uiTasks]

theorem handlePacket_posts {p q : Process} {packet : CompletionPacket}
    {reason : Option ExitReason} (h : p.handlePacket packet = (q, reason)) :
    Same p q ∨ reason = none ∧ ∃ isStdOut buffer,
      Same { p with uiTasks := p.uiTasks ++ [.onProcessOutput isStdOut buffer] } q := by
  cases packet with
  | stdOut => exact (handleIo_posts h).imp_right fun ⟨hr, buffer, hq⟩ => ⟨hr, true, buffer, hq⟩
  | stdErr => exact (handleIo_posts h).imp_right fun ⟨hr, buffer, hq⟩ => ⟨hr, false, buffer, hq⟩
  | _ =>
    obtain ⟨rfl, -⟩ := Prod.mk.inj h
    exact .inl ⟨rfl, rfl, rfl, rfl⟩

theorem moved_iterate {p q : Process} {killed : Int} (hloop : p.looping = true)
    (h : p.iterate killed = some q) : Moved p q := by
  rw [iterate] at h
  split at h
  · cases h
  · next packet packets hpackets =>
    rcases hhandle : handlePacket { p with packets := packets } packet with ⟨r, reason⟩
    have hposts := handlePacket_posts hhandle
    rcases reason with _ | reason
    · simp only [hhandle, Option.some_inj] at h
      subst h
      rcases hposts with hr | ⟨-, isStdOut, buffer, hr⟩
      · exact ⟨hr.status, hr.ran, .inl ⟨hr.looping, hr.uiTasks⟩⟩
      · exact ⟨hr.status, hr.ran, .inr (.inl
          ⟨hloop, hr.looping.trans hloop, isStdOut, buffer, hr.uiTasks⟩)⟩
    · simp only [hhandle, Option.some_inj] at h
      subst h
      rcases hposts with hr | ⟨hreason, -⟩
      · exact ⟨hr.status, hr.ran, .inr (.inr ⟨hloop, rfl, congrArg (· ++ [_]) hr.uiTasks⟩)⟩
      · cases hreason

theorem moved_step {p q : Process} {a : Action} (ha : a.offUi = true ∨ a = .onProcessTimeOut)
    (h : step p a = some q) : Moved p q := by
  cases a with
  | write toErr bytes =>
    simp only [step, childWrite] at h
    split at h
    · split at h
      · cases h
      · next pio hpio =>
        split at h
        · cases h
        · rw [Option.some_inj] at h
          subst h
          obtain ⟨h1, h2, h3, h4⟩ := same_putPio (!toErr || p.option.treatErrAsOut)
            (pio.clientWrite bytes) p
          exact ⟨h1, h2, .inl ⟨h3, h4⟩⟩
    · cases h
  | iterate killed =>
    simp only [step] at h
    split at h
    · next hloop => exact moved_iterate hloop h
    · cases h
  | onProcessTimeOut =>
    simp only [step] at h
    split at h
    · rw [Option.some_inj] at h
      subst h
      split
      · exact .post p _
      · exact ⟨rfl, rfl, .inl ⟨rfl, rfl⟩⟩
    · cases h
  | jobMessage message id =>
    simp only [step] at h
    split at h
    · cases h
    · rw [Option.some_inj] at h
      subst h
      exact .post p _
  | stop => simp [Action.offUi] at ha
  | runTask => simp [Action.offUi] at ha
  | _ =>
    simp only [step] at h
    split at h
    · rw [Option.some_inj] at h
      subst h
      exact ⟨rfl, rfl, .inl ⟨rfl, rfl⟩⟩
    · cases h

end Process

/-! ## Runs -/

namespace HostedProcess

open Process

/-- `Run` has not posted its last task, or it is the last of the queue. -/
def Posting (p : Process) : Prop :=
  p.looping = true ∧ .onThreadExit ∉ p.uiTasks ∨
    p.looping = false ∧ ∃ outputs, p.uiTasks = outputs ++ [.onThreadExit] ∧
      .onThreadExit ∉ outputs

/-- A state of a run in which each wait of `Stop` has been settled. -/
structure Orderly (s : HostedProcess) : Prop where
  noCallback : s.NoCallback
  prepare : s.process = none → s.stopping = false ∧ s.returned = none
  running : ∀ p, s.process = some p → p.status = .running → s.returned = none ∧ Posting p
  stopped : ∀ p, s.process = some p → p.status = .stopped →
    s.stopping = false ∧ p.looping = false ∧ (s.references = 0 ∨ p.uiTasks = [])

/-- A `Process` that is gone has been stopped. -/
def Gone (s : HostedProcess) : Prop :=
  s.references = 0 → s.stopping = false → ∀ p, s.process = some p → p.status = .stopped

theorem Orderly.of_process {s : HostedProcess} {p : Process} (hp : s.process = some p)
    (noCallback : s.NoCallback) (running : p.status = .running → s.returned = none ∧ Posting p)
    (stopped : p.status = .stopped →
      s.stopping = false ∧ p.looping = false ∧ (s.references = 0 ∨ p.uiTasks = [])) :
    Orderly s := by
  refine ⟨noCallback, fun hnone => ?_, fun q hq => ?_, fun q hq => ?_⟩
  · rw [hp] at hnone
    cases hnone
  · rw [hp, Option.some_inj] at hq
    exact hq ▸ running
  · rw [hp, Option.some_inj] at hq
    exact hq ▸ stopped

theorem Gone.of_process {s : HostedProcess} {p : Process} (hp : s.process = some p)
    (h : s.references = 0 → s.stopping = false → p.status = .stopped) : Gone s := by
  intro hzero hs q hq
  rw [hp, Option.some_inj] at hq
  exact hq ▸ h hzero hs

theorem not_stopped {p : Process} (h : p.status = .running) : p.status ≠ .stopped := by simp [h]

theorem noCallback_of_none {s : HostedProcess} (h : s.returned = none) : s.NoCallback := by
  intro n hn
  rw [h] at hn
  cases hn

theorem noCallback_returnTrue {s : HostedProcess} (h : s.NoCallback) : s.returnTrue.NoCallback := by
  intro n hn
  rcases hreturned : s.returned with _ | m
  · simp only [returnTrue, hreturned, Option.none_or, Option.mem_def, Option.some_inj] at hn
    exact hn
  · simp only [returnTrue, hreturned, Option.some_or, Option.mem_def, Option.some_inj] at hn
    exact hn ▸ h m hreturned

theorem Moved.posting {p q : Process} (h : Moved p q) (hp : Posting p) : Posting q := by
  rcases hp with ⟨hloop, hno⟩ | ⟨hloop, outputs, htasks, hno⟩
  · rcases h.posts with ⟨hsame, htasks⟩ | ⟨-, hq, isStdOut, buffer, htasks⟩ | ⟨-, hq, htasks⟩
    · exact .inl ⟨hsame.trans hloop, by rwa [htasks]⟩
    · exact .inl ⟨hq, by simpa [htasks] using hno⟩
    · exact .inr ⟨hq, p.uiTasks, htasks, hno⟩
  · obtain ⟨hq, hsame⟩ := h.posts_of_ended hloop
    exact .inr ⟨hq, outputs, hsame.trans htasks, hno⟩

theorem Orderly.moved {s : HostedProcess} (h : Orderly s) {p q : Process}
    (hp : s.process = some p) (hmoved : Moved p q) : Orderly { s with process := some q } := by
  refine .of_process rfl (fun n hn => ?_) (fun hstatus => ?_) fun hstatus => ?_
  · have hcalls := h.noCallback n hn
    rw [calls, hp] at hcalls
    rw [calls]
    exact (congrArg List.length hmoved.ran).trans hcalls
  · obtain ⟨hreturned, hposting⟩ := h.running p hp (hmoved.status.symm.trans hstatus)
    exact ⟨hreturned, Moved.posting hmoved hposting⟩
  · obtain ⟨hstopping, hloop, htasks⟩ := h.stopped p hp (hmoved.status.symm.trans hstatus)
    obtain ⟨hq, hsame⟩ := hmoved.posts_of_ended hloop
    exact ⟨hstopping, hq, htasks.imp_right fun hnil => hsame.trans hnil⟩

theorem Gone.moved {s : HostedProcess} (h : Gone s) {p q : Process} (hp : s.process = some p)
    (hmoved : Moved p q) : Gone { s with process := some q } :=
  .of_process rfl fun hzero hs => hmoved.status.trans (h hzero hs p hp)

/-- `Stop` up to its wait, also with the last reference gone. -/
theorem Orderly.stop {s : HostedProcess} (h : Orderly s) :
    Orderly s.stop ∧ Gone s.stop := by
  rw [HostedProcess.stop]
  split
  · next hnone => exact ⟨h, fun _ _ p hp => by rw [hnone] at hp; cases hp⟩
  · next p hp =>
    have hp' : s.returnTrue.process = some p := hp
    split
    · next hstatus =>
      exact ⟨.of_process hp' (noCallback_returnTrue h.noCallback)
        (fun hrunning => absurd hstatus (not_stopped hrunning)) (h.stopped p hp),
        .of_process hp' fun _ _ => hstatus⟩
    · next hstatus =>
      have hmoved := h.moved hp (.post p .forceStop)
      exact ⟨.of_process rfl hmoved.noCallback (hmoved.running _ rfl)
        fun hstopped => absurd hstopped (not_stopped hstatus),
        .of_process rfl fun _ hs => absurd hs (by simp)⟩

/-- `Stop` after its wait, when nothing is queued that could reach the host. -/
theorem orderly_afterWait {s : HostedProcess} (h : s.returned = none) {p : Process}
    (hloop : p.looping = false) (htasks : s.references = 0 ∨ p.uiTasks = []) :
    Orderly (s.stopped p) ∧ Gone (s.stopped p) := by
  have hstopped : (s.stopped p).process = some { p with status := .stopped } := rfl
  refine ⟨.of_process hstopped (noCallback_returnTrue (noCallback_of_none h)) (fun hrunning => ?_)
    fun _ => ⟨rfl, hloop, htasks⟩, .of_process hstopped fun _ _ => rfl⟩
  cases hrunning

/-- While `Stop` waits, the process runs. -/
theorem Orderly.waiting {s : HostedProcess} (h : Orderly s) (hs : s.stopping = true) {p : Process}
    (hp : s.process = some p) : s.returned = none ∧ Posting p := by
  rcases hstatus : p.status with _ | _
  · exact h.running p hp hstatus
  · have hstopping := (h.stopped p hp hstatus).1
    rw [hs] at hstopping
    cases hstopping

/-- A task that is run while the `Process` is there is a call of the host. -/
theorem runTask_calls {s : HostedProcess} {p : Process} (hp : s.process = some p)
    (href : s.references ≠ 0) (htasks : p.uiTasks ≠ []) :
    ∃ t, s.runTask = some t ∧ t.calls = s.calls + 1 ∧ t.returned = s.returned := by
  obtain ⟨task, uiTasks, hcons⟩ := List.exists_cons_of_ne_nil htasks
  have hpos : s.references > 0 := by omega
  simp only [runTask, hp, if_pos hpos, Process.runTask, hcons, Option.map_some]
  exact ⟨_, rfl, by simp [calls, hp], rfl⟩

/-- And when something is queued, the next task reaches it. -/
theorem not_silent_afterWait {s : HostedProcess} (h : s.returned = none) {p : Process}
    (href : s.references ≠ 0) (htasks : p.uiTasks ≠ []) : ¬ (s.stopped p).Silent := by
  intro hsilent
  obtain ⟨t, ht, hcalls, hreturned⟩ := runTask_calls (s := s.stopped p) rfl href htasks
  have hafter : (s.stopped p).returned = some (s.stopped p).calls := by
    rw [HostedProcess.stopped, returnTrue, h]
    rfl
  have hlate := hsilent.2 t ht (s.stopped p).calls (hreturned.trans hafter)
  omega

/-- A task of a `Process` that runs: with the last one it has stopped. -/
theorem runTask_posting {p q : Process} (hstatus : p.status = .running) (hp : Posting p)
    (h : p.runTask = some q) :
    q.status = .running ∧ Posting q ∨ q.status = .stopped ∧ q.looping = false ∧ q.uiTasks = [] := by
  rw [Process.runTask] at h
  split at h
  · cases h
  · next task uiTasks htasks =>
    obtain rfl := Option.some_inj.1 h
    rcases hp with ⟨hloop, hno⟩ | ⟨hloop, outputs, heq, hno⟩
    · rw [htasks, List.mem_cons, not_or] at hno
      exact .inl ⟨by rw [if_neg (Ne.symm hno.1)]; exact hstatus, .inl ⟨hloop, hno.2⟩⟩
    · rw [htasks] at heq
      rcases outputs with _ | ⟨output, outputs⟩
      · obtain ⟨rfl, rfl⟩ := List.cons_eq_cons.1 heq
        refine .inr ⟨?_, hloop, rfl⟩
        dsimp only
        rw [if_pos rfl]
      · obtain ⟨rfl, rfl⟩ := List.cons_eq_cons.1 heq
        rw [List.mem_cons, not_or] at hno
        exact .inl ⟨by rw [if_neg (Ne.symm hno.1)]; exact hstatus,
          .inr ⟨hloop, outputs, rfl, hno.2⟩⟩

/-- What the UI thread does with the oldest task. -/
theorem Orderly.runTask {s t : HostedProcess} (h : Orderly s) (hgone : Gone s)
    (hs : s.stopping = false) (hrun : s.runTask = some t) : Orderly t ∧ Gone t := by
  rw [HostedProcess.runTask] at hrun
  split at hrun
  · cases hrun
  · next p hp =>
    rcases hstatus : p.status with _ | _
    · obtain ⟨hreturned, hposting⟩ := h.running p hp hstatus
      have hpos : s.references > 0 := by
        by_contra hzero
        exact not_stopped hstatus (hgone (by omega) hs p hp)
      rw [if_pos hpos, Option.map_eq_some_iff] at hrun
      obtain ⟨q, hq, rfl⟩ := hrun
      refine ⟨.of_process rfl (noCallback_of_none hreturned) (fun hrunning => ?_)
        fun hstopped => ?_, .of_process rfl fun hzero => absurd hzero (by simp; omega)⟩
      · rcases runTask_posting hstatus hposting hq with ⟨-, hq'⟩ | ⟨hq', -⟩
        · exact ⟨hreturned, hq'⟩
        · exact absurd hq' (not_stopped hrunning)
      · rcases runTask_posting hstatus hposting hq with ⟨hq', -⟩ | ⟨-, hloop, hnil⟩
        · exact absurd hstopped (not_stopped hq')
        · exact ⟨hs, hloop, .inr hnil⟩
    · obtain ⟨-, hloop, htasks⟩ := h.stopped p hp hstatus
      rcases htasks with hzero | hnil
      · rw [if_neg (by omega)] at hrun
        split at hrun
        · cases hrun
        · obtain rfl := Option.some_inj.1 hrun
          refine ⟨.of_process rfl (fun n hn => ?_) (fun hrunning => ?_)
            fun _ => ⟨hs, hloop, .inl hzero⟩, .of_process rfl fun _ _ => hstatus⟩
          · have hcalls := h.noCallback n hn
            rw [calls, hp] at hcalls
            exact hcalls
          · exact absurd hstatus (not_stopped hrunning)
      · rw [Process.runTask, hnil] at hrun
        simp at hrun

/-- What `Start` leaves has not posted anything. -/
theorem start_spec (option : ProcessOption) (processId : Nat) :
    (Process.start option processId).status = .running ∧
      (Process.start option processId).looping = true ∧
      (Process.start option processId).uiTasks = [] := by
  rw [Process.start]
  generalize hs : (if option.redirectStdInout then _ else _ : Process) = p
  have hp : p.status = .running ∧ p.looping = true ∧ p.uiTasks = [] := by
    rw [← hs]
    split <;> exact ⟨rfl, rfl, rfl⟩
  have h1 := same_read true p
  have h2 := same_read false (p.read true)
  exact ⟨h2.status.trans (h1.status.trans hp.1), h2.looping.trans (h1.looping.trans hp.2.1),
    h2.uiTasks.trans (h1.uiTasks.trans hp.2.2)⟩

/-- `Stop` comes back from its wait in two ways. -/
theorem step_threadEnded {s t : HostedProcess} (h : step s .threadEnded = some t) :
    ∃ p, s.process = some p ∧ s.stopping = true ∧ p.looping = false ∧ t = s.stopped p := by
  rw [step] at h
  split at h
  · cases h
  · next p hp =>
    split at h
    · next hguard =>
      exact ⟨p, hp, hguard.1, by simpa using hguard.2, (Option.some_inj.1 h).symm⟩
    · cases h

theorem step_timedOut {s t : HostedProcess} (h : step s .timedOut = some t) :
    ∃ p, s.process = some p ∧ s.stopping = true ∧
      t = s.stopped { p with looping := false, exitCode := -1 } := by
  rw [step] at h
  split at h
  · cases h
  · next p hp =>
    split at h
    · next hguard => exact ⟨p, hp, hguard, (Option.some_inj.1 h).symm⟩
    · cases h

/-- A step that meets the condition keeps things in order. -/
theorem orderly_step {s t : HostedProcess} {a : Label} (h : Orderly s ∧ Gone s) (ha : Settled s a)
    (hstep : step s a = some t) : Orderly t ∧ Gone t := by
  obtain ⟨h, hgone⟩ := h
  cases a with
  | start option processId =>
    rw [step] at hstep
    split at hstep
    · next hguard =>
      obtain rfl := Option.some_inj.1 hstep
      obtain ⟨hstatus, hloop, htasks⟩ := start_spec option processId
      obtain ⟨hstopping, hreturned⟩ := h.prepare hguard.2
      exact ⟨.of_process rfl (noCallback_of_none hreturned)
        (fun _ => ⟨hreturned, .inl ⟨hloop, by simp [htasks]⟩⟩)
        (fun hstopped => absurd hstopped (not_stopped hstatus)),
        .of_process rfl fun hzero => absurd hzero (by simp; omega)⟩
    · cases hstep
  | acquire =>
    rw [step] at hstep
    split at hstep
    · next hguard =>
      obtain rfl := Option.some_inj.1 hstep
      refine ⟨⟨h.noCallback, h.prepare, h.running, fun p hp hstatus => ?_⟩,
        fun hzero => absurd hzero (by simp)⟩
      obtain ⟨hstopping, hloop, htasks⟩ := h.stopped p hp hstatus
      exact ⟨hstopping, hloop, .inr (htasks.resolve_left (by omega))⟩
    · cases hstep
  | release =>
    rw [step] at hstep
    split at hstep
    · next hguard =>
      have hfewer : Orderly { s with references := s.references - 1 } :=
        ⟨h.noCallback, h.prepare, h.running, fun p hp hstatus => by
          obtain ⟨hstopping, hloop, htasks⟩ := h.stopped p hp hstatus
          exact ⟨hstopping, hloop, .inr (htasks.resolve_left (by omega))⟩⟩
      obtain rfl := Option.some_inj.1 hstep
      dsimp only
      split
      · exact hfewer.stop
      · next hleft => exact ⟨hfewer, fun hzero => absurd hzero hleft⟩
    · cases hstep
  | stop =>
    rw [step] at hstep
    split at hstep
    · obtain rfl := Option.some_inj.1 hstep
      exact h.stop
    · cases hstep
  | threadEnded =>
    have hzero : s.references = 0 := ha (Option.isSome_of_eq_some hstep)
    obtain ⟨p, hp, hs, hloop, rfl⟩ := step_threadEnded hstep
    exact orderly_afterWait (h.waiting hs hp).1 hloop (.inl hzero)
  | timedOut =>
    have hsettled : s.references = 0 ∨ s.queued = [] := ha (Option.isSome_of_eq_some hstep)
    obtain ⟨p, hp, hs, rfl⟩ := step_timedOut hstep
    rw [queued, hp] at hsettled
    exact orderly_afterWait (h.waiting hs hp).1 rfl hsettled
  | move a =>
    rw [step] at hstep
    split at hstep
    · cases hstep
    · next p hp =>
      split at hstep
      · next ha' =>
        rw [Option.map_eq_some_iff] at hstep
        obtain ⟨q, hq, rfl⟩ := hstep
        have hmoved := moved_step (.inl ha') hq
        exact ⟨h.moved hp hmoved, hgone.moved hp hmoved⟩
      · cases hstep
  | onProcessTimeOut =>
    rw [step] at hstep
    split at hstep
    · cases hstep
    · next p hp =>
      split at hstep
      · rw [Option.map_eq_some_iff] at hstep
        obtain ⟨q, hq, rfl⟩ := hstep
        have hmoved := moved_step (.inr rfl) hq
        exact ⟨h.moved hp hmoved, hgone.moved hp hmoved⟩
      · cases hstep
  | runTask =>
    rw [step] at hstep
    split at hstep
    · cases hstep
    · next hs => exact h.runTask hgone (by simpa using hs) hstep

theorem orderly_create : Orderly create ∧ Gone create :=
  ⟨⟨noCallback_of_none rfl, fun _ => ⟨rfl, rfl⟩, by simp [create], by simp [create]⟩,
    by simp [Gone, create]⟩

theorem Orderly.silent {s : HostedProcess} (h : Orderly s ∧ Gone s) : s.Silent :=
  ⟨h.1.noCallback, fun _ ht => (orderly_step (a := .runTask) h trivial ht).1.noCallback⟩

/-- A wait that is not settled leaves a task behind that reaches the host. -/
theorem settled_of_silent {s : HostedProcess} {a : Label} (h : Orderly s)
    (hsilent : ∀ t, step s a = some t → t.Silent) : Settled s a := by
  cases a with
  | threadEnded =>
    intro henabled
    obtain ⟨t, ht⟩ := Option.isSome_iff_exists.1 henabled
    have hlate := hsilent t ht
    obtain ⟨p, hp, hs, hloop, rfl⟩ := step_threadEnded ht
    obtain ⟨hreturned, hposting⟩ := h.waiting hs hp
    by_contra hzero
    rcases hposting with ⟨hloop', -⟩ | ⟨-, outputs, htasks, -⟩
    · simp [hloop] at hloop'
    · exact not_silent_afterWait hreturned hzero (by simp [htasks]) hlate
  | timedOut =>
    intro henabled
    obtain ⟨t, ht⟩ := Option.isSome_iff_exists.1 henabled
    have hlate := hsilent t ht
    obtain ⟨p, hp, hs, rfl⟩ := step_timedOut ht
    rw [queued, hp]
    by_contra hneither
    rw [not_or] at hneither
    exact not_silent_afterWait (p := { p with looping := false, exitCode := -1 })
      (h.waiting hs hp).1 hneither.1 hneither.2 hlate
  | _ => trivial

/-- **No callback after `Stop`.**  In all states of a run the host has not been called after a
`Stop` that returned true, and is not called by the next task either, if and only if each wait of
`Stop` in that run is settled. -/
theorem no_callback_iff (as : List Label) :
    (∀ pre t, pre <+: as → Machine.run step create pre = some t → t.Silent) ↔
      Machine.Meets step Settled create as := by
  exact Machine.always_iff (fun _ _ _ h _ ha hstep => orderly_step h ha hstep)
    (fun _ _ h _ => ⟨settled_of_silent h.1, fun ha _ ht => Orderly.silent (orderly_step h ha ht)⟩)
    orderly_create (Orderly.silent orderly_create)

/-- Where each wait of `Stop` is settled, the host has not been called after it. -/
theorem noCallback_of_settled {as : List Label} (hsettled : Machine.Meets step Settled create as)
    {s : HostedProcess} (hrun : Machine.run step create as = some s) : s.NoCallback :=
  (Orderly.silent (Machine.run_invariant_of_meets (P := fun s => Orderly s ∧ Gone s)
    (fun _ _ _ h ha hstep => orderly_step h ha hstep) orderly_create hsettled hrun)).1

/-- What `~BasicCompiler` does to a process that a `CompileJob` shares: the child is stopped, the
compiler drops its reference, and after that it is called. -/
def sharedStop : List Label :=
  [.start {} 7, .acquire, .stop, .move (.iterate 1), .threadEnded, .release, .runTask]

theorem callback_sharedStop :
    ∃ s, Machine.run step create sharedStop = some s ∧ s.references = 1 ∧ s.returned = some 0 ∧
      s.calls = 1 ∧ ¬ s.NoCallback := by
  refine ⟨_, rfl, ?_⟩
  decide

end HostedProcess

end Dcfpe

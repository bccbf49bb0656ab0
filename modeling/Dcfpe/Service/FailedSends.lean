import Dcfpe.Dpe.LoopAccounts
import Dcfpe.Service.DeviceReplacement

/-!
# Sends that fail

`ZMQClient::SendRequest` returns false when it cannot make the socket, connect or send; then there
is no request, and no callback.  Two of its callers go on as if there was one.  A loop of a worker
ends there without a word, and if it is the last one nobody calls `WillExitDpe` any more.  A creator
sets `creating_`, which only the callback clears.

`nobody_waits_iff` says when this does no harm: exactly as long as no send fails that somebody waits
for.
-/

set_option autoImplicit false

namespace Dcfpe

namespace Worker

variable {flags : Flags} {timing : Timing} {w : Worker}

/-- A worker with no loop left has called `WillExitDpe`. -/
def Finishes (w : Worker) : Prop := w.loops = 0 → 0 < w.willExit

/-- The closure that runs next sends a request, if the node is there. -/
def Sends (w : Worker) : Prop :=
  match w.uiTasks with
  | .finishExecuteTask _ :: _ => True
  | .handleResponse (.handleFinishCompute size) rep :: _ =>
    Callback.endsLoop (.handleFinishCompute size) rep = false
  | _ => False

/-- The last loop of a worker that has not called `WillExitDpe` ends with a send that fails. -/
def Stalls (w : Worker) : Action → Prop
  | .ui _ false => w.willExit = 0 ∧ w.loops = 1 ∧ w.Sends
  | _ => False

/-- The main loop ends only when it has been asked to. -/
def EndsAsked (w : Worker) : Prop := w.ended = true → w.quitting = true

theorem endsAsked_moved {t : Worker} {a : Action} {out : List Outgoing} (h : w.EndsAsked)
    (hm : Moved flags timing w a t out) : t.EndsAsked := by
  rcases hm with _ | _ | _ | _ | _ | _ | _ | _ | _ | ⟨-, hquit, -⟩
  case ends => split <;> exact h
  case ask => simpa [EndsAsked, getNextTask] using h
  case finish => simpa [EndsAsked, finishExecuteTaskImpl] using h
  case quit => exact fun _ => rfl
  case endMainLoop => exact fun _ => hquit
  all_goals exact h

/-- Before `WillExitDpe` the main loop goes on, and the node is there. -/
theorem goesOn (hquiet : w.Quiet) (hasked : w.EndsAsked) (h0 : w.willExit = 0) :
    w.ended = false ∧ ∀ queue, alive { w with uiTasks := queue } = true := by
  obtain ⟨hexit, hquit, -⟩ := hquiet h0
  have hended : w.ended = false := Bool.eq_false_iff.2 fun hend => by
    cases hquit.symm.trans (hasked hend)
  exact ⟨hended, fun queue => by simp [alive, hexit, hended]⟩

/-- A step that stalls leaves a worker with no loop. -/
theorem not_finishes_of_stalls (hquiet : w.Quiet) (hasked : w.EndsAsked) {a : Action}
    (hstalls : w.Stalls a) : ∃ t, step flags timing w a = some t ∧ ¬ t.Finishes := by
  rcases a with _ | _ | ⟨now, _ | _⟩ | _
  case ui.false =>
    obtain ⟨h0, hone, hsends⟩ := hstalls
    obtain ⟨hended, halive⟩ := goesOn hquiet hasked h0
    rcases hq : w.uiTasks with _ | ⟨⟨_ | size, rep⟩ | b | _ | _, rest⟩
    all_goals simp only [Sends, hq] at hsends
    · have hpop := loops_pop hq rfl
      refine ⟨{ w with uiTasks := rest }, ?_, fun hf => ?_⟩
      · simp [step, act, hq, hended, runUITask, runCallback_finishCompute flags hsends, getNextTask,
          sendRequest]
      · exact absurd (hf (by omega)) (Nat.not_lt.2 (Nat.le_of_eq h0))
    · have hpop := loops_pop hq rfl
      refine ⟨{ w with uiTasks := rest, runningTaskCount := w.runningTaskCount - 1 }, ?_,
        fun hf => ?_⟩
      · have hrest := halive rest
        rw [hended] at hrest
        simp [step, act, hq, hended, runUITask, hrest, finishExecuteTaskImpl, sendRequest]
      · have hzero : loops { w with uiTasks := rest } = 0 := by omega
        exact absurd (hf hzero) (Nat.not_lt.2 (Nat.le_of_eq h0))
  all_goals exact hstalls.elim

/-- A request that is sent is a loop. -/
theorem loops_sendRequest_pos (now : Int) (req : Request) (callback : Callback) (w : Worker) :
    0 < (sendRequest now true req callback w).1.loops := by
  simp only [sendRequest, if_true, loops, List.length_append, List.length_singleton]
  omega

theorem finishes_moved (hcounted : w.Counted) (hquiet : w.Quiet) (hasked : w.EndsAsked) {a : Action}
    {t : Worker} {out : List Outgoing} (hstalls : ¬ w.Stalls a)
    (hm : Moved flags timing w a t out) : t.Finishes := by
  intro h0
  rcases hm with hk | ⟨hk, hr, hu⟩ | ⟨hq, hl, ha⟩ | ⟨hq, hl⟩ | ⟨hq, hl⟩ |
    @⟨now, s, callback, rep, rest, hq, hl, he⟩ | ⟨hq, hl, he⟩ |
    @⟨now, s, size, rep, rest, hq, hl, he⟩ | @⟨now, s, b, rest, hq, hl, ha⟩ | ⟨hq, hquit, hl⟩
  · simp [loops] at h0
  · simp [loops] at h0
  · exact Nat.pos_of_ne_zero fun hexit => by
      cases ha.symm.trans ((goesOn hquiet hasked hexit).2 _)
  · exact Nat.pos_of_ne_zero fun hexit => by cases (hquiet hexit).2.2 _ (hq ▸ List.mem_cons_self)
  · exact Nat.pos_of_ne_zero fun hexit => by cases (hquiet hexit).2.2 _ (hq ▸ List.mem_cons_self)
  · split
    · exact Nat.succ_pos _
    · next hne =>
      -- a batch is left
      rw [if_neg hne] at h0
      have hcount := hcounted (alive_of_handleResponse hq hl)
      have hle := posted_le rest
      simp only [posted, hq, List.flatMap_cons, UITask.batches, List.nil_append] at hcount
      simp only [loops] at h0
      omega
  · simp [loops] at h0
  · rcases s with _ | _
    · have hpop := loops_pop hq rfl
      have hone : w.loops = 1 := by
        have hzero : loops { w with uiTasks := rest } = 0 := h0
        omega
      exact Nat.pos_of_ne_zero fun hexit => hstalls ⟨hexit, hone, by simpa [Sends, hq] using he⟩
    · exact absurd h0 (Nat.ne_of_gt (loops_sendRequest_pos _ _ _ _))
  · rcases s with _ | _
    · have hpop := loops_pop hq rfl
      have hone : w.loops = 1 := by
        have hzero : loops { w with uiTasks := rest } = 0 := h0
        omega
      exact Nat.pos_of_ne_zero fun hexit => hstalls ⟨hexit, hone, by simp [Sends, hq]⟩
    · exact absurd h0 (Nat.ne_of_gt (loops_sendRequest_pos _ _ _ _))
  · exact Nat.pos_of_ne_zero fun hexit => by cases (hquiet hexit).2.1.symm.trans hquit

theorem finishes_step_iff (hcounted : w.Counted) (hquiet : w.Quiet) (hasked : w.EndsAsked)
    (a : Action) :
    (∀ t, step flags timing w a = some t → t.Finishes) ↔ ¬ w.Stalls a := by
  refine ⟨fun hall hstalls => ?_, fun hstalls t hstep => ?_⟩
  · obtain ⟨t, ht, hnot⟩ := not_finishes_of_stalls hquiet hasked hstalls
    exact hnot (hall t ht)
  · obtain ⟨⟨t', out⟩, hact, rfl⟩ := Option.map_eq_some_iff.1 hstep
    exact finishes_moved hcounted hquiet hasked hstalls (moved_of_act flags timing hact)

theorem startLoop_exit (now : Int) (sent : Nat → Bool) (i : Nat) (w : Worker) :
    (startLoop flags now sent i w).1.willExit = w.willExit ∧
      (startLoop flags now sent i w).1.ended = w.ended := by
  induction i with
  | zero => exact ⟨rfl, rfl⟩
  | succ i ih => simpa [startLoop, getNextTask] using ih

/-- `run` calls `WillExitDpe` at once if it does not accept a flag. -/
theorem willExit_run_pos (myIp : String) (now : Int) (sent : Nat → Bool) :
    0 < (run flags myIp now sent).1.willExit ↔ flags.threadNumber = 0 ∨ flags.batchSize = 0 := by
  rw [run, start, (startLoop_exit now sent _ _).1, beforeStart]
  by_cases hthreads : flags.threadNumber = 0 <;> by_cases hbatch : flags.batchSize = 0 <;>
    simp [hthreads, hbatch, willExitDpe]

theorem endsAsked_run (myIp : String) (now : Int) (sent : Nat → Bool) :
    (run flags myIp now sent).1.EndsAsked := by
  intro hended
  rw [run, start, (startLoop_exit now sent _ _).2, (fresh_beforeStart flags myIp).ended] at hended
  cases hended

/-- `Start` leaves no loop if none of its sends succeeds. -/
theorem loops_startLoop_pos (now : Int) (sent : Nat → Bool) (i : Nat) (w : Worker) :
    0 < (startLoop flags now sent i w).1.loops ↔ 0 < w.loops ∨ ∃ j < i, sent j = true := by
  induction i with
  | zero => simp [startLoop]
  | succ i ih =>
    cases hs : sent i with
    | false =>
      have hsame : (startLoop flags now sent (i + 1) w).1 = (startLoop flags now sent i w).1 := by
        simp [startLoop, getNextTask, sendRequest, hs]
      rw [hsame, ih]
      refine or_congr Iff.rfl ⟨?_, ?_⟩
      · rintro ⟨j, hj, h⟩
        exact ⟨j, Nat.lt_succ_of_lt hj, h⟩
      · rintro ⟨j, hj, h⟩
        rcases Nat.lt_succ_iff_lt_or_eq.1 hj with hj | rfl
        · exact ⟨j, hj, h⟩
        · cases hs.symm.trans h
    | true =>
      refine iff_of_true ?_ (.inr ⟨i, Nat.lt_succ_self i, hs⟩)
      have hpos := loops_sendRequest_pos now
        { name := "get_task", getTask := some
            { maxTaskCount := if flags.batchSize > 0 then flags.batchSize else 1 } }
        .handleGetTask (startLoop flags now sent i w).1
      simpa [startLoop, getNextTask, hs] using hpos

theorem finishes_run_iff (myIp : String) (now : Int) (sent : Nat → Bool) :
    (run flags myIp now sent).1.Finishes ↔
      flags.threadNumber = 0 ∨ flags.batchSize = 0 ∨ ∃ i < flags.threadNumber, sent i = true := by
  have hfresh := fresh_beforeStart flags myIp
  have hloops := @loops_startLoop_pos flags now sent flags.threadNumber (beforeStart flags myIp)
  have hzero : (beforeStart flags myIp).loops = 0 := by
    simp [loops, hfresh.context, hfresh.pool, hfresh.uiTasks, List.countP_replicate]
  rw [hzero, or_iff_right (Nat.lt_irrefl 0), ← start, ← run] at hloops
  rw [← or_assoc, ← willExit_run_pos myIp now sent, ← hloops, Finishes, Nat.pos_iff_ne_zero,
    Nat.pos_iff_ne_zero]
  tauto

/-- **When a worker whose loops have all ended has called `WillExitDpe`.** -/
theorem finishes_iff (myIp : String) (now : Int) (sent : Nat → Bool) (as : List Action) :
    (∀ pre t, pre <+: as → (step flags timing).run (run flags myIp now sent).1 pre = some t →
        t.Finishes) ↔
      (flags.threadNumber = 0 ∨ flags.batchSize = 0 ∨
          ∃ i < flags.threadNumber, sent i = true) ∧
        (step flags timing).Meets (fun w a => ¬ w.Stalls a) (run flags myIp now sent).1 as := by
  rw [Machine.forall_prefix_iff, finishes_run_iff]
  refine and_congr_right fun _ => ?_
  refine Machine.meets_congr (P := fun w => w.Counted ∧ w.Quiet ∧ w.EndsAsked)
    (fun w a t h _ hstep => ?_) (fun w a h => finishes_step_iff h.1 h.2.1 h.2.2 a)
    ⟨counted_run flags myIp now sent, quiet_run flags myIp now sent, endsAsked_run myIp now sent⟩
  obtain ⟨⟨t', out⟩, hact, rfl⟩ := Option.map_eq_some_iff.1 hstep
  have hm := moved_of_act flags timing hact
  exact ⟨counted_moved flags timing h.1 hm, quiet_moved flags timing h.2.1 hm,
    endsAsked_moved h.2.2 hm⟩

end Worker

/-- **When a failed send leaves nobody waiting.**  A worker with no loop left has always called
`WillExitDpe` exactly if `run` has refused its flags or one of the sends of `Start` succeeds, and
the last loop never ends with a failed send; `creating_` is true only while a request is pending
exactly if no send of a request for a device fails. -/
theorem nobody_waits_iff (flags : Flags) (timing : Timing) (myIp : String) (now : Int)
    (sent : Nat → Bool) (as : List Worker.Action) (es : List DeviceFleet.Event) :
    ((∀ pre w, pre <+: as →
          (Worker.step flags timing).run (Worker.run flags myIp now sent).1 pre = some w →
          w.loops = 0 → 0 < w.willExit) ↔
        (flags.threadNumber = 0 ∨ flags.batchSize = 0 ∨
            ∃ i < flags.threadNumber, sent i = true) ∧
          (Worker.step flags timing).Meets (fun w a => ¬ w.Stalls a)
            (Worker.run flags myIp now sent).1 as) ∧
      ((∀ pre m, pre <+: es → DeviceFleet.step.run {} pre = some m →
          ∀ c ∈ m.dpeList, c.creating = true → 0 < c.pending) ↔
        DeviceFleet.step.Meets DeviceFleet.SendsRequests {} es) :=
  ⟨Worker.finishes_iff myIp now sent as, DeviceFleet.awaitsReply_iff es⟩

/-- A worker with one loop computes a batch and cannot send the results; a creator cannot send its
request, and is passed over from then on. -/
theorem failed_send_forgotten :
    (∃ w, (Worker.step {} {}).run (Worker.run {} "" 0 fun _ => true).1
        [.answer 0 (Worker.taskReply [7]), .ui 1 true, .compute 0 [70] [5] 5, .ui 2 false] =
          some w ∧
      w.loops = 0 ∧ w.uiTasks = [] ∧ w.willExit = 0) ∧
      ∃ m, DeviceFleet.step.run {} [.addService false "a", .refresh fun _ => .sendFails,
          .refresh fun _ => .sent] = some m ∧
        m.asked = ["a"] ∧ ∃ c ∈ m.dpeList, c.creating = true ∧ c.pending = 0 :=
  ⟨⟨_, rfl, rfl, rfl, rfl⟩, _, rfl, rfl, _, List.mem_cons_self, rfl, rfl⟩

end Dcfpe

import Dcfpe.Dpe.Cluster
import Dcfpe.Lib.Tokens

/-!
# Every task is computed at most once

The master queues an id as often as the `Solver` generated it, and no step of the cluster makes a
second copy: an id moves from the pending queue into a reply, from there into a callback, a batch
and a call of `Solver::Compute`, or it is lost.  `Conserved` counts it in all of these places.  A
result goes the other way; `Sourced` follows it from the `Compute` that wrote it to the record of
the master.  `computed_once` puts the two together.
-/

set_option autoImplicit false

namespace Dcfpe

open Tokens

/-- The ids an unhandled reply brings. -/
@[simp] def UITask.ids : UITask → List Int
  | .handleResponse _ rep => rep.taskIds
  | .finishExecuteTask _ => []
  | .exitDpeImpl => []
  | .quitMainLoop => []

@[simp] theorem ZMQResponse.taskIds_mk (errorCode : ZMQRep) (body : Response) :
    ZMQResponse.taskIds { errorCode := errorCode, body := body } = body.taskIds := rfl

/-- What `Solver::Compute` wrote for each id of a batch. -/
def Batch.outputs (b : Batch) : List (Int × Int × Int) := b.tasks.zip (b.result.zip b.timeUsage)

namespace Worker

variable {flags : Flags} {timing : Timing}

/-- The ids in a worker, those it has computed included. -/
def held (w : Worker) : List Int :=
  w.uiTasks.flatMap UITask.ids ++ w.pool.flatten ++ w.computes.flatMap Batch.tasks

/-- The ids a step brings in. -/
def Action.ids : Action → List Int
  | .answer _ rep => rep.taskIds
  | _ => []

theorem count_flatten_eraseIdx {l : List (List Int)} {k : Nat} {x : List Int}
    (h : l[k]? = some x) (id : Int) :
    (l.eraseIdx k).flatten.count id + x.count id = l.flatten.count id := by
  have hw := weight_eraseIdx (fun x : List Int => x.count id) h
  have hc : ∀ l : List (List Int), l.flatten.count id = weight (fun x => x.count id) l := by
    intro l
    rw [← List.flatMap_id, count_flatMap_eq_weight]
    rfl
  rw [hc, hc, hw]

/-- No step of a worker makes a copy of an id. -/
theorem count_held_moved {w t : Worker} {a : Action} {out : List Outgoing}
    (hm : Moved flags timing w a t out) (id : Int) :
    t.held.count id ≤ w.held.count id + a.ids.count id := by
  rcases hm with hk | ⟨hk, hr, hu⟩ | ⟨hq, hl, ha⟩ | ⟨hq, hl⟩ | ⟨hq, hl⟩ | ⟨hq, hl, he⟩ |
    ⟨hq, hl, he⟩ | ⟨hq, hl, he⟩ | ⟨hq, hl, ha⟩ | ⟨hq, hquit, hl⟩
  · simp [held, Action.ids]
    omega
  · have hpool := count_flatten_eraseIdx hk id
    simp [held, Action.ids]
    omega
  · simp [held, Action.ids, hq]
  · simp [held, Action.ids, hq]
  · simp [held, Action.ids, hq]
  · split <;> simp [held, Action.ids, hq, willExitDpe]
  · simp [held, Action.ids, hq]
    omega
  · simp [held, Action.ids, hq, getNextTask]
  · simp [held, Action.ids, hq, finishExecuteTaskImpl]
  · simp [held, Action.ids]

theorem held_run (flags : Flags) (myIp : String) (now : Int) (sent : Nat → Bool) :
    (run flags myIp now sent).1.held = [] := by
  have h : ∀ (i : Nat) (w : Worker), (startLoop flags now sent i w).1.held = w.held := by
    intro i w
    induction i with
    | zero => rfl
    | succ i ih =>
      rw [← ih]
      simp [startLoop, held, getNextTask]
  have hfresh := fresh_beforeStart flags myIp
  rw [run, start, h, held, hfresh.uiTasks, hfresh.pool, hfresh.computes]
  simp [List.flatMap_eq_nil_iff, UITask.ids]

/-- Every batch on its way back to the UI thread comes from a call of `Solver::Compute`. -/
def Computed (w : Worker) : Prop := ∀ b ∈ w.posted, b ∈ w.computes

/-- What `Solver::Compute` has written in a worker. -/
def outputs (w : Worker) : List (Int × Int × Int) := w.computes.flatMap Batch.outputs

theorem reported_finishItems (b : Batch) :
    (finishItems b).map (fun item => (item.taskId, item.result, item.timeUsage)) = b.outputs := by
  rw [finishItems, List.map_map]
  exact List.map_id _

/-- The results a worker sends are outputs of its `Solver::Compute`. -/
theorem computed_moved {w t : Worker} {a : Action} {out : List Outgoing} (h : w.Computed)
    (hm : Moved flags timing w a t out) :
    t.Computed ∧ w.computes ⊆ t.computes ∧ ∀ o ∈ out, o.req.reported ⊆ w.outputs := by
  have hrest : ∀ {task : UITask} {rest : List UITask} (_ : w.uiTasks = task :: rest),
      ∀ b ∈ rest.flatMap UITask.batches, b ∈ w.computes := by
    intro task rest hq b hb
    refine h b ?_
    rw [posted, hq, List.flatMap_cons]
    exact List.mem_append_right _ hb
  rcases hm with hk | ⟨hk, hr, hu⟩ | ⟨hq, hl, ha⟩ | ⟨hq, hl⟩ | ⟨hq, hl⟩ | ⟨hq, hl, he⟩ |
    ⟨hq, hl, he⟩ | @⟨now, sent, size, rep, rest, hq, hl, he⟩ | @⟨now, sent, b, rest, hq, hl, ha⟩ |
    ⟨hq, hquit, hl⟩
  · refine ⟨fun b hb => h b ?_, List.Subset.refl _, by simp⟩
    simpa [posted] using hb
  · refine ⟨fun b hb => ?_, List.subset_append_left _ _, by simp⟩
    simp only [posted, List.flatMap_append, List.flatMap_cons, List.flatMap_nil, UITask.batches,
      List.append_nil, List.mem_append] at hb
    rcases hb with hb | hb
    · exact List.mem_append_left _ (h b hb)
    · exact List.mem_append_right _ hb
  · exact ⟨hrest hq, List.Subset.refl _, by simp⟩
  · refine ⟨fun b hb => hrest hq b ?_, List.Subset.refl _, by simp⟩
    simpa [posted] using hb
  · exact ⟨hrest hq, List.Subset.refl _, by simp⟩
  · refine ⟨?_, ?_, by simp⟩
    · split
      · intro b hb
        simp only [posted, willExitDpe, List.flatMap_append, List.flatMap_cons, List.flatMap_nil,
          UITask.batches, List.append_nil] at hb
        exact hrest hq b hb
      · exact hrest hq
    · split <;> exact List.Subset.refl _
  · exact ⟨hrest hq, List.Subset.refl _, by simp⟩
  · refine ⟨fun b hb => ?_, by simp [getNextTask], fun o ho => ?_⟩
    · simp only [posted, getNextTask, sendRequest_uiTasks, sendRequest_computes] at hb ⊢
      exact hrest hq b hb
    · obtain ⟨-, rfl⟩ := mem_sendRequest_snd _ _ _ _ _ ho
      simp [Request.reported]
  · refine ⟨fun b' hb => ?_, by simp [finishExecuteTaskImpl], fun o ho => ?_⟩
    · simp only [posted, finishExecuteTaskImpl, sendRequest_uiTasks, sendRequest_computes] at hb ⊢
      exact hrest hq b' hb
    · obtain ⟨-, rfl⟩ := mem_sendRequest_snd _ _ _ _ _ ho
      have hb : b ∈ w.computes := h b (by simp [posted, hq])
      intro r hr
      refine List.mem_flatMap.2 ⟨b, hb, ?_⟩
      rw [← reported_finishItems]
      exact hr
  · exact ⟨h, List.Subset.refl _, by simp⟩

theorem computed_run (flags : Flags) (myIp : String) (now : Int) (sent : Nat → Bool) :
    (run flags myIp now sent).1.Computed ∧
      ∀ o ∈ (run flags myIp now sent).2, o.req.reported = [] := by
  have h : ∀ (i : Nat) (w : Worker), w.posted = [] →
      (startLoop flags now sent i w).1.posted = [] ∧
        ∀ o ∈ (startLoop flags now sent i w).2, o.req.reported = [] := by
    intro i w hw
    induction i with
    | zero => exact ⟨hw, by simp [startLoop]⟩
    | succ i ih =>
      refine ⟨by simpa [startLoop, getNextTask, posted] using ih.1, fun o ho => ?_⟩
      rcases List.mem_append.1 ho with ho | ho
      · exact ih.2 o ho
      · obtain ⟨-, rfl⟩ := mem_sendRequest_snd _ _ _ _ _ ho
        simp [Request.reported]
  obtain ⟨hp, hout⟩ := h flags.threadNumber _ (fresh_beforeStart flags myIp).posted
  refine ⟨fun b hb => ?_, hout⟩
  rw [run, start, hp] at hb
  cases hb

end Worker

namespace Cluster

variable (tf : TextFormat) (timing : Timing)

/-! ## No id is copied -/

/-- How often an id has been handed out and not been lost: in replies on their way, and in the
workers. -/
def handedOut (c : Cluster) (id : Int) : Nat :=
  weight (fun r => r.rep.taskIds.count id) c.toWorker +
    weight (fun site => site.node.held.count id) c.workers

/-- The ids passed to `Solver::Compute`, over all workers. -/
def computed (c : Cluster) : List Int :=
  c.workers.flatMap fun site => site.node.computes.flatMap Batch.tasks

/-- Queued, on the way, or in a worker: no id is there more often than it was generated. -/
def Conserved (tasks : List Int) (c : Cluster) : Prop :=
  ∀ id, c.master.node.taskPendingQueue.count id + c.handedOut id ≤ tasks.count id

theorem handedOut_set {c : Cluster} {i : Nat} {site : Site} {w : Worker} {a : Worker.Action}
    {out : List Outgoing} (hi : c.workers[i]? = some site)
    (hm : Worker.Moved site.flags timing site.node a w out) (id : Int) :
    weight (fun site => site.node.held.count id) (c.workers.set i { site with node := w }) ≤
      weight (fun site => site.node.held.count id) c.workers + a.ids.count id := by
  have hw := weight_set (fun site : Site => site.node.held.count id) hi { site with node := w }
  have hc := Worker.count_held_moved hm id
  simp only at hw
  omega

theorem conserved_step {tasks : List Int} {c c' : Cluster} {a : Action} (h : Conserved tasks c)
    (hstep : step tf timing c a = some c') : Conserved tasks c' := by
  intro id
  have hc := h id
  rcases stepped_of_step tf timing hstep with ⟨flags, myIp, now, sent⟩ | ⟨hk, hm, hget, hne⟩ | hk |
    hk | ⟨hk, hj⟩ | ⟨hk, hj, hi, hm⟩ | ⟨hi, hm⟩ | ⟨hi, hm⟩ | ⟨hi, hm⟩ | ⟨hi, hm⟩
  · simpa [handedOut, Worker.held_run] using hc
  · rw [hm.pending] at hc
    simp [handedOut] at hc ⊢
    omega
  · exact hc
  · have hw := weight_eraseIdx (fun r : Reply => r.rep.taskIds.count id) hk
    simp only [handedOut] at hc ⊢
    omega
  · have hw := weight_eraseIdx (fun r : Reply => r.rep.taskIds.count id) hk
    simp only [handedOut] at hc ⊢
    omega
  · have hw := weight_eraseIdx (fun r : Reply => r.rep.taskIds.count id) hk
    have hs := handedOut_set timing hi hm id
    simp only [handedOut, Worker.Action.ids, ZMQResponse.taskIds_mk] at hc hs hw ⊢
    omega
  · have hs := handedOut_set timing hi hm id
    simp only [handedOut, Worker.Action.ids, ZMQResponse.taskIds_mk, Response.taskIds,
      List.count_nil] at hc hs ⊢
    omega
  · have hs := handedOut_set timing hi hm id
    simp only [handedOut, Worker.Action.ids, List.count_nil] at hc hs ⊢
    omega
  · have hs := handedOut_set timing hi hm id
    simp only [handedOut, Worker.Action.ids, List.count_nil] at hc hs ⊢
    omega
  · have hs := handedOut_set timing hi hm id
    simp only [handedOut, Worker.Action.ids, List.count_nil] at hc hs ⊢
    omega

theorem conserved_init (tasks : List Int) (readState : Bool) (file : StateFile) :
    Conserved tasks (init tf tasks readState file) := by
  intro id
  have hp := (MasterNode.start_started tf tasks readState file).pending
  have hn : (init tf tasks readState file).master.node =
      (MasterNode.start tf true tasks readState file).2.1 := rfl
  rw [hn, hp]
  exact List.filter_sublist.count_le id

theorem count_computed_le (c : Cluster) (id : Int) :
    c.computed.count id ≤ c.handedOut id := by
  have h : ∀ l : List Site,
      (l.flatMap fun site => site.node.computes.flatMap Batch.tasks).count id ≤
        weight (fun site => site.node.held.count id) l := by
    intro l
    induction l with
    | nil => exact Nat.le_refl _
    | cons site l ih =>
      have hsite : (site.node.computes.flatMap Batch.tasks).count id ≤ site.node.held.count id := by
        rw [Worker.held, List.count_append]
        exact Nat.le_add_left _ _
      rw [List.flatMap_cons, List.count_append, weight_cons]
      exact Nat.add_le_add hsite ih
  exact Nat.le_trans (h c.workers) (Nat.le_add_left _ _)

/-! ## Every result was computed -/

/-- What `Solver::Compute` has written, over all workers: id, result and time usage. -/
def outputs (c : Cluster) : List (Int × Int × Int) :=
  c.workers.flatMap fun site => site.node.outputs

/-- The results in requests on their way and those taken over since the start (`n₀`) are outputs of
`Solver::Compute`. -/
structure Sourced (n₀ : MasterNode) (c : Cluster) : Prop where
  worker : ∀ site ∈ c.workers, site.node.Computed
  packet : ∀ p ∈ c.toMaster, p.req.reported ⊆ c.outputs
  record : ∀ id item, c.master.node.taskMap[id]? = some item → item.status = .done →
    n₀.taskMap[id]? = some item ∨ (id, item.result, item.timeUsage) ∈ c.outputs

theorem Sourced.packets {n₀ : MasterNode} {c c' : Cluster} (h : Sourced n₀ c)
    (hw : c'.workers = c.workers) (hm : c'.master = c.master)
    (hp : ∀ p ∈ c'.toMaster, p ∈ c.toMaster) : Sourced n₀ c' := by
  have ho : c'.outputs = c.outputs := by rw [outputs, hw]; rfl
  refine ⟨by rw [hw]; exact h.worker, fun p hp' => ?_, ?_⟩
  · rw [ho]
    exact h.packet p (hp p hp')
  · rw [hm, ho]
    exact h.record

/-- A step of worker `i` only adds outputs, and sends none but its own. -/
theorem Sourced.actAt {n₀ : MasterNode} {c c' : Cluster} (h : Sourced n₀ c) {i : Nat}
    {site : Site} {w : Worker} {a : Worker.Action} {out : List Outgoing}
    (hi : c.workers[i]? = some site)
    (hm : Worker.Moved site.flags timing site.node a w out)
    (hw : c'.workers = c.workers.set i { site with node := w }) (hn : c'.master = c.master)
    (hp : c'.toMaster = c.toMaster ++ post i out) : Sourced n₀ c' := by
  have hsite : site ∈ c.workers := List.mem_of_getElem? hi
  obtain ⟨hcomp, hsub, hout⟩ := Worker.computed_moved (h.worker site hsite) hm
  have hmono : c.outputs ⊆ c'.outputs := by
    intro r hr
    obtain ⟨site', hs', hr⟩ := List.mem_flatMap.1 hr
    obtain ⟨j, hj⟩ := List.mem_iff_getElem?.1 hs'
    refine List.mem_flatMap.2 ?_
    rw [hw]
    by_cases hij : i = j
    · subst hij
      rw [hi, Option.some_inj] at hj
      subst hj
      obtain ⟨hlt, -⟩ := List.getElem?_eq_some_iff.1 hi
      obtain ⟨b, hb, hr⟩ := List.mem_flatMap.1 hr
      exact ⟨{ site with node := w }, List.mem_iff_getElem?.2 ⟨i, List.getElem?_set_self hlt⟩,
        List.mem_flatMap.2 ⟨b, hsub hb, hr⟩⟩
    · refine ⟨site', List.mem_iff_getElem?.2 ⟨j, ?_⟩, hr⟩
      rw [List.getElem?_set_ne hij]
      exact hj
  refine ⟨fun site' hs' => ?_, fun p hp' => ?_, fun id item hid hd => ?_⟩
  · rw [hw] at hs'
    rcases List.mem_or_eq_of_mem_set hs' with hs' | rfl
    · exact h.worker site' hs'
    · exact hcomp
  · rw [hp, List.mem_append] at hp'
    rcases hp' with hp' | hp'
    · exact fun r hr => hmono (h.packet p hp' hr)
    · obtain ⟨o, ho, rfl⟩ := List.mem_map.1 hp'
      exact fun r hr => hmono (List.mem_flatMap.2 ⟨site, hsite, hout o ho hr⟩)
  · rw [hn] at hid
    exact (h.record id item hid hd).imp_right fun hr => hmono hr

theorem sourced_step {n₀ : MasterNode} {c c' : Cluster} {a : Action} (h : Sourced n₀ c)
    (hstep : step tf timing c a = some c') : Sourced n₀ c' := by
  rcases stepped_of_step tf timing hstep with ⟨flags, myIp, now, sent⟩ | ⟨hk, hm, hget, hne⟩ | hk |
    hk | ⟨hk, hj⟩ | ⟨hk, hj, hi, hm⟩ | ⟨hi, hm⟩ | ⟨hi, hm⟩ | ⟨hi, hm⟩ | ⟨hi, hm⟩
  · obtain ⟨hcomp, hout⟩ := Worker.computed_run flags myIp now sent
    have hmono : ∀ r ∈ c.outputs, r ∈ outputs
        { c with
          workers := c.workers ++ [⟨flags, (Worker.run flags myIp now sent).1⟩]
          toMaster := c.toMaster ++ post c.workers.length (Worker.run flags myIp now sent).2 } :=
      fun r hr => by rw [outputs, List.flatMap_append]; exact List.mem_append_left _ hr
    refine ⟨fun site hs => ?_, fun p hp => ?_, fun id item hid hd => ?_⟩
    · rcases List.mem_append.1 hs with hs | hs
      · exact h.worker site hs
      · rw [List.mem_singleton.1 hs]
        exact hcomp
    · rcases List.mem_append.1 hp with hp | hp
      · exact fun r hr => hmono r (h.packet p hp hr)
      · obtain ⟨o, ho, rfl⟩ := List.mem_map.1 hp
        rw [hout o ho]
        exact List.nil_subset _
    · exact (h.record id item hid hd).imp_right (hmono _)
  · have hp := List.mem_of_getElem? hk
    refine ⟨h.worker, fun p hp => h.packet p (List.mem_of_mem_eraseIdx hp),
      fun id item hid hd => ?_⟩
    rcases hm.record id item hid with hid | ⟨hr, -⟩ | ⟨-, hr⟩
    · exact h.record id item hid hd
    · simp [hr] at hd
    · exact .inr (h.packet _ hp hr)
  · exact h.packets rfl rfl fun p hp => List.mem_of_mem_eraseIdx hp
  · exact h.packets rfl rfl fun p hp => hp
  · exact h.packets rfl rfl fun p hp => hp
  · exact h.actAt timing hi hm rfl rfl rfl
  · exact h.actAt timing hi hm rfl rfl rfl
  · exact h.actAt timing hi hm rfl rfl rfl
  · exact h.actAt timing hi hm rfl rfl rfl
  · exact h.actAt timing hi hm rfl rfl rfl

/-- **Every task is computed at most once, and its result is what was computed.**  After any run of
the cluster no id has been passed to `Solver::Compute` more often than the `Solver` generated it,
over all workers; and the result and time of a DONE record are those that a `Compute` call wrote
for that very id, unless the record is DONE since the master started from a state file. -/
theorem computed_once (tasks : List Int) (readState : Bool) (file : StateFile)
    {as : List Action} {c : Cluster}
    (hrun : (step tf timing).run (init tf tasks readState file) as = some c) :
    (∀ id, c.computed.count id ≤ tasks.count id) ∧ (tasks.Nodup → c.computed.Nodup) ∧
      ∀ id item, c.master.node.taskMap[id]? = some item → item.status = .done →
        (init tf tasks readState file).master.node.taskMap[id]? = some item ∨
          (id, item.result, item.timeUsage) ∈ c.outputs := by
  have hc : Conserved tasks c :=
    Machine.run_invariant (fun _ _ _ h hs => conserved_step tf timing h hs)
      (conserved_init tf tasks readState file) hrun
  have hs : Sourced (init tf tasks readState file).master.node c :=
    Machine.run_invariant (fun _ _ _ h hs => sourced_step tf timing h hs)
      ⟨by simp [init], by simp [init], fun _ _ hid _ => .inl hid⟩ hrun
  have hcount : ∀ id, c.computed.count id ≤ tasks.count id := by
    intro id
    have h := hc id
    have hle := count_computed_le c id
    omega
  refine ⟨hcount, fun hnd => ?_, hs.record⟩
  rw [List.nodup_iff_count_le_one] at hnd ⊢
  exact fun id => Nat.le_trans (hcount id) (hnd id)

/-- Task 1 on its way through a cluster with one worker. -/
def oneTask : List Action :=
  [.launch {} "w" 0 fun _ => true, .serve 0 {} 0, .deliver 0, .ui 0 0 true, .compute 0 0 [10] [5] 5,
    .ui 0 0 true, .serve 0 {} 0]

theorem computed_once_oneTask :
    ∃ c, (step { print := fun _ => "", parse := fun _ => none } {}).run
        (init { print := fun _ => "", parse := fun _ => none } [1] false .absent) oneTask = some c ∧
      c.computed.Nodup ∧ c.computed = [1] ∧ c.outputs = [(1, 10, 5)] ∧
      c.master.node.taskMap[(1 : Int)]? =
        some { taskId := 1, status := .done, result := 10, timeUsage := 5 } := by
  have hsome : ((step { print := fun _ => "", parse := fun _ => none } {}).run
      (init { print := fun _ => "", parse := fun _ => none } [1] false .absent)
        oneTask).map (fun c => (c.computed, c.outputs, c.master.node.taskMap[(1 : Int)]?)) =
      some ([1], [(1, 10, 5)],
        some { taskId := 1, status := .done, result := 10, timeUsage := 5 }) := by
    decide
  obtain ⟨c, hrun, hc⟩ := Option.map_eq_some_iff.1 hsome
  simp only [Prod.mk.injEq] at hc
  obtain ⟨-, hnd, -⟩ := computed_once _ _ [1] false .absent hrun
  exact ⟨c, hrun, hnd (by decide), hc⟩

end Cluster

end Dcfpe

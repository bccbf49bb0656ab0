import Dcfpe.Dpe.MasterStart
import Mathlib.Data.List.Induction

/-!
# A whole run of the master

A run is a start, on any list of pairwise distinct tasks and any state file, followed by any
sequence of requests.  `History` is what holds after it: the containers are a ledger, and that
ledger was reached from the one `Start` set up by writing exactly the claims that were handed out
and the settlements that were delivered.  Three facts about the job are read off it:

* `task_partition` — every task is in exactly one place, and what is DONE stays as it is;
* `exactly_once_delivery` — the `Solver` is given every DONE task once, and all tasks before it is
  told that they are finished;
* `finish_once_iff` — it is told so only once, unless a worker reports something after the last
  task is DONE and before the teardown runs.
-/

set_option autoImplicit false

namespace Dcfpe

open Std

namespace Master

variable (tf : TextFormat)

/-! ## What a run has written -/

/-- What a later state `m` of a run has to do with an earlier one `m₀`. -/
structure History (m₀ m : Master) : Prop where
  inv : m.node.Inv
  acts : ∃ acts, Ledger.post.run m₀.node.ledger acts = some m.node.ledger ∧
    m.responses.flatMap Response.taskIds =
      m₀.responses.flatMap Response.taskIds ++ Ledger.claims acts ∧
    delivered m.effects = delivered m₀.effects ++ Ledger.settlements acts
  wellSized : WellSized m.effects

theorem History.refl {m : Master} (hinv : m.node.Inv) (hw : WellSized m.effects) : History m m :=
  ⟨hinv, ⟨[], rfl, by simp [Ledger.claims], by simp [Ledger.settlements]⟩, hw⟩

theorem wellSized_endJob (b : Bool) : WellSized (endJob b) := by
  intro taskId result timeUsage total h
  cases b <;> simp [endJob] at h

theorem init_effects (tasks : List Int) (readState : Bool) (file : StateFile) :
    ∃ body, (init tf tasks readState file).effects =
        body ++ endJob (readState && (init tf tasks readState file).node.idle) ∧
      .finish ∉ body ∧ WellSized body ∧
      delivered body = tasks.filterMap fun id =>
        (MasterNode.savedItem tf readState file id).map fun item =>
          (id, item.result, item.timeUsage) := by
  refine ⟨_, MasterNode.start_effects tf tasks readState file, ?_⟩
  cases h : MasterNode.restored tf readState file with
  | none =>
    have hsaved : ∀ id, MasterNode.savedItem tf readState file id = none := by
      intro id; rw [MasterNode.savedItem, h]; rfl
    exact ⟨by simp, fun _ _ _ _ hmem => by simp at hmem, by simp [delivered, hsaved]⟩
  | some st =>
    have hlen : ∀ tasks : List Int,
        (tasks.filterMap (MasterNode.savedItem tf readState file)).length =
          (tasks.filter fun id => (MasterNode.savedItem tf readState file id).isSome).length := by
      intro tasks
      induction tasks with
      | nil => rfl
      | cons t tasks ih => cases ht : MasterNode.savedItem tf readState file t <;> simp [ht, ih]
    refine ⟨by simp, fun _ _ _ _ hmem => ?_, ?_⟩
    · simp only [List.mem_singleton] at hmem
      cases hmem
      simp [hlen]
    · simp only [delivered, List.flatMap_cons, List.flatMap_nil, List.append_nil]
      induction tasks with
      | nil => rfl
      | cons t tasks ih => cases ht : MasterNode.savedItem tf readState file t <;> simp [ht, ih]

theorem history_init {tasks : List Int} (hnd : tasks.Nodup) (readState : Bool)
    (file : StateFile) :
    History (init tf tasks readState file) (init tf tasks readState file) := by
  obtain ⟨body, he, -, hw, -⟩ := init_effects tf tasks readState file
  refine History.refl (MasterNode.start_inv tf hnd readState file) ?_
  rw [he]
  exact wellSized_append hw (wellSized_endJob _)

/-- One dispatched request, as `MasterNode.handleRequest_spec` describes it. -/
theorem handled {m : Master} (h : m.node.Inv) (d : Dispatch) :
    ∃ rep effects,
      MasterNode.Handled m.node d.req (m.handleRequest tf d.clk d.responseTime d.req).node rep
        effects ∧
      (m.handleRequest tf d.clk d.responseTime d.req).effects = m.effects ++ effects ∧
      (m.handleRequest tf d.clk d.responseTime d.req).responses = m.responses ++ [rep] :=
  ⟨_, _, MasterNode.handleRequest_spec tf h d.clk d.req rfl, rfl, rfl⟩

theorem history_step {m₀ m : Master} (h : History m₀ m) (d : Dispatch) :
    History m₀ (m.handleRequest tf d.clk d.responseTime d.req) := by
  obtain ⟨rep, effects, hd, he, hr⟩ := handled tf h.inv d
  obtain ⟨acts, hrun, hclaims, hdel⟩ := h.acts
  obtain ⟨new, hnew, hnewc, hnews⟩ := hd.acts
  refine ⟨hd.inv, ⟨acts ++ new, Machine.run_append.2 ⟨_, hrun, hnew⟩, ?_, ?_⟩, ?_⟩
  · rw [Ledger.claims_append, hnewc, hr, List.flatMap_append, hclaims, List.append_assoc]
    simp
  · rw [Ledger.settlements_append, hnews, he, delivered_append, hdel, List.append_assoc]
  · rw [he]
    exact wellSized_append h.wellSized hd.wellSized

theorem history_serve {m₀ m : Master} (h : History m₀ m) (ds : List Dispatch) :
    History m₀ (m.serve tf ds) := by
  induction ds generalizing m with
  | nil => exact h
  | cons d ds ih => exact ih (history_step tf h d)

@[simp] theorem serve_append (m : Master) (ds es : List Dispatch) :
    m.serve tf (ds ++ es) = (m.serve tf ds).serve tf es := List.foldl_append

/-! ## The partition of the tasks -/

theorem mem_init_taskMap (tasks : List Int) (readState : Bool) (file : StateFile) (id : Int) :
    id ∈ (init tf tasks readState file).node.taskMap ↔ id ∈ tasks := by
  rw [← TreeMap.isSome_getElem?_iff_mem,
    show (init tf tasks readState file).node = (MasterNode.start tf true tasks readState file).2.1
      from rfl, (MasterNode.start_started tf tasks readState file).item]
  split <;> simp_all

theorem History.mem_taskMap {m₀ m : Master} (h : History m₀ m) (id : Int) :
    id ∈ m.node.taskMap ↔ id ∈ m₀.node.taskMap := by
  obtain ⟨acts, hrun, -, -⟩ := h.acts
  have hdom := Ledger.run_dom hrun id
  rw [← book_isSome, ← book_isSome]
  exact Bool.eq_iff_iff.1 hdom

/-- **The tasks stay partitioned.**  Whatever the state file and the requests, the records are
exactly those of the generated tasks; each task is queued once and PENDING, or in the running set
and RUNNING, or in neither and DONE; and a DONE task keeps its result and time for ever. -/
theorem task_partition {tasks : List Int} (hnd : tasks.Nodup) (readState : Bool)
    (file : StateFile) (ds : List Dispatch) :
    let m := (init tf tasks readState file).serve tf ds
    (∀ id, id ∈ m.node.taskMap ↔ id ∈ tasks) ∧
    (∀ id ∈ tasks, ∃ item, m.node.taskMap[id]? = some item ∧
      ((m.node.taskPendingQueue.count id = 1 ∧ id ∉ m.node.taskRunningQueue ∧
          item.status = .pending) ∨
        (id ∉ m.node.taskPendingQueue ∧ id ∈ m.node.taskRunningQueue ∧ item.status = .running) ∨
        (id ∉ m.node.taskPendingQueue ∧ id ∉ m.node.taskRunningQueue ∧ item.status = .done))) ∧
    ∀ (id : Int) (item : TaskItem), m.node.taskMap[id]? = some item → item.status = .done →
      ∀ later, ∃ item', (m.serve tf later).node.taskMap[id]? = some item' ∧
        item'.status = .done ∧ item'.result = item.result ∧ item'.timeUsage = item.timeUsage := by
  intro m
  have hist : History (init tf tasks readState file) m :=
    history_serve tf (history_init tf hnd readState file) ds
  have hkeys : ∀ id, id ∈ m.node.taskMap ↔ id ∈ tasks := fun id =>
    (hist.mem_taskMap id).trans (mem_init_taskMap tf tasks readState file id)
  refine ⟨hkeys, fun id hid => ?_, fun id item hitem hdone later => ?_⟩
  · obtain ⟨item, hitem⟩ := Option.isSome_iff_exists.1
      (TreeMap.isSome_getElem?_iff_mem.2 ((hkeys id).2 hid))
    have hentry : m.node.ledger id = some item.entry := by
      rw [MasterNode.ledger, book, hitem]; rfl
    have hp := hist.inv.pending id
    have hr := hist.inv.running id
    rw [hentry, Option.some_inj] at hp hr
    rw [entry_eq_free] at hp
    rw [entry_eq_claimed] at hr
    refine ⟨item, hitem, ?_⟩
    cases hs : item.status with
    | pending =>
      exact .inl ⟨List.count_eq_one_of_mem hist.inv.pendingNodup (hp.2 hs), by simp [hr, hs], rfl⟩
    | running => exact .inr (.inl ⟨by simp [hp, hs], hr.2 hs, rfl⟩)
    | done => exact .inr (.inr ⟨by simp [hp, hs], by simp [hr, hs], rfl⟩)
  · have hlater : History m (m.serve tf later) :=
      history_serve tf (History.refl hist.inv hist.wellSized) later
    obtain ⟨acts, hrun, -, -⟩ := hlater.acts
    have hsettled : m.node.ledger id = some (.settled (item.result, item.timeUsage)) :=
      book_eq_some.2 ⟨item, hitem, entry_eq_settled.2 ⟨hdone, rfl⟩⟩
    obtain ⟨item', hitem', hentry⟩ := book_eq_some.1 (Ledger.run_settled hrun hsettled)
    obtain ⟨hs, hv⟩ := entry_eq_settled.1 hentry
    exact ⟨item', hitem', hs, congrArg Prod.fst hv, congrArg Prod.snd hv⟩

/-- A state in which task 1 is DONE, and its text. -/
def savedState : MasterState :=
  { taskItem := [{ taskId := 1, status := .done, result := 7, timeUsage := 3 }] }

def savedText : String :=
  "task_item \x7b\n  task_id: 1\n  status: DONE\n  result: 7\n  time_usage: 3\n\x7d\n"

def savedFormat : TextFormat where
  print st := if st = savedState then savedText else ""
  parse data := if data = savedText then some savedState else none

/-- A worker asks for one task. -/
def fetch : Dispatch := { req := { getTask := some { maxTaskCount := 1 } } }

/-- A worker reports task `id`. -/
def report (id : Int) : Dispatch :=
  { req := { finishCompute := some { taskItem := [{ taskId := id, result := 5 }] } } }

theorem task_partition_saved :
    [1, 2].Nodup ∧ ∀ id, id ∈ ((init savedFormat [1, 2] true (.text savedText)).serve savedFormat
      [report 2]).node.taskMap ↔ id ∈ [1, 2] :=
  ⟨by decide,
    (task_partition savedFormat (by decide) true (.text savedText) [report 2]).1⟩

/-! ## What the Solver is given -/

theorem init_settled_iff (tasks : List Int) (readState : Bool) (file : StateFile) (id : Int)
    (v : Int × Int) :
    (init tf tasks readState file).node.ledger id = some (.settled v) ↔
      (id, v) ∈ delivered (init tf tasks readState file).effects := by
  obtain ⟨body, he, -, -, hd⟩ := init_effects tf tasks readState file
  rw [he, delivered_append, delivered_endJob, List.append_nil, hd, List.mem_filterMap]
  have hitem := (MasterNode.start_started tf tasks readState file).item id
  rw [show (init tf tasks readState file).node.ledger id =
    (MasterNode.start tf true tasks readState file).2.1.taskMap[id]?.map TaskItem.entry from rfl,
    hitem]
  constructor
  · intro h
    split at h
    · next hid =>
      cases hs : MasterNode.savedItem tf readState file id with
      | none => simp [hs, TaskItem.entry] at h
      | some item =>
        simp only [hs, Option.getD_some, Option.map_some, Option.some_inj,
          entry_eq_settled] at h
        exact ⟨id, hid, by simp [hs, h.2]⟩
    · cases h
  · rintro ⟨i, hi, h⟩
    rw [Option.map_eq_some_iff] at h
    obtain ⟨item, hs, heq⟩ := h
    obtain ⟨rfl, hv⟩ := Prod.ext_iff.1 heq
    have hdone := (MasterNode.savedItem_spec tf hs).1
    simp only at hi hs hv
    simp [hi, hs, hdone, hv]

theorem init_delivered_nodup {tasks : List Int} (hnd : tasks.Nodup) (readState : Bool)
    (file : StateFile) :
    ((delivered (init tf tasks readState file).effects).map Prod.fst).Nodup := by
  obtain ⟨body, he, -, -, hd⟩ := init_effects tf tasks readState file
  rw [he, delivered_append, delivered_endJob, List.append_nil, hd, List.map_filterMap]
  refine hnd.filterMap fun a b c ha hb => ?_
  simp only [Option.map_map, Option.mem_def, Option.map_eq_some_iff, Function.comp] at ha hb
  obtain ⟨_, -, rfl⟩ := ha
  obtain ⟨_, -, hb⟩ := hb
  exact hb.symm

/-- The run has delivered exactly what the ledger has settled. -/
theorem settled_iff_delivered {tasks : List Int} {readState : Bool} {file : StateFile}
    {m : Master} (h : History (init tf tasks readState file) m) (id : Int) (v : Int × Int) :
    m.node.ledger id = some (.settled v) ↔ (id, v) ∈ delivered m.effects := by
  obtain ⟨acts, hrun, -, hdel⟩ := h.acts
  rw [Ledger.run_settled_iff hrun, init_settled_iff, hdel, List.mem_append]

theorem delivered_nodup {tasks : List Int} (hnd : tasks.Nodup) {readState : Bool}
    {file : StateFile} {m : Master} (h : History (init tf tasks readState file) m) :
    (resultIds m.effects).Nodup := by
  obtain ⟨acts, hrun, -, hdel⟩ := h.acts
  obtain ⟨hset, hout⟩ := Ledger.run_settlements_nodup hrun
  rw [← map_fst_delivered h.wellSized, hdel, List.map_append, List.nodup_append']
  refine ⟨init_delivered_nodup tf hnd readState file, hset, fun id hid => ?_⟩
  obtain ⟨p, hp, rfl⟩ := List.mem_map.1 hid
  exact hout p.1 p.2 ((init_settled_iff tf tasks readState file p.1 p.2).2 hp)

theorem mem_resultIds {tasks : List Int} {readState : Bool} {file : StateFile} {m : Master}
    (h : History (init tf tasks readState file) m) (id : Int) :
    id ∈ resultIds m.effects ↔
      ∃ item, m.node.taskMap[id]? = some item ∧ item.status = .done := by
  rw [← map_fst_delivered h.wellSized, List.mem_map]
  constructor
  · rintro ⟨⟨i, v⟩, hp, rfl⟩
    obtain ⟨item, hitem, he⟩ := book_eq_some.1 ((settled_iff_delivered tf h i v).2 hp)
    exact ⟨item, hitem, (entry_eq_settled.1 he).1⟩
  · rintro ⟨item, hitem, hdone⟩
    refine ⟨(id, item.result, item.timeUsage), (settled_iff_delivered tf h _ _).1 ?_, rfl⟩
    exact book_eq_some.2 ⟨item, hitem, entry_eq_settled.2 ⟨hdone, rfl⟩⟩

/-- Every one of the tasks is DONE. -/
def AllDone (tasks : List Int) (m : Master) : Prop :=
  ∀ id ∈ tasks, ∃ item, m.node.taskMap[id]? = some item ∧ item.status = .done

/-- Two empty queues are how the master recognises that every task is DONE. -/
theorem idle_iff {tasks : List Int} {readState : Bool} {file : StateFile} {m : Master}
    (h : History (init tf tasks readState file) m) :
    m.node.idle = true ↔ AllDone tasks m := by
  have hkeys : ∀ id, id ∈ m.node.taskMap ↔ id ∈ tasks := fun id =>
    (h.mem_taskMap id).trans (mem_init_taskMap tf tasks readState file id)
  rw [MasterNode.idle, Bool.and_eq_true, List.isEmpty_iff, List.eq_nil_iff_forall_not_mem,
    TreeSet.isEmpty_iff_forall_not_mem]
  constructor
  · rintro ⟨hp, hr⟩ id hid
    obtain ⟨item, hitem⟩ := Option.isSome_iff_exists.1
      (TreeMap.isSome_getElem?_iff_mem.2 ((hkeys id).2 hid))
    have hentry : m.node.ledger id = some item.entry := by
      rw [MasterNode.ledger, book, hitem]; rfl
    refine ⟨item, hitem, ?_⟩
    cases hs : item.status with
    | pending =>
      exact absurd ((h.inv.pending id).2 (by rw [hentry, entry_eq_free.2 hs])) (hp id)
    | running =>
      exact absurd ((h.inv.running id).2 (by rw [hentry, entry_eq_claimed.2 hs])) (hr id)
    | done => rfl
  · intro hall
    refine ⟨fun id hid => ?_, fun id hid => ?_⟩
    · obtain ⟨item, hitem, hs⟩ := book_eq_some.1 ((h.inv.pending id).1 hid)
      obtain ⟨item', hitem', hdone⟩ := hall id ((hkeys id).1 (TreeMap.isSome_getElem?_iff_mem.1
        (by rw [hitem]; rfl)))
      rw [hitem, Option.some_inj] at hitem'
      rw [entry_eq_free, hitem', hdone] at hs
      cases hs
    · obtain ⟨item, hitem, hs⟩ := book_eq_some.1 ((h.inv.running id).1 hid)
      obtain ⟨item', hitem', hdone⟩ := hall id ((hkeys id).1 (TreeMap.isSome_getElem?_iff_mem.1
        (by rw [hitem]; rfl)))
      rw [hitem, Option.some_inj] at hitem'
      rw [entry_eq_claimed, hitem', hdone] at hs
      cases hs

/-- When every task is DONE, the ids delivered are the tasks, each once. -/
theorem resultIds_perm {tasks : List Int} (hnd : tasks.Nodup) {readState : Bool}
    {file : StateFile} {m : Master} (h : History (init tf tasks readState file) m)
    (hall : AllDone tasks m) : (resultIds m.effects).Perm tasks := by
  refine (List.perm_ext_iff_of_nodup (delivered_nodup tf hnd h) hnd).2 fun id => ?_
  rw [mem_resultIds tf h]
  constructor
  · rintro ⟨item, hitem, -⟩
    exact (mem_init_taskMap tf tasks readState file id).1 ((h.mem_taskMap id).1
      (TreeMap.isSome_getElem?_iff_mem.1 (by rw [hitem]; rfl)))
  · exact hall id

/-- An element of an appended list stands in the one part or in the other. -/
theorem split_append {α : Type} {es fs pre post : List α} {a : α}
    (h : es ++ fs = pre ++ a :: post) :
    (∃ post', es = pre ++ a :: post') ∨ ∃ pre', pre = es ++ pre' ∧ fs = pre' ++ a :: post := by
  rcases List.append_eq_append_iff.1 h with ⟨pre', hp, hf⟩ | ⟨rest, he, hp⟩
  · exact .inr ⟨pre', hp, hf⟩
  · cases rest with
    | nil => exact .inr ⟨[], by simpa using he.symm, by simpa using hp.symm⟩
    | cons b rest =>
      rw [List.cons_append, List.cons.injEq] at hp
      exact .inl ⟨rest, by rw [he, ← hp.1]⟩

/-- `Finish` is called only when the job ends, and after everything else has been delivered. -/
theorem resultIds_before_finish {body pre post : List Effect} {b : Bool}
    (hbody : .finish ∉ body) (h : body ++ endJob b = pre ++ .finish :: post) :
    b = true ∧ resultIds pre = resultIds (body ++ endJob b) := by
  rcases split_append h with ⟨post', he⟩ | ⟨pre', hp, he⟩
  · exact absurd (by rw [he]; simp) hbody
  · have hids : resultIds pre' = [] := by
      have h0 := resultIds_endJob b
      rw [he, resultIds_append, List.append_eq_nil_iff] at h0
      exact h0.1
    refine ⟨?_, by rw [hp, resultIds_append, resultIds_append, hids, resultIds_endJob]⟩
    cases b with
    | true => rfl
    | false => simp [endJob] at he

/-- Whenever `Finish` has been called, every task had been delivered by then. -/
theorem delivered_before_finish {tasks : List Int} (hnd : tasks.Nodup) (readState : Bool)
    (file : StateFile) (ds : List Dispatch) :
    ∀ pre post, ((init tf tasks readState file).serve tf ds).effects = pre ++ .finish :: post →
      (resultIds pre).Perm tasks := by
  have hinit := history_init tf hnd readState file
  induction ds using List.reverseRecOn with
  | nil =>
    intro pre post h
    obtain ⟨body, he, hbody, -, -⟩ := init_effects tf tasks readState file
    rw [serve, List.foldl_nil, he] at h
    obtain ⟨hb, hids⟩ := resultIds_before_finish hbody h
    rw [hids, ← he]
    exact resultIds_perm tf hnd hinit ((idle_iff tf hinit).1 (Bool.and_eq_true_iff.1 hb).2)
  | append_singleton ds d ih =>
    intro pre post h
    have hist := history_serve tf hinit ds
    obtain ⟨rep, effects, hd, he, -⟩ := handled tf hist.inv d
    have hstep := history_step tf hist d
    rw [serve_append] at h
    rw [show ((init tf tasks readState file).serve tf ds).serve tf [d] =
      ((init tf tasks readState file).serve tf ds).handleRequest tf d.clk d.responseTime d.req
      from rfl, he] at h
    rcases split_append h with ⟨post', h'⟩ | ⟨pre', hp, h'⟩
    · exact ih pre post' h'
    · obtain ⟨body, hbe, hbody⟩ := hd.ending
      rw [hbe] at h'
      obtain ⟨hb, hids⟩ := resultIds_before_finish hbody h'
      have hall := (idle_iff tf hstep).1 (Bool.and_eq_true_iff.1 hb).2
      rw [hp, resultIds_append, hids, ← hbe, ← resultIds_append, ← he]
      exact resultIds_perm tf hnd hstep hall

/-- **Every task is delivered to the `Solver` exactly once.**  No id is passed to `SetResult` twice
in a run; the ids passed are those of the DONE tasks; each comes with the result and the time usage
stored for it; and when `Finish` is called every task has been passed. -/
theorem exactly_once_delivery {tasks : List Int} (hnd : tasks.Nodup) (readState : Bool)
    (file : StateFile) (ds : List Dispatch) :
    let m := (init tf tasks readState file).serve tf ds
    (resultIds m.effects).Nodup ∧
    (∀ id, id ∈ resultIds m.effects ↔
      ∃ item, m.node.taskMap[id]? = some item ∧ item.status = .done) ∧
    WellSized m.effects ∧
    (∀ id result timeUsage, (id, result, timeUsage) ∈ delivered m.effects →
      ∃ item, m.node.taskMap[id]? = some item ∧ item.result = result ∧
        item.timeUsage = timeUsage) ∧
    ∀ pre post, m.effects = pre ++ .finish :: post → (resultIds pre).Perm tasks := by
  intro m
  have hist : History (init tf tasks readState file) m :=
    history_serve tf (history_init tf hnd readState file) ds
  refine ⟨delivered_nodup tf hnd hist, mem_resultIds tf hist, hist.wellSized, ?_,
    delivered_before_finish tf hnd readState file ds⟩
  intro id result timeUsage h
  obtain ⟨item, hitem, he⟩ := book_eq_some.1 ((settled_iff_delivered tf hist id _).2 h)
  obtain ⟨-, hv⟩ := entry_eq_settled.1 he
  exact ⟨item, hitem, congrArg Prod.fst hv, congrArg Prod.snd hv⟩

theorem exactly_once_delivery_saved :
    [1, 2].Nodup ∧ (resultIds ((init savedFormat [1, 2] true (.text savedText)).serve savedFormat
      [report 1, { req := { getTask := some {} } }, report 2]).effects).Nodup :=
  ⟨by decide, (exactly_once_delivery savedFormat (by decide) true (.text savedText)
    [report 1, { req := { getTask := some {} } }, report 2]).1⟩

/-! ## The end of the job -/

/-- How often `Finish` has been called. -/
def finishes (m : Master) : Nat := m.effects.count .finish

theorem count_endJob (b : Bool) : (endJob b).count .finish = if b then 1 else 0 := by
  cases b <;> rfl

theorem finishes_init {tasks : List Int} (hne : tasks ≠ []) (readState : Bool)
    (file : StateFile) :
    (init tf tasks readState file).finishes =
      if (init tf tasks readState file).node.idle then 1 else 0 := by
  obtain ⟨body, he, hbody, -, -⟩ := init_effects tf tasks readState file
  rw [finishes, he, List.count_append, List.count_eq_zero.2 hbody, count_endJob, Nat.zero_add]
  cases readState with
  | true => rw [Bool.true_and]
  | false =>
    -- without a state file nothing is DONE, and there is a task
    have hidle : (init tf tasks false file).node.idle = false := by
      rw [show (init tf tasks false file).node = (MasterNode.start tf true tasks false file).2.1
        from rfl, MasterNode.idle, (MasterNode.start_started tf tasks false file).pending]
      have hnone : (fun id => (MasterNode.savedItem tf false file id).isNone) = fun _ => true := by
        funext id
        rw [MasterNode.savedItem, show MasterNode.restored tf false file = none by
          cases file <;> rfl]
        rfl
      rw [hnone, List.filter_true]
      simp [hne]
    rw [hidle]; rfl

/-- A request calls `Finish` once if it reports something and leaves every task DONE. -/
theorem finishes_step {m : Master} (h : m.node.Inv) (d : Dispatch) :
    (m.handleRequest tf d.clk d.responseTime d.req).finishes = m.finishes +
      if d.req.reportsItems && (m.handleRequest tf d.clk d.responseTime d.req).node.idle
        then 1 else 0 := by
  obtain ⟨rep, effects, hd, he, -⟩ := handled tf h d
  obtain ⟨body, hbe, hbody⟩ := hd.ending
  rw [finishes, he, hbe, List.count_append, List.count_append, List.count_eq_zero.2 hbody,
    count_endJob, Nat.zero_add]
  rfl

/-- What is DONE stays DONE, so an idle master stays idle; and only a report can make it so. -/
theorem idle_step {tasks : List Int} {readState : Bool} {file : StateFile} {m : Master}
    (h : History (init tf tasks readState file) m) (d : Dispatch) :
    (m.node.idle = true →
      (m.handleRequest tf d.clk d.responseTime d.req).node.idle = true) ∧
    (d.req.reportsItems = false →
      (m.handleRequest tf d.clk d.responseTime d.req).node.idle = m.node.idle) := by
  obtain ⟨rep, effects, hd, -, -⟩ := handled tf h.inv d
  obtain ⟨acts, hrun, -, hset⟩ := hd.acts
  have hstep := history_step tf h d
  have hdone : ∀ {m' : Master} {id : Int},
      (∃ item, m'.node.taskMap[id]? = some item ∧ item.status = .done) ↔
        ∃ v, m'.node.ledger id = some (.settled v) := by
    intro m' id
    constructor
    · rintro ⟨item, hitem, hs⟩
      exact ⟨_, book_eq_some.2 ⟨item, hitem, entry_eq_settled.2 ⟨hs, rfl⟩⟩⟩
    · rintro ⟨v, hv⟩
      obtain ⟨item, hitem, he⟩ := book_eq_some.1 hv
      exact ⟨item, hitem, (entry_eq_settled.1 he).1⟩
  have hmono : AllDone tasks m →
      AllDone tasks (m.handleRequest tf d.clk d.responseTime d.req) := by
    intro hall id hid
    obtain ⟨v, hv⟩ := hdone.1 (hall id hid)
    exact hdone.2 ⟨v, Ledger.run_settled hrun hv⟩
  refine ⟨fun hi => (idle_iff tf hstep).2 (hmono ((idle_iff tf h).1 hi)), fun hq => ?_⟩
  rw [Bool.eq_iff_iff, idle_iff tf hstep, idle_iff tf h]
  refine ⟨fun hall id hid => ?_, hmono⟩
  obtain ⟨v, hv⟩ := hdone.1 (hall id hid)
  rw [Ledger.run_settled_iff hrun, hset, hd.quiet hq] at hv
  exact hdone.2 ⟨v, hv.resolve_right (by simp [delivered])⟩

/-- `Finish` has been called exactly when every task is DONE. -/
theorem finishes_pos_iff {tasks : List Int} (hne : tasks ≠ []) (hnd : tasks.Nodup)
    (readState : Bool) (file : StateFile) (ds : List Dispatch) :
    0 < ((init tf tasks readState file).serve tf ds).finishes ↔
      ((init tf tasks readState file).serve tf ds).node.idle = true := by
  have hinit := history_init tf hnd readState file
  induction ds using List.reverseRecOn with
  | nil =>
    rw [serve, List.foldl_nil, finishes_init tf hne]
    split <;> simp_all
  | append_singleton ds d ih =>
    have hist := history_serve tf hinit ds
    obtain ⟨hmono, hquiet⟩ := idle_step tf hist d
    have hstep := finishes_step tf hist.inv d
    rw [serve_append, show ((init tf tasks readState file).serve tf ds).serve tf [d] =
      ((init tf tasks readState file).serve tf ds).handleRequest tf d.clk d.responseTime d.req
      from rfl, hstep]
    cases hr : d.req.reportsItems with
    | false => rw [hquiet hr, Bool.false_and]; simpa using ih
    | true =>
      rw [Bool.true_and]
      cases hi : (((init tf tasks readState file).serve tf ds).handleRequest tf d.clk
        d.responseTime d.req).node.idle with
      | true => simp
      | false =>
        have hno : ((init tf tasks readState file).serve tf ds).node.idle = false := by
          by_contra hc
          rw [hmono (by simpa using hc)] at hi
          cases hi
        rw [hno] at ih
        simpa using ih

/-- **When the job is finished once.**  In every state of a run `Finish` has been called exactly if
every task is DONE.  It is called at most once exactly in the runs in which no request that reports
an item is dispatched when every task is DONE already. -/
theorem finish_once_iff {tasks : List Int} (hne : tasks ≠ []) (hnd : tasks.Nodup)
    (readState : Bool) (file : StateFile) (ds : List Dispatch) :
    (∀ pre, pre <+: ds →
      let m := (init tf tasks readState file).serve tf pre
      m.finishes ≤ 1 ∧ (0 < m.finishes ↔ AllDone tasks m)) ↔
    ∀ pre d, pre ++ [d] <+: ds → AllDone tasks ((init tf tasks readState file).serve tf pre) →
      d.req.reportsItems = false := by
  have hinit := history_init tf hnd readState file
  have hlast : ∀ pre d, (init tf tasks readState file).serve tf (pre ++ [d]) =
      ((init tf tasks readState file).serve tf pre).handleRequest tf d.clk d.responseTime d.req :=
    fun pre d => serve_append tf _ pre [d]
  constructor
  · intro h pre d hpre hall
    by_contra hrep
    have hist := history_serve tf hinit pre
    have hidle := (idle_iff tf hist).2 hall
    have hpos := (finishes_pos_iff tf hne hnd readState file pre).2 hidle
    have hle := (h (pre ++ [d]) hpre).1
    rw [hlast, finishes_step tf hist.inv d, (idle_step tf hist d).1 hidle] at hle
    rw [Bool.not_eq_false] at hrep
    rw [hrep] at hle
    simp at hle
    omega
  · intro h pre hpre
    refine ⟨?_, (finishes_pos_iff tf hne hnd readState file pre).trans
      (idle_iff tf (history_serve tf hinit pre))⟩
    induction pre using List.reverseRecOn with
    | nil =>
      rw [serve, List.foldl_nil, finishes_init tf hne]
      split <;> omega
    | append_singleton pre d ih =>
      have hist := history_serve tf hinit pre
      have hle := ih ((List.prefix_append pre [d]).trans hpre)
      rw [hlast, finishes_step tf hist.inv d]
      by_cases hidle : ((init tf tasks readState file).serve tf pre).node.idle = true
      · rw [h pre d hpre ((idle_iff tf hist).1 hidle)]
        simpa using hle
      · have hzero : ((init tf tasks readState file).serve tf pre).finishes = 0 := by
          have hpos := finishes_pos_iff tf hne hnd readState file pre
          exact Nat.eq_zero_of_not_pos fun h0 => hidle (hpos.1 h0)
        rw [hzero]
        split <;> omega

/-- The job ends while `Start` reads a finished state, and again when a report of the old run is
dispatched before the teardown. -/
theorem finish_twice :
    ¬ ((init savedFormat [1] true (.text savedText)).serve savedFormat
      [report 1]).finishes ≤ 1 := by
  decide

/-- The report of the second task finishes a job whose first task was saved as DONE. -/
theorem finish_once_iff_saved :
    ((init savedFormat [1, 2] true (.text savedText)).serve savedFormat
        [fetch, report 2]).finishes = 1 ∧
      AllDone [1, 2] ((init savedFormat [1, 2] true (.text savedText)).serve savedFormat
        [fetch, report 2]) := by
  have hnd : ([1, 2] : List Int).Nodup := by decide
  have hinit := history_init savedFormat hnd true (.text savedText)
  have hfinishes : ((init savedFormat [1, 2] true (.text savedText)).serve savedFormat
      [fetch, report 2]).finishes = 1 := by decide
  refine ⟨hfinishes, ((finish_once_iff savedFormat (List.cons_ne_nil 1 [2]) hnd true
    (.text savedText) [fetch, report 2]).2 (fun pre d hpre hall => ?_) _
      (List.prefix_refl _)).2.1 (by rw [hfinishes]; exact Nat.one_pos)⟩
  -- before each of the two requests the second task is still to be done
  have hidle := (idle_iff savedFormat (history_serve savedFormat hinit pre)).2 hall
  rcases pre with _ | ⟨a, pre⟩
  · exact absurd hidle (by decide)
  · rw [List.cons_append, List.cons_prefix_cons] at hpre
    obtain ⟨rfl, hpre⟩ := hpre
    obtain rfl : pre = [] := by
      have hlen := hpre.length_le
      rw [List.length_append, List.length_singleton, List.length_singleton] at hlen
      exact List.length_eq_zero_iff.1 (by omega)
    exact absurd hidle (by decide)

end Master

end Dcfpe

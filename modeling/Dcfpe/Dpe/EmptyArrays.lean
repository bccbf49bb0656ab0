import Dcfpe.Dpe.MasterRun

/-!
# The arrays the Solver is given

`Start` hands `&task_queue_[0]` to `GenerateTasks`, and `LoadState` and `HandleRequest` hand the
address of the first element of three vectors to `SetResult`.  The vectors hold what was really
new, while the guard, where there is one, asks for the size of the message.  `addressed_iff` says
in which runs every one of these vectors has a first element.
-/

set_option autoImplicit false

namespace Dcfpe

open Std

/-- The vectors passed to `SetResult` as the address of their first element. -/
def resultArrays (effects : List Effect) : List (List Int) :=
  effects.flatMap fun
    | .setResult taskId result timeUsage _ => [taskId, result, timeUsage]
    | _ => []

@[simp] theorem resultArrays_append (es fs : List Effect) :
    resultArrays (es ++ fs) = resultArrays es ++ resultArrays fs := List.flatMap_append

@[simp] theorem resultArrays_endJob (b : Bool) : resultArrays (endJob b) = [] := by cases b <;> rfl

theorem resultArrays_saves {saves : List Effect}
    (h : ∀ e ∈ saves, ∃ data, e = .writeFile data) : resultArrays saves = [] := by
  rw [resultArrays, List.flatMap_eq_nil_iff]
  intro e he
  obtain ⟨d, rfl⟩ := h e he; rfl

/-- Every vector has a first element. -/
def FirstElements (arrays : List (List Int)) : Prop := ∀ a ∈ arrays, a ≠ []

@[simp] theorem firstElements_append {as bs : List (List Int)} :
    FirstElements (as ++ bs) ↔ FirstElements as ∧ FirstElements bs := List.forall_mem_append

@[simp] theorem firstElements_nil : FirstElements [] := List.forall_mem_nil _

/-- The items a request reports, as far as `HandleRequest` looks at them. -/
def Request.items (req : Request) : List TaskItem :=
  match req.getTask, req.finishCompute with
  | none, some data => data.taskItem
  | _, _ => []

/-- The request reports nothing, or something that is running. -/
def MasterNode.FindsRunning (n : MasterNode) (req : Request) : Prop :=
  req.items = [] ∨ ∃ item ∈ req.items, item.taskId ∈ n.taskRunningQueue

namespace MasterNode

variable (tf : TextFormat)

/-! ## One request -/

/-- The three vectors grow together, and stay empty only as long as no item is running. -/
theorem finishItems_arrays (items : List TaskItem) : ∀ f : Finishing,
    f.result.length = f.taskId.length → f.timeUsage.length = f.taskId.length →
    let f' := items.foldl finishItem f
    f'.result.length = f'.taskId.length ∧ f'.timeUsage.length = f'.taskId.length ∧
      (f'.taskId = [] ↔
        f.taskId = [] ∧ ∀ item ∈ items, item.taskId ∉ f.node.taskRunningQueue) := by
  induction items with
  | nil => intro f hr ht; simp [hr, ht]
  | cons item items ih =>
    intro f hr ht
    by_cases hrun : item.taskId ∈ f.node.taskRunningQueue
    · obtain ⟨hr', ht', hnil⟩ := ih (finishItem f item) (by simp [finishItem, hrun, hr])
        (by simp [finishItem, hrun, ht])
      refine ⟨hr', ht', ?_⟩
      rw [List.foldl_cons, hnil]
      simp [finishItem, hrun]
    · have hf : finishItem f item =
          { f with removedTaskId := f.removedTaskId.insert item.taskId } := by
        simp [finishItem, hrun]
      obtain ⟨hr', ht', hnil⟩ := ih (finishItem f item) (by rw [hf]; exact hr)
        (by rw [hf]; exact ht)
      refine ⟨hr', ht', ?_⟩
      rw [List.foldl_cons, hnil, hf, List.forall_mem_cons]
      simp [hrun]

/-- The vectors of a FinishCompute have first elements exactly if one of its items is running. -/
theorem finishItems_firstElements (n : MasterNode) (items : List TaskItem) :
    let f := items.foldl finishItem { node := n }
    FirstElements [f.taskId, f.result, f.timeUsage] ↔
      ∃ item ∈ items, item.taskId ∈ n.taskRunningQueue := by
  obtain ⟨hr, ht, hnil⟩ := finishItems_arrays items { node := n } rfl rfl
  have hne : (items.foldl finishItem { node := n }).taskId ≠ [] ↔
      ∃ item ∈ items, item.taskId ∈ n.taskRunningQueue := by
    rw [Ne, hnil]
    simp
  rw [← hne]
  simp only [FirstElements, List.forall_mem_cons, List.not_mem_nil, false_imp_iff, implies_true,
    and_true, ← List.length_pos_iff, hr, ht, and_self]

theorem handleRequest_firstElements (n : MasterNode) (clk : Clock) (req : Request)
    (reply : Response) :
    FirstElements (resultArrays (n.handleRequest tf clk req reply).2.2) ↔ n.FindsRunning req := by
  rw [handleRequest, FindsRunning, Request.items]
  cases hget : req.getTask with
  | some getTask => simp [handleGetTask, resultArrays]
  | none =>
    cases hfin : req.finishCompute with
    | none => simp [resultArrays]
    | some data =>
      dsimp only [handleFinishCompute]
      split
      · next hpos =>
        obtain ⟨t, saves, -, he, hs⟩ := reportResult_spec tf clk
          (data.taskItem.foldl finishItem { node := n })
          ((data.taskItem.foldl finishItem { node := n }).node.putWorker req.workerId
            (finishWorker (touchWorker clk n req)
              (data.taskItem.foldl finishItem { node := n }).removedTaskId)) data.totalTimeUsage
        have harrays := finishItems_firstElements n data.taskItem
        rw [he, ← List.singleton_append, resultArrays_append, resultArrays_append,
          resultArrays_saves hs, resultArrays_endJob, List.append_nil, List.append_nil]
        simpa [List.length_pos_iff.1 hpos, resultArrays] using harrays
      · next hpos =>
        have hnil : data.taskItem = [] := by simpa using hpos
        simp [hnil, resultArrays]

/-! ## The start -/

/-- A state file that is read has a DONE item for one of the tasks. -/
def RestoresSome (tasks : List Int) (readState : Bool) (file : StateFile) : Prop :=
  (restored tf readState file).isSome →
    ∃ id ∈ tasks, (savedItem tf readState file id).isSome

theorem start_firstElements (tasks : List Int) (readState : Bool) (file : StateFile) :
    FirstElements (resultArrays (start tf true tasks readState file).2.2) ↔
      RestoresSome tf tasks readState file := by
  rw [start_effects, resultArrays_append, resultArrays_endJob, List.append_nil, RestoresSome]
  cases h : restored tf readState file with
  | none => simp [resultArrays]
  | some st =>
    simp [resultArrays, FirstElements, ← Option.isSome_iff_ne_none]

end MasterNode

/-! ## A whole run -/

namespace Master

variable (tf : TextFormat)

/-- All vectors of which the master has formed a pointer to the first element: `task_queue_`, which
holds as many tasks as the `Solver` said it has, and the arguments of `SetResult`. -/
def addressed (tasks : List Int) (m : Master) : List (List Int) := tasks :: resultArrays m.effects

/-- Every request of the sequence finds something running, if it reports anything. -/
def FindsRunning (m : Master) (ds : List Dispatch) : Prop :=
  ∀ pre d post, ds = pre ++ d :: post → (m.serve tf pre).node.FindsRunning d.req

theorem findsRunning_cons {m : Master} {d : Dispatch} {ds : List Dispatch} :
    FindsRunning tf m (d :: ds) ↔ m.node.FindsRunning d.req ∧
      FindsRunning tf (m.handleRequest tf d.clk d.responseTime d.req) ds := by
  constructor
  · exact fun h => ⟨h [] d ds rfl, fun pre e post heq => h (d :: pre) e post (by rw [heq]; rfl)⟩
  · rintro ⟨hd, hds⟩ pre e post heq
    cases pre with
    | nil => cases heq; exact hd
    | cons d' pre => cases heq; exact hds pre e post rfl

theorem serve_firstElements (m : Master) (ds : List Dispatch) :
    FirstElements (resultArrays (m.serve tf ds).effects) ↔
      FirstElements (resultArrays m.effects) ∧ FindsRunning tf m ds := by
  induction ds generalizing m with
  | nil => simp [serve, FindsRunning]
  | cons d ds ih =>
    rw [serve, List.foldl_cons, ← serve, ih, findsRunning_cons, ← and_assoc]
    refine and_congr_left fun _ => ?_
    rw [← MasterNode.handleRequest_firstElements tf m.node d.clk d.req, ← firstElements_append,
      ← resultArrays_append]
    rfl

/-- **When every vector has a first element.**  There is a task; a state file that is read has a
DONE item for one of them; and every FinishCompute that reports anything reports, among it, a task
that is running when its turn comes. -/
theorem addressed_iff (tasks : List Int) (readState : Bool) (file : StateFile)
    (ds : List Dispatch) :
    FirstElements (addressed tasks ((init tf tasks readState file).serve tf ds)) ↔
      tasks ≠ [] ∧ MasterNode.RestoresSome tf tasks readState file ∧
        FindsRunning tf (init tf tasks readState file) ds := by
  rw [addressed, ← MasterNode.start_firstElements, FirstElements, List.forall_mem_cons,
    ← FirstElements, serve_firstElements]
  rfl

/-- A FinishCompute is delivered twice. -/
theorem addressed_twice :
    let take : Dispatch := { req := { getTask := some { maxTaskCount := 1 } } }
    let m := (init savedFormat [1, 2] false .absent).serve savedFormat [take, report 1, report 1]
    resultArrays m.effects = [[1], [5], [0], [], [], []] ∧
      ¬ FirstElements (addressed [1, 2] m) := by
  exact ⟨by decide, fun h => h [] (by decide) rfl⟩

end Master

end Dcfpe

import Dcfpe.Service.Project

/-!
# A state file with a bad line

`LoadSavedState` takes one line after the other and returns false when it comes to one without a
colon.  What the lines before it have changed stays changed, and `OnStop` goes on with it.
`load_all_or_nothing_iff` says when that cannot be seen.
-/

set_option autoImplicit false

namespace Dcfpe

namespace DPEProject

/-- The line has an id and a result. -/
def hasColon (line : Bytes) : Bool := (splitColon line).isSome

/-- What a line gives to the task at place `i`. -/
def resultFor (state : DPEProjectState) (i : Nat) (line : Bytes) : Option Bytes :=
  (splitColon line).bind fun p =>
    if state.getTask (atoll p.1) (-1) = some i then some p.2 else none

/-- The last result that some lines give to the task at place `i`. -/
def lastResult (state : DPEProjectState) (lines : List Bytes) (i : Nat) : Option Bytes :=
  (lines.filterMap (resultFor state i)).getLast?

/-- The task is finished, with the result if there is one. -/
def finished (result : Option Bytes) (task : DPETask) : DPETask :=
  match result with
  | some result => { task with state := .finish, result := result }
  | none => task

theorem loadLines_fst (lines : List Bytes) (state : DPEProjectState) :
    (loadLines lines state).1 = lines.all hasColon := by
  induction lines generalizing state with
  | nil => rfl
  | cons line lines ih =>
    rw [loadLines, List.all_cons, hasColon]
    split
    · next hline =>
      rw [hline, Option.isSome_some, Bool.true_and]
      split <;> exact ih _
    · next hline =>
      rw [hline]
      rfl

theorem resultFor_setTask (state : DPEProjectState) (j : Nat) (result : Option Bytes) (i : Nat) :
    resultFor (state.setTask j (finished result)) i = resultFor state i := by
  have hid : ∀ task, (finished result task).id = task.id := by
    intro task
    cases result <;> rfl
  funext line
  simp only [resultFor, DPEProjectState.getTask_setTask hid]

/-- Each task ends with the last result that a line before the first bad one has for it. -/
theorem loadLines_getElem? (lines : List Bytes) (state : DPEProjectState) (i : Nat) :
    (loadLines lines state).2.taskData[i]? =
      state.taskData[i]?.map (finished (lastResult state (lines.takeWhile hasColon) i)) := by
  induction lines generalizing state with
  | nil =>
    refine Option.map_id'.symm.trans ?_
    rfl
  | cons line lines ih =>
    rw [loadLines]
    split
    · next id result hline =>
      have hcolon : hasColon line = true := by rw [hasColon, hline, Option.isSome_some]
      rw [List.takeWhile_cons_of_pos hcolon]
      split
      · next j hj =>
        have hset : (fun task : DPETask =>
            { task with state := .finish, result := result }) = finished (some result) := rfl
        rw [hset, ih, lastResult, resultFor_setTask, ← lastResult,
          DPEProjectState.setTask_getElem?]
        by_cases hij : j = i
        · subst hij
          have hresult : resultFor state j line = some result := by
            rw [resultFor, hline, Option.bind_some, if_pos hj]
          rw [if_pos rfl, Option.map_map, lastResult, lastResult,
            List.filterMap_cons_some hresult, List.getLast?_cons]
          congr 1
          funext task
          cases (List.filterMap (resultFor state j) (lines.takeWhile hasColon)).getLast? <;> rfl
        · have hresult : resultFor state i line = none := by
            rw [resultFor, hline, Option.bind_some, if_neg]
            rw [hj, Option.some_inj]
            exact hij
          rw [if_neg hij, lastResult, lastResult, List.filterMap_cons_none hresult]
      · next hnone =>
        have hresult : resultFor state i line = none := by
          rw [resultFor, hline, Option.bind_some, hnone, if_neg (by simp)]
        rw [ih, lastResult, lastResult, List.filterMap_cons_none hresult]
    · next hline =>
      have hcolon : ¬ hasColon line = true := by rw [hasColon, hline]; simp
      rw [List.takeWhile_cons_of_neg hcolon]
      exact Option.map_id'.symm

/-- The states and results of the tasks. -/
def results (state : DPEProjectState) : List (DPETaskState × Bytes) :=
  state.taskData.map fun task => (task.state, task.result)

/-- What some lines have last for a task is what it has already. -/
def Known (state : DPEProjectState) (lines : List Bytes) : Prop :=
  ∀ i task result, state.taskData[i]? = some task → lastResult state lines i = some result →
    task.state = .finish ∧ task.result = result

theorem results_loadLines_iff (lines : List Bytes) (state : DPEProjectState) :
    results (loadLines lines state).2 = results state ↔
      Known state (lines.takeWhile hasColon) := by
  have hget : ∀ i, (results (loadLines lines state).2)[i]? = (results state)[i]? ↔
      ∀ task result, state.taskData[i]? = some task →
        lastResult state (lines.takeWhile hasColon) i = some result →
        task.state = .finish ∧ task.result = result := by
    intro i
    rw [results, results, List.getElem?_map, List.getElem?_map, loadLines_getElem?]
    cases state.taskData[i]? with
    | none => simp
    | some task =>
      cases lastResult state (lines.takeWhile hasColon) i with
      | none => simp [finished]
      | some result => simp [finished, eq_comm]
  rw [List.ext_getElem?_iff, Known]
  exact forall_congr' hget

/-- **When loading is all or nothing.**  A load that returns false has left the state and the result
of every task as they were — exactly if, whenever the checksum is right and the file has a line
without a colon, whatever the lines before the first such line have last for a task is what the
task had already. -/
theorem load_all_or_nothing_iff (env : ProjectEnv) (fs : FileSystem) (p : DPEProject)
    (state : DPEProjectState) :
    ((p.loadSavedState env fs state).1 = false →
        results (p.loadSavedState env fs state).2 = results state) ↔
      ∀ data, fs p.dpeStatePath = some data →
        (p.dpeStateChecksum = "" ∨ p.dpeStateChecksum = env.md5String data) →
        (∃ line ∈ tokenize data, hasColon line = false) →
        Known state ((tokenize data).takeWhile hasColon) := by
  rw [loadSavedState]
  cases fs p.dpeStatePath with
  | none => simp
  | some data =>
    simp only [Option.some_inj, forall_eq']
    split
    · next hsum =>
      refine iff_of_true (fun _ => rfl) fun hright => ?_
      rcases hright with hempty | hmd5
      · exact absurd hempty hsum.1
      · exact absurd hmd5 hsum.2
    · next hsum =>
      have hright : p.dpeStateChecksum = "" ∨ p.dpeStateChecksum = env.md5String data := by
        by_contra hno
        rw [not_or] at hno
        exact hsum hno
      have hbad : (loadLines (tokenize data) state).1 = false ↔
          ∃ line ∈ tokenize data, hasColon line = false := by
        rw [loadLines_fst, List.all_eq_false]
        simp only [Bool.not_eq_true]
      rw [hbad, results_loadLines_iff]
      exact ⟨fun h _ => h, fun h => h hright⟩

/-- A good line and a bad one: the task is finished all the same. -/
theorem half_loaded :
    ¬ ∀ (env : ProjectEnv) (fs : FileSystem) (p : DPEProject) (state : DPEProjectState),
      (p.loadSavedState env fs state).1 = false →
        results (p.loadSavedState env fs state).2 = results state := by
  intro h
  have hload := h
    { jsonWrite := fun _ => none, jsonRead := fun _ => none, md5String := fun _ => "",
      dirName := id, append := fun a _ => a }
    (fun _ => some [49, 58, 88, 10, 98, 97, 100]) {}
    { id2idx := (∅ : Std.TreeMap Int Nat).insert 1 0, taskData := [{ id := 1, input := [49] }] }
  exact absurd (hload (by decide)) (by decide)

end DPEProject

end Dcfpe

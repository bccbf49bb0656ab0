import Dcfpe.Lib.Decimal
import Std.Data.TreeMap.Lemmas

/-!
# A project and the state of its tasks

The source program of a project prints one line for each task, `id:input`.  A `DPEProjectState` has
the tasks of these lines, and `SaveProject` writes the results of those that are finished into a
file, again one line for each, from which `LoadSavedState` takes them back.

The functions are those of `dpe_project.cc`.  A file system is what each path leads to;
`ReplaceFile` and `WriteFile` do what they are asked.  What the code takes from elsewhere — JSON,
MD5, and the joining of paths — is a parameter, `ProjectEnv`.
-/

set_option autoImplicit false

namespace Dcfpe

abbrev Bytes := List UInt8

/-- `atoll` of some bytes. -/
def atoll (s : Bytes) : Int :=
  Decimal.clamp (-2 ^ 63) (2 ^ 63 - 1) (Decimal.value (Decimal.chars s))

/-- `Tokenize` with the delimiters `"\r\n"`: the pieces between them that are not empty. -/
def isBreak (b : UInt8) : Bool := b = 13 || b = 10

def tokenize (s : Bytes) : List Bytes := (s.splitOnP isBreak).filter (· ≠ [])

/-- What stands before the first colon of a line, and what stands after it. -/
def splitColon (line : Bytes) : Option (Bytes × Bytes) :=
  let pos := (line.takeWhile (· ≠ 58)).length
  if pos < line.length then some (line.take pos, line.drop (pos + 1)) else none

/-! ## The tasks -/

inductive DPETaskState where
  | pending
  | running
  | finish
  | error
  deriving DecidableEq, Repr

structure DPETask where
  id : Int := -1
  state : DPETaskState := .pending
  input : Bytes := []
  result : Bytes := []
  deriving DecidableEq, Repr

structure DPEProjectState where
  id2idx : Std.TreeMap Int Nat := ∅
  taskData : List DPETask := []

namespace DPEProjectState

def taskOfLine (line : Bytes) : DPETask :=
  match splitColon line with
  | some (id, input) => { id := atoll id, state := .pending, input := input }
  | none => { state := .error }

/-- The loop that fills `id2idx_`, from line `i` on. -/
def indexLines : List Bytes → Nat → Std.TreeMap Int Nat → Std.TreeMap Int Nat
  | [], _, id2idx => id2idx
  | line :: lines, i, id2idx =>
    match splitColon line with
    | some (id, _) => indexLines lines (i + 1) (id2idx.insert (atoll id) i)
    | none => indexLines lines (i + 1) id2idx

def addInputData (inputData : Bytes) (s : DPEProjectState) : DPEProjectState :=
  let inputLines := tokenize inputData
  { id2idx := indexLines inputLines 0 s.id2idx, taskData := inputLines.map taskOfLine }

/-- `MakeTaskQueue`. -/
def makeTaskQueue (s : DPEProjectState) : List (Int × Int) :=
  s.taskData.zipIdx.filterMap fun (task, i) =>
    if task.state = .pending then some (task.id, (i : Int)) else none

/-- `GetTask`: the place of the task in `task_data_`. -/
def getTask (id : Int) (idx : Int) (s : DPEProjectState) : Option Nat :=
  let n : Int := s.taskData.length
  let idx : Int :=
    if idx < 0 ∨ idx ≥ n then
      match s.id2idx[id]? with
      | some i => i
      | none => idx
    else idx
  if idx < 0 ∨ idx ≥ n then none
  else
    match s.taskData[idx.toNat]? with
    | some task => if task.id ≠ id then none else some idx.toNat
    | none => none

theorem getTask_spec {p : DPEProjectState} {id idx : Int} {i : Nat}
    (h : p.getTask id idx = some i) : ∃ task, p.taskData[i]? = some task ∧ task.id = id := by
  simp only [getTask] at h
  generalize (if idx < 0 ∨ idx ≥ p.taskData.length then
    match p.id2idx[id]? with
    | some i => (i : Int)
    | none => idx
    else idx) = place at h
  split at h
  · cases h
  · split at h
    · next task htask =>
      split at h
      · cases h
      · next hid =>
        rw [← Option.some.inj h]
        exact ⟨task, htask, not_not.1 hid⟩
    · cases h

/-- The task that `GetTask` has found is changed. -/
def setTask (i : Nat) (f : DPETask → DPETask) (s : DPEProjectState) : DPEProjectState :=
  { s with taskData := s.taskData.modify i f }

theorem setTask_getElem? (p : DPEProjectState) (i : Nat) (f : DPETask → DPETask) (j : Nat) :
    (p.setTask i f).taskData[j]? = if i = j then p.taskData[j]?.map f else p.taskData[j]? := by
  rw [setTask, List.getElem?_modify]
  split
  · rfl
  · exact Option.map_id'

/-- A task is found as before, if its id stays. -/
theorem getTask_setTask {f : DPETask → DPETask} (hid : ∀ task, (f task).id = task.id)
    (p : DPEProjectState) (i : Nat) (id idx : Int) :
    (p.setTask i f).getTask id idx = p.getTask id idx := by
  have hlength : (p.setTask i f).taskData.length = p.taskData.length := List.length_modify ..
  have hindex : (p.setTask i f).id2idx = p.id2idx := rfl
  simp only [getTask, hlength, hindex]
  generalize (if idx < 0 ∨ idx ≥ p.taskData.length then
    match p.id2idx[id]? with
    | some i => (i : Int)
    | none => idx
    else idx) = place
  split
  · rfl
  · rw [setTask_getElem?]
    by_cases hi : i = place.toNat
    · rw [if_pos hi]
      cases p.taskData[place.toNat]? with
      | none => rfl
      | some task => simp only [Option.map_some, hid]
    · rw [if_neg hi]

end DPEProjectState

/-! ## The index of the tasks -/

/-- The ids of the lines that have one. -/
def lineIds (lines : List Bytes) : List Int :=
  lines.filterMap fun line => (splitColon line).map fun p => atoll p.1

namespace DPEProjectState

theorem indexLines_of_notMem {lines : List Bytes} {id : Int} (h : id ∉ lineIds lines) (k : Nat)
    (m : Std.TreeMap Int Nat) : (indexLines lines k m)[id]? = m[id]? := by
  induction lines generalizing k m with
  | nil => rfl
  | cons line lines ih =>
    rw [indexLines]
    cases hline : splitColon line with
    | none => exact ih (fun hmem => h (by simpa [lineIds, hline] using hmem)) (k + 1) m
    | some p =>
      have hne : atoll p.1 ≠ id ∧ id ∉ lineIds lines := by
        simpa [lineIds, hline, eq_comm] using h
      rw [ih hne.2, Std.TreeMap.getElem?_insert, if_neg]
      simpa using hne.1

/-- The line of an id that no other line has. -/
theorem indexLines_getElem? {lines : List Bytes} (h : (lineIds lines).Nodup) {j : Nat}
    {line id input : Bytes} (hj : lines[j]? = some line)
    (hline : splitColon line = some (id, input))
    (k : Nat) (m : Std.TreeMap Int Nat) : (indexLines lines k m)[atoll id]? = some (k + j) := by
  induction lines generalizing j k m with
  | nil => simp at hj
  | cons first lines ih =>
    rw [indexLines]
    cases j with
    | zero =>
      rw [List.getElem?_cons_zero, Option.some_inj] at hj
      rw [hj, lineIds, List.filterMap_cons_some (by rw [hline]; rfl), List.nodup_cons] at h
      rw [hj, hline]
      refine (indexLines_of_notMem h.1 _ _).trans ?_
      rw [Std.TreeMap.getElem?_insert_self]
      rfl
    | succ j =>
      rw [List.getElem?_cons_succ] at hj
      have htail : (lineIds lines).Nodup := by
        rw [lineIds, List.filterMap_cons] at h
        split at h
        · exact h
        · exact (List.nodup_cons.1 h).2
      rw [Nat.add_comm j 1, ← Nat.add_assoc]
      split
      · exact ih htail hj (k + 1) _
      · exact ih htail hj (k + 1) _

/-- Only lines with an id are in the index. -/
theorem of_indexLines_getElem? {lines : List Bytes} {id : Int} {n : Nat} (k : Nat)
    {m : Std.TreeMap Int Nat} (h : (indexLines lines k m)[id]? = some n) (hm : m[id]? ≠ some n) :
    ∃ j line p, n = k + j ∧ lines[j]? = some line ∧ splitColon line = some p ∧ atoll p.1 = id := by
  induction lines generalizing k m with
  | nil => exact absurd h hm
  | cons line lines ih =>
    have hlater : ∀ {m : Std.TreeMap Int Nat}, (indexLines lines (k + 1) m)[id]? = some n →
        m[id]? ≠ some n → ∃ j line' p, n = k + j ∧ (line :: lines)[j]? = some line' ∧
          splitColon line' = some p ∧ atoll p.1 = id := by
      intro m h hm
      obtain ⟨j, line', p, hn, hj, hp⟩ := ih (k + 1) h hm
      exact ⟨j + 1, line', p, by omega, hj, hp⟩
    rw [indexLines] at h
    split at h
    · next pre input hline =>
      by_cases hmem : (m.insert (atoll pre) k)[id]? = some n
      · rw [Std.TreeMap.getElem?_insert] at hmem
        split at hmem
        · next heq =>
          exact ⟨0, line, _, (Option.some.inj hmem).symm, rfl, hline, by simpa using heq⟩
        · exact absurd hmem hm
      · exact hlater h hmem
    · exact hlater h hm

/-- The tasks of some lines with distinct ids are found under their ids. -/
theorem addInputData_index {data : Bytes} (h : (lineIds (tokenize data)).Nodup) {i : Nat}
    {task : DPETask} (hi : (addInputData data {}).taskData[i]? = some task)
    (hp : task.state = .pending) :
    (addInputData data {}).id2idx[task.id]? = some i ∧
      -2 ^ 63 ≤ task.id ∧ task.id ≤ 2 ^ 63 - 1 := by
  rw [addInputData, List.getElem?_map, Option.map_eq_some_iff] at hi
  obtain ⟨line, hline, rfl⟩ := hi
  rw [taskOfLine] at hp ⊢
  split at hp
  · next id input hsplit =>
    have hfound := indexLines_getElem? h hline hsplit 0 (∅ : Std.TreeMap Int Nat)
    rw [Nat.zero_add] at hfound
    exact ⟨hfound, Decimal.clamp_mem (by decide) _⟩
  · cases hp

theorem getTask_of_index {s : DPEProjectState} {i : Nat} {task : DPETask}
    (hindex : s.id2idx[task.id]? = some i) (hi : s.taskData[i]? = some task) :
    s.getTask task.id (-1) = some i := by
  obtain ⟨hlt, hget⟩ := List.getElem?_eq_some_iff.1 hi
  simp [getTask, hindex, hlt, hget]

end DPEProjectState

/-! ## Files -/

abbrev FileSystem := String → Option Bytes

namespace FileSystem

def writeFile (path : String) (data : Bytes) (fs : FileSystem) : FileSystem := fun p =>
  if p = path then some data else fs p

/-- `ReplaceFile`: what is at `source` is moved to `target`. -/
def replaceFile (source target : String) (fs : FileSystem) : FileSystem :=
  match fs source with
  | some data => fun p => if p = target then some data else if p = source then none else fs p
  | none => fs

end FileSystem

/-- What the code uses of `base`: a dictionary of strings as JSON text and back, the MD5 of a text,
and the pieces of a path. -/
structure ProjectEnv where
  jsonWrite : List (String × String) → Option Bytes
  jsonRead : Bytes → Option (String → Option String)
  md5String : Bytes → String
  dirName : String → String
  append : String → String → String

/-! ## The project -/

structure DPEProject where
  jobName : String := ""
  jobHomePath : String := ""
  jobFilePath : String := ""
  rSourcePath : String := ""
  rWorkerPath : String := ""
  rSinkPath : String := ""
  sourcePath : String := ""
  sourceData : Bytes := []
  workerPath : String := ""
  workerData : Bytes := []
  sinkPath : String := ""
  sinkData : Bytes := []
  rDpeStatePath : String := ""
  dpeStatePath : String := ""
  dpeStateChecksum : String := ""
  deriving DecidableEq, Repr

namespace DPEProject

/-- The loop of `LoadSavedState`; the lines before a bad one have been taken. -/
def loadLines : List Bytes → DPEProjectState → Bool × DPEProjectState
  | [], state => (true, state)
  | line :: lines, state =>
    match splitColon line with
    | some (id, result) =>
      match state.getTask (atoll id) (-1) with
      | some i =>
        loadLines lines
          (state.setTask i fun task => { task with state := .finish, result := result })
      | none => loadLines lines state
    | none => (false, state)

def loadSavedState (env : ProjectEnv) (fs : FileSystem) (p : DPEProject)
    (state : DPEProjectState) : Bool × DPEProjectState :=
  match fs p.dpeStatePath with
  | none => (true, state)
  | some data =>
    if p.dpeStateChecksum ≠ "" ∧ p.dpeStateChecksum ≠ env.md5String data then (false, state)
    else loadLines (tokenize data) state

/-- The line of a finished task. -/
def stateLine (task : DPETask) : Bytes :=
  Decimal.bytes (toString task.id).toList ++ 58 :: task.result

/-- What `SaveProject` writes to the state file. -/
def stateData (state : DPEProjectState) : Bytes :=
  (state.taskData.filter (·.state = .finish)).flatMap fun task => stateLine task ++ [10]

def saveProject (env : ProjectEnv) (p : DPEProject) (state : DPEProjectState) (fs : FileSystem) :
    Option FileSystem :=
  let data := stateData state
  match env.jsonWrite
    [("name", p.jobName), ("dpe_state", p.rDpeStatePath), ("source", p.rSourcePath),
      ("worker", p.rWorkerPath), ("sink", p.rSinkPath),
      ("dpe_state_checksum", env.md5String data)] with
  | none => none
  | some projectData =>
    some (fs.replaceFile p.jobFilePath (p.jobFilePath ++ ".bak")
      |>.replaceFile p.dpeStatePath (p.dpeStatePath ++ ".bak")
      |>.writeFile p.jobFilePath projectData
      |>.writeFile p.dpeStatePath data)

def fromFile (env : ProjectEnv) (fs : FileSystem) (jobPath : String) : Option DPEProject := do
  let data ← fs jobPath
  let dv ← env.jsonRead data
  let home := env.dirName jobPath
  let rDpeStatePath := (dv "dpe_state").getD "dpe_state.txt"
  let rSourcePath ← dv "source"
  let rWorkerPath ← dv "worker"
  let rSinkPath ← dv "sink"
  let sourceData ← fs (env.append home rSourcePath)
  let workerData ← fs (env.append home rWorkerPath)
  let sinkData ← fs (env.append home rSinkPath)
  some
    { jobName := (dv "name").getD "Unknown"
      jobHomePath := home
      jobFilePath := jobPath
      rSourcePath := rSourcePath
      rWorkerPath := rWorkerPath
      rSinkPath := rSinkPath
      sourcePath := env.append home rSourcePath
      sourceData := sourceData
      workerPath := env.append home rWorkerPath
      workerData := workerData
      sinkPath := env.append home rSinkPath
      sinkData := sinkData
      rDpeStatePath := rDpeStatePath
      dpeStatePath := env.append home rDpeStatePath
      dpeStateChecksum := (dv "dpe_state_checksum").getD "" }

end DPEProject

end Dcfpe

import Dcfpe.Service.Project
import Mathlib.Data.List.Forall2

/-!
# What a saved state gives back

A result goes into the state file as it is, and the file is read back line by line.  So a result
with a line break in it is never given back (`noBreaks_loadLines`), and every other one is
(`loadLines_tasks`).  The checksum is the other obstacle: `SaveProject` writes the new one into the
project file and leaves the one in memory as it was.  A project that is read back has the new one.
-/

set_option autoImplicit false

namespace Dcfpe

/-! ## Lines -/

theorem noBreak_of_all {line : Bytes} (h : line.all (!isBreak ·) = true) :
    ∀ b ∈ line, isBreak b = false := fun b hb => by
  simpa using List.all_eq_true.1 h b hb

theorem tokenize_line {line : Bytes} (hne : line ≠ []) (hline : ∀ b ∈ line, isBreak b = false)
    (rest : Bytes) : tokenize (line ++ 10 :: rest) = line :: tokenize rest := by
  rw [tokenize, tokenize, List.splitOnP_append_cons_of_forall_mem hline 10 (by decide),
    List.filter_cons_of_pos (by simpa using hne)]

theorem noBreak_splitOnP {s t : Bytes} (ht : t ∈ s.splitOnP isBreak) :
    ∀ b ∈ t, isBreak b = false := by
  induction s generalizing t with
  | nil =>
    rw [List.splitOnP_nil, List.mem_singleton] at ht
    simp [ht]
  | cons b s ih =>
    rw [List.splitOnP_cons_eq_if_modifyHead] at ht
    split at ht
    · rcases List.mem_cons.1 ht with rfl | ht
      · simp
      · exact ih ht
    · next hb =>
      cases hs : s.splitOnP isBreak with
      | nil => exact absurd hs (List.splitOnP_ne_nil _ _)
      | cons u us =>
        rw [hs, List.modifyHead_cons] at ht
        rw [hs] at ih
        rcases List.mem_cons.1 ht with rfl | ht
        · intro c hc
          rcases List.mem_cons.1 hc with rfl | hc
          · exact Bool.not_eq_true _ ▸ hb
          · exact ih List.mem_cons_self c hc
        · exact ih (List.mem_cons_of_mem u ht)

theorem noBreak_tokenize {s t : Bytes} (ht : t ∈ tokenize s) : ∀ b ∈ t, isBreak b = false :=
  noBreak_splitOnP (List.mem_filter.1 ht).1

theorem splitColon_append {pre : Bytes} (hpre : (58 : UInt8) ∉ pre) (post : Bytes) :
    splitColon (pre ++ 58 :: post) = some (pre, post) := by
  have htake : (pre ++ 58 :: post).takeWhile (· ≠ 58) = pre := by
    rw [List.takeWhile_append_of_pos fun b hb => by
      simpa using fun h : b = 58 => hpre (h ▸ hb)]
    simp
  rw [splitColon, htake]
  simp

theorem mem_of_splitColon {line pre post : Bytes} (h : splitColon line = some (pre, post)) :
    ∀ b ∈ post, b ∈ line := by
  rw [splitColon] at h
  split at h
  · obtain ⟨-, rfl⟩ := Prod.mk.inj (Option.some_inj.1 h)
    exact fun b hb => List.mem_of_mem_drop hb
  · cases h

namespace DPEProject

/-! ## Loading -/

/-- The state file was written from tasks of these ids, of which only pending ones were finished. -/
def Worked (fresh state : DPEProjectState) : Prop :=
  List.Forall₂ (fun task task' =>
      task'.id = task.id ∧ (task'.state = .finish → task.state = .pending))
    fresh.taskData state.taskData

/-- No result of a finished task has a line break in it. -/
def NoBreaks (state : DPEProjectState) : Prop :=
  ∀ task ∈ state.taskData, task.state = .finish → ∀ b ∈ task.result, isBreak b = false

/-- A task as it was built, or finished with the result that it has in the other state. -/
def restoreTask (task task' : DPETask) : DPETask :=
  if task'.state = .finish then { task with state := .finish, result := task'.result } else task

/-- The finished tasks of `state`, with their results, among the tasks of `fresh`. -/
def restored (fresh state : DPEProjectState) : DPEProjectState :=
  { fresh with taskData := List.zipWith restoreTask fresh.taskData state.taskData }

theorem stateLine_spec {task : DPETask} (hlo : -2 ^ 63 ≤ task.id) (hhi : task.id ≤ 2 ^ 63 - 1) :
    ∃ id, splitColon (stateLine task) = some (id, task.result) ∧ atoll id = task.id := by
  refine ⟨_, splitColon_append (fun hmem => ?_) task.result, ?_⟩
  · rcases Decimal.mem_bytes_toString hmem with h | h
    · exact absurd h (by decide)
    · exact absurd h (by decide)
  · rw [atoll, Decimal.value_bytes_toString, Decimal.clamp_eq hlo hhi]

theorem noBreak_stateLine {task : DPETask} (h : ∀ b ∈ task.result, isBreak b = false) :
    ∀ b ∈ stateLine task, isBreak b = false := by
  intro b hb
  rcases List.mem_append.1 hb with hb | hb
  · have hnat := Decimal.mem_bytes_toString hb
    have h13 : b ≠ 13 := by rintro rfl; exact absurd hnat (by decide)
    have h10 : b ≠ 10 := by rintro rfl; exact absurd hnat (by decide)
    simp [isBreak, h13, h10]
  · rcases List.mem_cons.1 hb with rfl | hb
    · decide
    · exact h b hb

theorem stateLine_ne_nil (task : DPETask) : stateLine task ≠ [] := by
  simp [stateLine]

/-- The lines of some finished tasks finish these tasks again; `done` are the tasks before them. -/
theorem loadLines_tasks {id2idx : Std.TreeMap Int Nat} {todo todo' : List DPETask}
    (h : List.Forall₂
      (fun task task' => task'.id = task.id ∧ (task'.state = .finish → task.state = .pending))
      todo todo')
    (hbreak : ∀ task ∈ todo', task.state = .finish → ∀ b ∈ task.result, isBreak b = false)
    (done : List DPETask)
    (hindex : ∀ i task, todo[i]? = some task → task.state = .pending →
      id2idx[task.id]? = some (done.length + i) ∧ -2 ^ 63 ≤ task.id ∧ task.id ≤ 2 ^ 63 - 1) :
    loadLines
        (tokenize ((todo'.filter (·.state = .finish)).flatMap fun task => stateLine task ++ [10]))
        { id2idx := id2idx, taskData := done ++ todo } =
      (true, { id2idx := id2idx, taskData := done ++ List.zipWith restoreTask todo todo' }) := by
  induction h generalizing done with
  | nil => rfl
  | @cons task task' todo todo' hhead htail ih =>
    have hstep : ∀ task'', done ++ task'' :: todo = done ++ [task''] ++ todo := by simp
    have hnext : ∀ (task'' : DPETask) (i : Nat) (t : DPETask), todo[i]? = some t →
        t.state = .pending →
        id2idx[t.id]? = some ((done ++ [task'']).length + i) ∧
          -2 ^ 63 ≤ t.id ∧ t.id ≤ 2 ^ 63 - 1 := by
      intro task'' i t hi hp
      rw [List.length_append, List.length_singleton, Nat.add_assoc, Nat.add_comm 1]
      exact hindex (i + 1) t hi hp
    have ih := fun task'' =>
      ih (fun t ht => hbreak t (List.mem_cons_of_mem _ ht)) (done ++ [task''])
      (hnext task'')
    rw [List.zipWith_cons_cons, restoreTask]
    by_cases hfin : task'.state = .finish
    · obtain ⟨hidx, hlo, hhi⟩ := hindex 0 task rfl (hhead.2 hfin)
      rw [← hhead.1] at hlo hhi
      obtain ⟨id, hsplit, hid⟩ := stateLine_spec hlo hhi
      have hgetTask : DPEProjectState.getTask (atoll id) (-1)
          { id2idx := id2idx, taskData := done ++ task :: todo } = some done.length := by
        rw [hid, hhead.1]
        refine DPEProjectState.getTask_of_index hidx ?_
        rw [List.getElem?_append_right (Nat.le_refl _), Nat.sub_self]
        rfl
      rw [List.filter_cons_of_pos (by simpa using hfin), List.flatMap_cons, List.append_assoc,
        List.singleton_append, tokenize_line (stateLine_ne_nil task')
          (noBreak_stateLine (hbreak task' List.mem_cons_self hfin)), loadLines, hsplit]
      simp only [hgetTask, DPEProjectState.setTask, if_pos hfin]
      have hmodify : ∀ f : DPETask → DPETask,
          (done ++ task :: todo).modify done.length f = done ++ [f task] ++ todo := by
        intro f
        rw [List.modify_eq_take_cons_drop (by simp)]
        simp
      rw [hmodify, ih, List.append_assoc, List.singleton_append]
    · rw [List.filter_cons_of_neg (by simpa using hfin), if_neg hfin, hstep, ih, List.append_assoc,
        List.singleton_append]

/-- No loaded result has a line break in it. -/
theorem noBreaks_loadLines {lines : List Bytes}
    (hlines : ∀ line ∈ lines, ∀ b ∈ line, isBreak b = false) {state : DPEProjectState}
    (h : NoBreaks state) : NoBreaks (loadLines lines state).2 := by
  induction lines generalizing state with
  | nil => exact h
  | cons line lines ih =>
    have htail := fun l hl => hlines l (List.mem_cons_of_mem line hl)
    rw [loadLines]
    split
    · next id result hsplit =>
      split
      · next i hi =>
        refine ih htail fun task htask hfin => ?_
        rw [DPEProjectState.setTask] at htask
        obtain ⟨j, hj⟩ := List.mem_iff_getElem?.1 htask
        rw [List.getElem?_modify] at hj
        obtain ⟨old, hold, rfl⟩ := Option.map_eq_some_iff.1 hj
        by_cases hij : i = j
        · rw [if_pos hij]
          exact fun b hb => hlines line List.mem_cons_self b (mem_of_splitColon hsplit b hb)
        · rw [if_neg hij] at hfin ⊢
          exact h old (List.mem_of_getElem? hold) hfin
      · exact ih htail h
    · exact h

theorem noBreaks_of_restored {tasks tasks' : List DPETask}
    (h : List.Forall₂
      (fun task task' => task'.id = task.id ∧ (task'.state = .finish → task.state = .pending))
      tasks tasks')
    (hbreak : ∀ task ∈ List.zipWith restoreTask tasks tasks', task.state = .finish →
      ∀ b ∈ task.result, isBreak b = false) :
    ∀ task' ∈ tasks', task'.state = .finish → ∀ b ∈ task'.result, isBreak b = false := by
  induction h with
  | nil => simp
  | @cons task task' tasks tasks' hhead htail ih =>
    rw [List.zipWith_cons_cons] at hbreak
    intro t ht hfin
    rcases List.mem_cons.1 ht with rfl | ht
    · have hhere := hbreak _ List.mem_cons_self
      rw [restoreTask, if_pos hfin] at hhere
      exact hhere rfl
    · exact ih (fun t ht => hbreak t (List.mem_cons_of_mem _ ht)) t ht hfin

/-- What was saved is loaded again exactly if no result has a line break in it. -/
theorem loadLines_iff {data : Bytes} (hids : (lineIds (tokenize data)).Nodup)
    {state : DPEProjectState} (hw : Worked (.addInputData data {}) state) :
    loadLines (tokenize (stateData state)) (.addInputData data {}) =
      (true, restored (.addInputData data {}) state) ↔ NoBreaks state := by
  constructor
  · intro h
    have hfresh : NoBreaks (.addInputData data {}) := by
      intro task htask hfin
      obtain ⟨line, -, rfl⟩ := List.mem_map.1 htask
      rw [DPEProjectState.taskOfLine] at hfin
      split at hfin <;> cases hfin
    have hloaded := noBreaks_loadLines (fun line => noBreak_tokenize (s := stateData state)) hfresh
    rw [h] at hloaded
    exact noBreaks_of_restored hw hloaded
  · intro h
    refine loadLines_tasks hw h [] fun i task hi hp => ?_
    rw [List.length_nil, Nat.zero_add]
    exact DPEProjectState.addInputData_index hids hi hp

/-! ## Files -/

/-- `IsValidCharacter`: the code points that the JSON reader takes as they are. -/
def isValidCharacter (codePoint : Nat) : Bool :=
  codePoint < 0xD800 || 0xE000 ≤ codePoint && codePoint < 0xFDD0 ||
    0xFDEF < codePoint && codePoint ≤ 0x10FFFF && codePoint &&& 0xFFFE != 0xFFFE

/-- A text that JSON gives back: the reader loses an escaped NUL, and refuses a non-character. -/
def JsonSafe (s : String) : Prop := ∀ c ∈ s.toList, c.toNat ≠ 0 ∧ isValidCharacter c.toNat = true

instance : DecidablePred JsonSafe := fun s => List.decidableBAll _ s.toList

/-- The keys that `SaveProject` writes. -/
def projectKeys : List String :=
  ["name", "dpe_state", "source", "worker", "sink", "dpe_state_checksum"]

/-- What the code relies on: JSON gives back a project that it has written, and takes no text for
one that is empty or starts like a number; a checksum is a text like any other. -/
structure JsonFaithful (env : ProjectEnv) : Prop where
  read_write : ∀ kv data, kv.map Prod.fst = projectKeys → (∀ p ∈ kv, JsonSafe p.2) →
    env.jsonWrite kv = some data →
    ∃ dv, env.jsonRead data = some dv ∧ ∀ key ∈ projectKeys, dv key = kv.lookup key
  read_number : ∀ data : Bytes, (∀ b ∈ data.head?, b.toNat = 45 ∨ 48 ≤ b.toNat ∧ b.toNat ≤ 57) →
    env.jsonRead data = none
  md5_safe : ∀ data, JsonSafe (env.md5String data)

/-- The name and the paths of the project. -/
def Safe (p : DPEProject) : Prop :=
  ∀ s ∈ [p.jobName, p.rDpeStatePath, p.rSourcePath, p.rWorkerPath, p.rSinkPath], JsonSafe s

instance : DecidablePred Safe := fun p =>
  inferInstanceAs (Decidable (∀ s ∈ [p.jobName, p.rDpeStatePath, p.rSourcePath, p.rWorkerPath,
    p.rSinkPath], JsonSafe s))

theorem stateData_head (state : DPEProjectState) :
    ∀ b ∈ (stateData state).head?, b.toNat = 45 ∨ 48 ≤ b.toNat ∧ b.toNat ≤ 57 := by
  rw [stateData]
  cases hfin : state.taskData.filter (·.state = .finish) with
  | nil => simp
  | cons task tasks =>
    intro b hb
    rw [List.flatMap_cons, stateLine] at hb
    cases hid : Decimal.bytes (toString task.id).toList with
    | nil =>
      rw [Decimal.bytes, List.map_eq_nil_iff] at hid
      exact absurd hid (Decimal.toString_ne_nil task.id)
    | cons c cs =>
      rw [hid] at hb
      obtain rfl := Option.mem_some.1 hb
      exact Decimal.mem_bytes_toString (hid ▸ List.mem_cons_self)

theorem saveProject_state {env : ProjectEnv} {p : DPEProject} {state : DPEProjectState}
    {fs fs' : FileSystem} (h : saveProject env p state fs = some fs') :
    fs' p.dpeStatePath = some (stateData state) := by
  simp only [saveProject] at h
  split at h
  · cases h
  · rw [← Option.some_inj.1 h]
    simp [FileSystem.writeFile]

/-- What is read of a project, from the dictionary of its file. -/
structure ReadFrom (env : ProjectEnv) (fs : FileSystem) (jobPath : String)
    (dv : String → Option String) (p : DPEProject) : Prop where
  jobFilePath : p.jobFilePath = jobPath
  rDpeStatePath : p.rDpeStatePath = (dv "dpe_state").getD "dpe_state.txt"
  dpeStatePath : p.dpeStatePath = env.append (env.dirName jobPath) p.rDpeStatePath
  checksum : p.dpeStateChecksum = (dv "dpe_state_checksum").getD ""
  source : dv "source" = some p.rSourcePath
  sourcePath : p.sourcePath = env.append (env.dirName jobPath) p.rSourcePath
  worker : dv "worker" = some p.rWorkerPath
  workerPath : p.workerPath = env.append (env.dirName jobPath) p.rWorkerPath
  sink : dv "sink" = some p.rSinkPath
  sinkPath : p.sinkPath = env.append (env.dirName jobPath) p.rSinkPath
  programs : ∀ path ∈ [p.sourcePath, p.workerPath, p.sinkPath], (fs path).isSome = true

theorem fromFile_spec {env : ProjectEnv} {fs : FileSystem} {jobPath : String} {p : DPEProject}
    (h : fromFile env fs jobPath = some p) :
    ∃ data dv, fs jobPath = some data ∧ env.jsonRead data = some dv ∧
      ReadFrom env fs jobPath dv p := by
  simp only [fromFile, Option.bind_eq_bind, Option.bind_eq_some_iff] at h
  obtain ⟨data, hdata, dv, hdv, rs, hrs, rw, hrw, rk, hrk, sd, hsd, wd, hwd, kd, hkd, hp⟩ := h
  obtain rfl := Option.some_inj.1 hp
  refine ⟨data, dv, hdata, hdv, rfl, rfl, rfl, rfl, hrs, rfl, hrw, rfl, hrk, rfl, ?_⟩
  simp [hsd, hwd, hkd]

/-- A project is read if its file is a dictionary with the three programs, and these are there. -/
theorem fromFile_isSome {env : ProjectEnv} {fs : FileSystem} {jobPath : String} {data : Bytes}
    {dv : String → Option String} {source worker sink : String} (hdata : fs jobPath = some data)
    (hread : env.jsonRead data = some dv) (hsource : dv "source" = some source)
    (hworker : dv "worker" = some worker) (hsink : dv "sink" = some sink)
    (hprograms : ∀ path ∈ [source, worker, sink],
      (fs (env.append (env.dirName jobPath) path)).isSome = true) :
    ∃ p, fromFile env fs jobPath = some p := by
  simp only [List.mem_cons, List.not_mem_nil, or_false, forall_eq_or_imp, forall_eq,
    Option.isSome_iff_exists] at hprograms
  obtain ⟨⟨sd, hsd⟩, ⟨wd, hwd⟩, ⟨kd, hkd⟩⟩ := hprograms
  simp [fromFile, hdata, hread, hsource, hworker, hsink, hsd, hwd, hkd]

section
variable {env : ProjectEnv} {fs₀ fs fs' : FileSystem} {jobPath : String} {p p' : DPEProject}
  {state : DPEProjectState}

/-- What `SaveProject` has moved away it has written again. -/
theorem saveProject_keeps (h : saveProject env p state fs = some fs') {path : String}
    (hpath : (fs path).isSome = true) : (fs' path).isSome = true := by
  have hreplace (fs : FileSystem) (source target : String) (hpath : (fs path).isSome = true)
      (hne : path ≠ source) : (fs.replaceFile source target path).isSome = true := by
    rw [FileSystem.replaceFile]
    rcases fs source with _ | data
    · exact hpath
    · by_cases htarget : path = target
      · simp [htarget]
      · simpa [htarget, hne] using hpath
  simp only [saveProject] at h
  split at h
  · cases h
  · rw [← Option.some_inj.1 h]
    by_cases hstate : path = p.dpeStatePath
    · simp [FileSystem.writeFile, hstate]
    · by_cases hjob : path = p.jobFilePath
      · rw [FileSystem.writeFile, if_neg hstate, FileSystem.writeFile, if_pos hjob]
        rfl
      · simp only [FileSystem.writeFile, hstate, hjob, if_false]
        exact hreplace _ _ _ (hreplace fs _ _ hpath hjob) hstate

/-- The project file after the project was saved: it does not read as one if the state has
overwritten it. -/
theorem read_saveProject (henv : JsonFaithful env) (hp : fromFile env fs₀ jobPath = some p)
    (hsafe : p.Safe) (hsave : saveProject env p state fs = some fs') :
    (jobPath = p.dpeStatePath → fs' jobPath = some (stateData state) ∧
      env.jsonRead (stateData state) = none) ∧
    (jobPath ≠ p.dpeStatePath → ∃ data dv, fs' jobPath = some data ∧
      env.jsonRead data = some dv ∧ dv "dpe_state" = some p.rDpeStatePath ∧
      dv "source" = some p.rSourcePath ∧ dv "worker" = some p.rWorkerPath ∧
      dv "sink" = some p.rSinkPath ∧
      dv "dpe_state_checksum" = some (env.md5String (stateData state))) := by
  obtain ⟨_, _, -, -, hread⟩ := fromFile_spec hp
  refine ⟨fun heq => ⟨?_, henv.read_number _ (stateData_head state)⟩, fun hne => ?_⟩
  · rw [heq]
    exact saveProject_state hsave
  · simp only [saveProject] at hsave
    split at hsave
    · cases hsave
    · next projectData hwrite =>
      have hvalues : ∀ kv ∈ [("name", p.jobName), ("dpe_state", p.rDpeStatePath),
          ("source", p.rSourcePath), ("worker", p.rWorkerPath), ("sink", p.rSinkPath),
          ("dpe_state_checksum", env.md5String (stateData state))], JsonSafe kv.2 := by
        have hsum := henv.md5_safe (stateData state)
        simpa [Safe, hsum] using hsafe
      obtain ⟨dv, hdv, hget⟩ := henv.read_write _ projectData rfl hvalues hwrite
      have hdata : fs' jobPath = some projectData := by
        rw [← Option.some_inj.1 hsave]
        simp [FileSystem.writeFile, hne, hread.jobFilePath]
      refine ⟨projectData, dv, hdata, hdv, ?_, ?_, ?_, ?_, ?_⟩ <;>
        exact (hget _ (by decide)).trans rfl

/-- A project that is read back after it was saved has the state file and its checksum. -/
theorem fromFile_saveProject (henv : JsonFaithful env) (hp : fromFile env fs₀ jobPath = some p)
    (hsafe : p.Safe) (hsave : saveProject env p state fs = some fs')
    (hp' : fromFile env fs' jobPath = some p') :
    jobPath ≠ p.dpeStatePath ∧ p'.dpeStatePath = p.dpeStatePath ∧
      p'.dpeStateChecksum = env.md5String (stateData state) ∧
      ∀ path ∈ [p.sourcePath, p.workerPath, p.sinkPath], (fs' path).isSome = true := by
  obtain ⟨_, _, -, -, h⟩ := fromFile_spec hp
  obtain ⟨data, dv, hdata, hdv, h'⟩ := fromFile_spec hp'
  obtain ⟨hover, hread⟩ := read_saveProject henv hp hsafe hsave
  have hne : jobPath ≠ p.dpeStatePath := by
    intro heq
    obtain ⟨hstate, hnone⟩ := hover heq
    obtain rfl := Option.some_inj.1 (hstate.symm.trans hdata)
    rw [hnone] at hdv
    cases hdv
  obtain ⟨data', dv', hdata', hdv', hdpe, hsource, hworker, hsink, hsum⟩ := hread hne
  obtain rfl := Option.some_inj.1 (hdata'.symm.trans hdata)
  obtain rfl := Option.some_inj.1 (hdv'.symm.trans hdv)
  refine ⟨hne, ?_, by rw [h'.checksum, hsum, Option.getD_some], ?_⟩
  · rw [h'.dpeStatePath, h'.rDpeStatePath, hdpe, Option.getD_some, h.dpeStatePath]
  · have hrs := Option.some_inj.1 (h'.source.symm.trans hsource)
    have hrw := Option.some_inj.1 (h'.worker.symm.trans hworker)
    have hrk := Option.some_inj.1 (h'.sink.symm.trans hsink)
    rw [h.sourcePath, h.workerPath, h.sinkPath, ← hrs, ← hrw, ← hrk, ← h'.sourcePath,
      ← h'.workerPath, ← h'.sinkPath]
    exact h'.programs

/-- A saved project can be read back, if its state has not overwritten it and its programs are still
there. -/
theorem fromFile_of_saveProject (henv : JsonFaithful env) (hp : fromFile env fs₀ jobPath = some p)
    (hsafe : p.Safe) (hsave : saveProject env p state fs = some fs')
    (hne : jobPath ≠ p.dpeStatePath)
    (hprograms : ∀ path ∈ [p.sourcePath, p.workerPath, p.sinkPath], (fs' path).isSome = true) :
    ∃ p', fromFile env fs' jobPath = some p' := by
  obtain ⟨_, _, -, -, h⟩ := fromFile_spec hp
  obtain ⟨data, dv, hdata, hdv, -, hsource, hworker, hsink, -⟩ :=
    (read_saveProject henv hp hsafe hsave).2 hne
  refine fromFile_isSome hdata hdv hsource hworker hsink ?_
  rw [h.sourcePath, h.workerPath, h.sinkPath] at hprograms
  simpa using hprograms

end

/-! ## The round trip -/

/-- **When a saved project gives back its results.**  Loaded into tasks built from the same input,
the state that `SaveProject` has written gives back the finished tasks with their results and leaves
the others as they were built: through the same object exactly if no result of a finished task has a
line break in it and its checksum is empty or happens to be that of what was written; through one
read back from the project file exactly if, besides the line breaks, the state file is not the
project file itself and the three programs can be read. -/
theorem round_trip_iff {env : ProjectEnv} (henv : JsonFaithful env) {fs₀ : FileSystem}
    {jobPath : String} {p : DPEProject} (hp : fromFile env fs₀ jobPath = some p) (hsafe : p.Safe)
    {data : Bytes} (hids : (lineIds (tokenize data)).Nodup) {state : DPEProjectState}
    (hw : Worked (.addInputData data {}) state) {fs fs' : FileSystem}
    (hsave : saveProject env p state fs = some fs') :
    (loadSavedState env fs' p (.addInputData data {}) =
        (true, restored (.addInputData data {}) state) ↔
      NoBreaks state ∧
        (p.dpeStateChecksum = "" ∨ p.dpeStateChecksum = env.md5String (stateData state))) ∧
    ((∃ p', fromFile env fs' jobPath = some p' ∧
        loadSavedState env fs' p' (.addInputData data {}) =
          (true, restored (.addInputData data {}) state)) ↔
      NoBreaks state ∧ jobPath ≠ p.dpeStatePath ∧
        ∀ path ∈ [p.sourcePath, p.workerPath, p.sinkPath], (fs' path).isSome = true) := by
  have hstate := saveProject_state hsave
  have hload := loadLines_iff hids hw
  have hback : ∀ p', fromFile env fs' jobPath = some p' →
      (loadSavedState env fs' p' (.addInputData data {}) =
        (true, restored (.addInputData data {}) state) ↔ NoBreaks state) := by
    intro p' hp'
    obtain ⟨-, hpath, hsum, -⟩ := fromFile_saveProject henv hp hsafe hsave hp'
    simp only [loadSavedState, hpath, hstate, hsum]
    rw [if_neg fun h => h.2 rfl, hload]
  refine ⟨?_, ?_, ?_⟩
  · simp only [loadSavedState, hstate]
    by_cases hsum : p.dpeStateChecksum ≠ "" ∧
        p.dpeStateChecksum ≠ env.md5String (stateData state)
    · rw [if_pos hsum]
      refine iff_of_false (fun h => by cases h) fun h => ?_
      exact h.2.elim hsum.1 hsum.2
    · rw [if_neg hsum, hload]
      rw [not_and_or, not_ne_iff, not_ne_iff] at hsum
      exact (and_iff_left hsum).symm
  · rintro ⟨p', hp', hrestored⟩
    obtain ⟨hne, -, -, hprograms⟩ := fromFile_saveProject henv hp hsafe hsave hp'
    exact ⟨(hback p' hp').1 hrestored, hne, hprograms⟩
  · rintro ⟨hbreaks, hne, hprograms⟩
    obtain ⟨p', hp'⟩ := fromFile_of_saveProject henv hp hsafe hsave hne hprograms
    exact ⟨p', hp', (hback p' hp').2 hbreaks⟩

/-! A project file with three programs, and what becomes of it when it is saved with a checksum. -/

def sampleFields : List (String × String) :=
  [("name", "sample"), ("source", "source.py"), ("worker", "worker.py"), ("sink", "sink.py")]

def sampleText : Bytes := Decimal.bytes ("\x7b\"name\": \"sample\", \"source\": \"source.py\", " ++
  "\"worker\": \"worker.py\", \"sink\": \"sink.py\"\x7d").toList

def savedFields (checksum : String) : List (String × String) :=
  [("name", "sample"), ("dpe_state", "dpe_state.txt"), ("source", "source.py"),
    ("worker", "worker.py"), ("sink", "sink.py"), ("dpe_state_checksum", checksum)]

def savedText (checksum : String) : Bytes := Decimal.bytes
  ("\x7b\r\n   \"dpe_state\": \"dpe_state.txt\",\r\n   \"dpe_state_checksum\": \"".toList ++
    checksum.toList ++ ("\",\r\n   \"name\": \"sample\",\r\n   \"sink\": \"sink.py\",\r\n   " ++
    "\"source\": \"source.py\",\r\n   \"worker\": \"worker.py\"\r\n\x7d\r\n").toList)

def sampleEnv (checksum : String) : ProjectEnv where
  jsonWrite kv := if kv = savedFields checksum then some (savedText checksum) else none
  jsonRead data :=
    if data = savedText checksum then some fun key => (savedFields checksum).lookup key
    else if data = sampleText then some fun key => sampleFields.lookup key
    else none
  md5String _ := checksum
  dirName _ := "C:\\job"
  append home path := home ++ "\\" ++ path

def sampleFiles : FileSystem := fun path =>
  if path = "C:\\job\\sample.dpe" then some sampleText
  else if path ∈ ["C:\\job\\source.py", "C:\\job\\worker.py", "C:\\job\\sink.py"] then some []
  else none

theorem sampleEnv_faithful {checksum : String} (hsum : JsonSafe checksum) :
    JsonFaithful (sampleEnv checksum) := by
  refine ⟨?_, ?_, fun _ => hsum⟩
  · intro kv data _ _ hwrite
    simp only [sampleEnv] at hwrite ⊢
    split at hwrite
    · next hkv =>
      obtain rfl := Option.some_inj.1 hwrite
      exact ⟨_, if_pos rfl, fun key _ => by rw [hkv]⟩
    · cases hwrite
  · intro data hdata
    have hbrace : data.head? ≠ some 123 := fun h => absurd (hdata 123 h) (by decide)
    have hsaved : data ≠ savedText checksum := by rintro rfl; exact hbrace rfl
    have hsample : data ≠ sampleText := by rintro rfl; exact hbrace rfl
    simp only [sampleEnv]
    rw [if_neg hsaved, if_neg hsample]

/-- The sample, read from its file. -/
def sample : DPEProject :=
  { jobName := "sample"
    jobHomePath := "C:\\job"
    jobFilePath := "C:\\job\\sample.dpe"
    rSourcePath := "source.py"
    rWorkerPath := "worker.py"
    rSinkPath := "sink.py"
    sourcePath := "C:\\job\\source.py"
    workerPath := "C:\\job\\worker.py"
    sinkPath := "C:\\job\\sink.py"
    rDpeStatePath := "dpe_state.txt"
    dpeStatePath := "C:\\job\\dpe_state.txt" }

theorem fromFile_sample (checksum : String) :
    fromFile (sampleEnv checksum) sampleFiles "C:\\job\\sample.dpe" = some sample := by
  have hne : sampleText ≠ savedText checksum := by
    intro h
    have hsecond : (some 34 : Option UInt8) = some 13 := congrArg (·[1]?) h
    exact absurd hsecond (by decide)
  have hread :
      (sampleEnv checksum).jsonRead sampleText = some fun key => sampleFields.lookup key := by
    rw [sampleEnv]
    simp only [hne, if_false, if_true]
  simp only [fromFile]
  rw [show sampleFiles "C:\\job\\sample.dpe" = some sampleText from rfl, Option.bind_eq_bind,
    Option.bind_some, hread]
  rfl

/-- A state of the sample in which the first of its two tasks is finished. -/
def sampleState (result : Bytes) : DPEProjectState :=
  { taskData := [{ id := 1, state := .finish, input := [120], result := result },
      { id := 2, state := .running, input := [121] }] }

/-- The two lines that the source program of the sample prints, `1:x` and `2:y`. -/
def sampleInput : Bytes := [49, 58, 120, 10, 50, 58, 121, 10]

theorem worked_sampleState (result : Bytes) :
    Worked (.addInputData sampleInput {}) (sampleState result) := by
  exact .cons ⟨rfl, fun _ => rfl⟩ (.cons ⟨rfl, fun _ => rfl⟩ .nil)

/-- A result without a line break comes back, through the project that was saved and through the
same project read back. -/
theorem round_trip_sample :
    ∃ fs', saveProject (sampleEnv "7061fb9304105da82ad38733263fdab0") sample
        (sampleState (Decimal.bytes "12".toList)) sampleFiles = some fs' ∧
      loadSavedState (sampleEnv "7061fb9304105da82ad38733263fdab0") fs' sample
          (.addInputData sampleInput {}) =
        (true, restored (.addInputData sampleInput {})
          (sampleState (Decimal.bytes "12".toList))) ∧
      ∃ p', fromFile (sampleEnv "7061fb9304105da82ad38733263fdab0") fs' "C:\\job\\sample.dpe" =
          some p' ∧
        loadSavedState (sampleEnv "7061fb9304105da82ad38733263fdab0") fs' p'
            (.addInputData sampleInput {}) =
          (true, restored (.addInputData sampleInput {})
            (sampleState (Decimal.bytes "12".toList))) := by
  have hsave : saveProject (sampleEnv "7061fb9304105da82ad38733263fdab0") sample
      (sampleState (Decimal.bytes "12".toList)) sampleFiles = some _ := rfl
  have hbreaks : NoBreaks (sampleState (Decimal.bytes "12".toList)) := by
    intro task htask
    rcases List.mem_cons.1 htask with rfl | htask
    · exact fun _ => noBreak_of_all rfl
    · rw [List.mem_singleton.1 htask]
      exact fun h => by cases h
  have hprograms : ∀ path ∈ [sample.sourcePath, sample.workerPath, sample.sinkPath],
      (sampleFiles path).isSome = true := by decide
  obtain ⟨hsame, hback⟩ := round_trip_iff (sampleEnv_faithful (by decide))
    (fromFile_sample _) (by decide) (by decide) (worked_sampleState _) hsave
  exact ⟨_, hsave, hsame.2 ⟨hbreaks, .inl rfl⟩, hback.2 ⟨hbreaks, by decide, fun path hpath =>
    saveProject_keeps hsave (hprograms path hpath)⟩⟩

/-- A result of two lines does not come back: the second line has no colon. -/
theorem line_break_lost :
    ¬ ∀ (env : ProjectEnv), JsonFaithful env → ∀ (fs₀ : FileSystem) (jobPath : String)
        (p : DPEProject), fromFile env fs₀ jobPath = some p → p.Safe → ∀ (data : Bytes),
      (lineIds (tokenize data)).Nodup → ∀ (state : DPEProjectState),
      Worked (.addInputData data {}) state → ∀ (fs fs' : FileSystem),
      saveProject env p state fs = some fs' →
      loadSavedState env fs' p (.addInputData data {}) =
        (true, restored (.addInputData data {}) state) := by
  intro h
  have hload := h (sampleEnv "ded98a2373c19980c250bbbb86383907")
    (sampleEnv_faithful (by decide)) sampleFiles _ sample (fromFile_sample _)
    (by decide) sampleInput (by decide) (sampleState (Decimal.bytes "a\nb".toList))
    (worked_sampleState _) sampleFiles _ rfl
  have hfirst := congrArg Prod.fst hload
  exact absurd hfirst (by decide)

end DPEProject

end Dcfpe

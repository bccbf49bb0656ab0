import Dcfpe.Lib.Tokens
import Dcfpe.Shell.LocalServerNode

/-!
# Deploy scripts

A deploy package names resources, and for each of several deploys its hosts and commands.
`DeployScriptCompiler::compile` makes operations of it, one for each host, each with the id of the
operation that comes next; `ScriptEngine` runs the operation with the id it is at, and goes on with
the one that its end names.

`visits_all_iff` says when the chain leads through all of them, and in which runs the engine follows
it: for `stop` every operation names the exit, and a shell that tells of its stop twice has the
engine run the next operation twice.

The functions are those of `script_engine.cc`.  What they ask of `base::FilePath` and of the files
is a parameter, and so is the text format of the package.
-/

set_option autoImplicit false

namespace Dcfpe.Rs

open Tokens

/-! ## Packages -/

structure Resource where
  localDir : Text := []
  files : List Text := []
  deriving DecidableEq, Repr

structure RemoteCommands where
  hosts : List Text := []
  targetDir : Text := []
  deploy : List Text := []
  stop : List Text := []
  deriving DecidableEq, Repr

structure DeployPackage where
  name : Text := []
  resource : Resource := {}
  deploys : List RemoteCommands := []
  deriving DecidableEq, Repr

/-- Paths, in UTF-8 as in the package. -/
structure Paths extends Files where
  isAbsolute : Text → Bool := fun _ => true
  dirName : Text → Text := id
  append : Text → Text → Text := fun dir path => dir ++ '/' :: path
  makeAbsoluteFilePath : Text → Text := id

/-! ## The compiler -/

/-- `InternalOperation::EXIT`. -/
def exit : Int := -1

structure BatchOperation where
  id : Int
  target : Text
  commands : List Text
  onSucceed : Int
  onFailed : Int
  deriving DecidableEq, Repr

/-- What `compile` ends with: its `false`, its `true` and the operations, or the element it asks an
empty vector for, which there is not. -/
inductive Compiled where
  | failed
  | operations (result : List BatchOperation)
  | backOfEmpty
  deriving DecidableEq, Repr

namespace DeployScriptCompiler

def resourcePath (paths : Paths) (absFilePath : Text) (resource : Resource) : Text :=
  if paths.isAbsolute resource.localDir then resource.localDir
  else
    paths.makeAbsoluteFilePath (paths.append (paths.dirName absFilePath) resource.localDir)

/-- The local path of a resource file. -/
def srcPath (paths : Paths) (resourcePath file : Text) : Text :=
  paths.makeAbsoluteFilePath (paths.append resourcePath file)

/-- The local `targetDir` of `compile`, where the files go. -/
def targetPrefix (targetDir : Text) : Text :=
  if targetDir ≠ [] ∧ targetDir.getLast? ≠ some '/' then targetDir ++ ['/'] else targetDir

def destPath (targetDir file : Text) : Text := targetPrefix targetDir ++ file

def mkdirLine (targetDir : Text) : Text := "mkdir ".toList ++ targetDir

def fstLine (srcPath destPath : Text) : Text :=
  "fst ".toList ++ srcPath ++ " ".toList ++ destPath

/-- The lines that `deploy` puts before those of the package. -/
def resourceLines (paths : Paths) (resourcePath : Text) (files : List Text) (targetDir : Text) :
    List Text :=
  (if targetDir ≠ [] then [mkdirLine targetDir] else []) ++
    files.map fun file => fstLine (srcPath paths resourcePath file) (destPath targetDir file)

/-- The local `cmds` of the action `deploy`. -/
def deployCommands (paths : Paths) (resourcePath : Text) (files : List Text)
    (deploy : RemoteCommands) : List Text :=
  resourceLines paths resourcePath files deploy.targetDir ++ deploy.deploy

/-- The loop over the hosts of a deploy; `onSucceed` is what an operation is given, which may be the
next id. -/
def hostOperations (cmds : List Text) (onSucceed : Int → Int) : Int → List Text →
    List BatchOperation
  | _, [] => []
  | nextId, host :: hosts =>
    { id := nextId
      target := host
      commands := cmds
      onSucceed := onSucceed (nextId + 1)
      onFailed := exit } :: hostOperations cmds onSucceed (nextId + 1) hosts

/-- The loop over the deploys. -/
def operations (cmds : RemoteCommands → List Text) (onSucceed : Int → Int) :
    Int → List RemoteCommands → List BatchOperation
  | _, [] => []
  | nextId, deploy :: deploys =>
    hostOperations (cmds deploy) onSucceed nextId deploy.hosts ++
      operations cmds onSucceed (nextId + deploy.hosts.length) deploys

/-- `result.back().onSucceed = EXIT; return true;` -/
def finish (result : List BatchOperation) : Compiled :=
  match result.getLast? with
  | some back => .operations (result.dropLast ++ [{ back with onSucceed := exit }])
  | none => .backOfEmpty

/-- The package has a name, and its resources are there. -/
def Found (paths : Paths) (absFilePath : Text) (package : DeployPackage) : Prop :=
  package.name ≠ [] ∧
    paths.pathExists (resourcePath paths absFilePath package.resource) = true ∧
    ∀ file ∈ package.resource.files,
      paths.pathExists (srcPath paths (resourcePath paths absFilePath package.resource) file) = true

instance (paths : Paths) (absFilePath : Text) (package : DeployPackage) :
    Decidable (Found paths absFilePath package) :=
  inferInstanceAs (Decidable (_ ∧ _ ∧ _))

def compile (paths : Paths) (absFilePath : Text) (package : DeployPackage) (action : Text) :
    Compiled :=
  if Found paths absFilePath package then
    if action = "deploy".toList then
      finish (operations
        (deployCommands paths (resourcePath paths absFilePath package.resource)
          package.resource.files)
        id 0 package.deploys)
    else if action = "stop".toList then
      finish (operations RemoteCommands.stop (fun _ => exit) 0 package.deploys)
    else .failed
  else .failed

end DeployScriptCompiler

/-! ## The engine -/

/-- What is posted to the UI thread. -/
inductive EngineTask where
  | executeNextOperation
  /-- `BatchExecuteShell::stop`; the shells are numbered from 1 in the order of their start. -/
  | stop (shell : Nat) (succeed : Bool)
  | exitImpl
  deriving DecidableEq, Repr

structure ScriptEngine where
  scriptOperations : List BatchOperation := []
  nextOperationId : Int := 0
  /-- `none` is the -1 of the code. -/
  runningOperationIdx : Option Nat := none
  /-- What is posted to the UI thread. -/
  tasks : List EngineTask := []
  /-- The targets and command lines that `shell->start` was called with.  The engine keeps the last
  of these shells. -/
  started : List (Text × List Text) := []
  /-- `exitImpl` has deleted the engine, and with it its shell. -/
  deleted : Bool := false
  deriving DecidableEq, Repr

namespace ScriptEngine

def post (s : ScriptEngine) (task : EngineTask) : ScriptEngine :=
  { s with tasks := s.tasks ++ [task] }

def willExecuteNextOperation (s : ScriptEngine) : ScriptEngine := s.post .executeNextOperation

def willExit (s : ScriptEngine) : ScriptEngine := s.post .exitImpl

def executeNextOperationImpl (s : ScriptEngine) : ScriptEngine :=
  if s.nextOperationId = exit then s.willExit
  else
    match s.scriptOperations.findIdx? (·.id = s.nextOperationId) with
    | none => { s with runningOperationIdx := none }.willExit
    | some idx =>
      { s with
        runningOperationIdx := some idx
        started := s.started ++
          (s.scriptOperations[idx]?.map fun t => (t.target, t.commands)).toList }

/-- `none` if it reads `scriptOperations[-1]`. -/
def onStop (s : ScriptEngine) (succeed : Bool) : Option ScriptEngine :=
  (s.runningOperationIdx.bind (s.scriptOperations[·]?)).map fun t =>
    { s with
      nextOperationId := if succeed then t.onSucceed else t.onFailed }.willExecuteNextOperation

/-- `runScript` behind the compiler. -/
def start (result : List BatchOperation) : ScriptEngine :=
  match result with
  | [] => ({} : ScriptEngine).willExit
  | t :: _ =>
    { scriptOperations := result, nextOperationId := t.id : ScriptEngine }.willExecuteNextOperation

/-- `runScript`, unless the compiler does what has no meaning. -/
def runScript (paths : Paths) (parse : Text → Option DeployPackage) (filePath action : Text) :
    Option ScriptEngine :=
  let absFilePath := paths.makeAbsoluteFilePath filePath
  if paths.pathExists absFilePath then
    match (paths.read absFilePath).bind parse with
    | some package =>
      match DeployScriptCompiler.compile paths absFilePath package action with
      | .operations result => some (start result)
      | .failed => some ({} : ScriptEngine).willExit
      | .backOfEmpty => none
    | none => some ({} : ScriptEngine).willExit
  else some ({} : ScriptEngine).willExit

/-- The UI thread runs a task.  `executeNextOperation` and `stop` look at a weak pointer first, to
the engine and to the shell; a second `exitImpl` would delete the engine again. -/
def runTask (s : ScriptEngine) : EngineTask → Option ScriptEngine
  | .executeNextOperation => some (if s.deleted then s else s.executeNextOperationImpl)
  | .stop shell succeed =>
    if s.deleted = false ∧ shell = s.started.length then s.onStop succeed else some s
  | .exitImpl => if s.deleted then none else some { s with deleted := true }

inductive Action where
  /-- The UI thread runs the next task. -/
  | task
  /-- The shell of the engine calls `willStop`. -/
  | willStop (succeed : Bool)
  deriving DecidableEq, Repr

def step : Machine ScriptEngine Action
  | s, .task =>
    match s.tasks with
    | task :: tasks => { s with tasks := tasks }.runTask task
    | [] => none
  | s, .willStop succeed =>
    if s.deleted = false ∧ s.started ≠ [] then some (s.post (.stop s.started.length succeed))
    else none

/-- The operation succeeds, if it is one that ends. -/
def Action.Succeeds (a : Action) : Prop := a ≠ .willStop false

/-- The shell does not tell the engine of its stop while `executeNextOperation` is posted for the
one before, unless the exit is posted, which comes first. -/
def StopsOnce (s : ScriptEngine) : Action → Prop
  | .task => ∀ succeed : Bool, s.tasks.head? = some (.stop s.started.length succeed) →
      s.deleted = false → .exitImpl ∉ s.tasks → .executeNextOperation ∉ s.tasks
  | .willStop _ => True

instance (s : ScriptEngine) : ∀ a : Action, Decidable (s.StopsOnce a)
  | .task => inferInstanceAs (Decidable (∀ _ : Bool, _ → _ → _ → _ ∉ _))
  | .willStop _ => isTrue trivial

/-- The engine has run the first of the operations expected, and is not about to run one twice; it
exits when it has run them all, and till then a task is posted or a shell is to stop. -/
structure Visiting (expected : List (Text × List Text)) (s : ScriptEngine) : Prop where
  order : s.started <+: expected
  once : s.deleted = false → .exitImpl ∉ s.tasks → s.tasks.count .executeNextOperation ≤ 1
  all : .exitImpl ∈ s.tasks ∨ s.deleted = true → s.started = expected
  goesOn : s.deleted = false →
    (step s .task).isSome = true ∨ s.tasks = [] ∧ (step s (.willStop true)).isSome = true

/-- What the UI thread can still do for a task. -/
def worth : EngineTask → Nat
  | .executeNextOperation => 2
  | .stop _ _ => 3
  | .exitImpl => 1

def Action.brings : Action → Nat
  | .task => 0
  | .willStop _ => 4

/-- When every operation succeeds and no shell stops twice, the engine runs those expected, each
once and in that order, and then exits.  It takes at most four steps for each call of `willStop`,
and two. -/
def VisitsAll (s : ScriptEngine) (expected : List (Text × List Text)) : Prop :=
  ∀ as t, step.Meets (fun s a => a.Succeeds ∧ s.StopsOnce a) s as → step.run s as = some t →
    Visiting expected t ∧ as.length ≤ 2 + weight Action.brings as

/-! ## How long a run is -/

@[simp] theorem tasks_post (s : ScriptEngine) (task : EngineTask) :
    (s.post task).tasks = s.tasks ++ [task] := rfl

theorem worth_executeNextOperationImpl (s : ScriptEngine) :
    weight worth s.executeNextOperationImpl.tasks ≤ weight worth s.tasks + 1 := by
  rw [executeNextOperationImpl]
  split
  · simp [willExit, worth]
  · split
    · simp [willExit, worth]
    · exact Nat.le_succ _

theorem tasks_onStop {s t : ScriptEngine} {succeed : Bool} (h : s.onStop succeed = some t) :
    t.tasks = s.tasks ++ [.executeNextOperation] := by
  obtain ⟨op, -, rfl⟩ := Option.map_eq_some_iff.1 h
  rfl

theorem worth_runTask {s t : ScriptEngine} {task : EngineTask} (h : s.runTask task = some t) :
    weight worth t.tasks + 1 ≤ weight worth s.tasks + worth task := by
  cases task with
  | executeNextOperation =>
    obtain rfl := Option.some_inj.1 h
    have hle := worth_executeNextOperationImpl s
    simp only [worth]
    split <;> omega
  | stop shell succeed =>
    rw [runTask] at h
    split at h
    · rw [tasks_onStop h, weight_append]
      simp only [weight_cons, weight_nil, worth]
      omega
    · obtain rfl := Option.some_inj.1 h
      simp only [worth]
      omega
  | exitImpl =>
    rw [runTask] at h
    split at h
    · cases h
    · obtain rfl := Option.some_inj.1 h
      exact Nat.le_refl _

theorem worth_step (s : ScriptEngine) (a : Action) (t : ScriptEngine) (h : step s a = some t) :
    weight worth t.tasks + 1 ≤ weight worth s.tasks + a.brings := by
  cases a with
  | task =>
    rw [step] at h
    split at h
    · next task tasks hq =>
      have hle := worth_runTask h
      rw [hq, weight_cons]
      simp only [Action.brings] at hle ⊢
      omega
    · cases h
  | willStop succeed =>
    rw [step] at h
    split at h
    · obtain rfl := Option.some_inj.1 h
      simp [worth, Action.brings]
    · cases h

theorem run_length_le {s t : ScriptEngine} {as : List Action} (h : step.run s as = some t) :
    as.length ≤ weight worth s.tasks + weight Action.brings as := by
  have := Tokens.run_length_le (fun s : ScriptEngine => weight worth s.tasks) worth_step h
  omega

/-! ## A chain of operations -/

/-- What the shell of an operation is started with. -/
def call (t : BatchOperation) : Text × List Text := (t.target, t.commands)

/-- Where the engine goes on when it has run `k` of `n` operations. -/
def placeAt (n k : Nat) : Int := if k < n then k else exit

/-- Each operation has its place as its id and leads to the next. -/
def Chained (ops : List BatchOperation) : Prop :=
  ∀ (k : Nat) t, ops[k]? = some t → t.id = k ∧ t.onSucceed = placeAt ops.length (k + 1)

theorem Chained.findIdx? {ops : List BatchOperation} (h : Chained ops) {k : Nat}
    (hk : k < ops.length) : ops.findIdx? (·.id = (k : Int)) = some k := by
  rw [List.findIdx?_eq_some_iff_getElem]
  have hid : ∀ j (hj : j < ops.length), ops[j].id = j := fun j hj =>
    (h j ops[j] (List.getElem?_eq_getElem hj)).1
  refine ⟨hk, by simp [hid k hk], fun j hj => ?_⟩
  simp only [hid j (by omega), decide_eq_true_eq]
  omega

/-- Where an engine is on its way through `ops`. -/
inductive Phase (ops : List BatchOperation) (s : ScriptEngine) : Prop where
  /-- The next operation, or the exit, is posted. -/
  | posted (k : Nat) (hk : k ≤ ops.length) (next : s.nextOperationId = placeAt ops.length k)
      (idx : 0 < k → s.runningOperationIdx = some (k - 1))
      (started : s.started = (ops.take k).map call) (deleted : s.deleted = false)
      (count : s.tasks.count .executeNextOperation = 1) (exit : .exitImpl ∉ s.tasks)
  /-- An operation is running. -/
  | running (k : Nat) (hk : k < ops.length) (idx : s.runningOperationIdx = some k)
      (started : s.started = (ops.take (k + 1)).map call) (deleted : s.deleted = false)
      (tasks : .executeNextOperation ∉ s.tasks) (exit : .exitImpl ∉ s.tasks)
  /-- `exitImpl` is posted, and comes before what the last shell may still post. -/
  | exiting (idx : ∃ k < ops.length, s.runningOperationIdx = some k)
      (started : s.started = ops.map call) (deleted : s.deleted = false)
      (tasks : ∃ before after, s.tasks = before ++ .exitImpl :: after ∧
        .executeNextOperation ∉ before ∧ .exitImpl ∉ before ++ after)
  | exited (started : s.started = ops.map call) (deleted : s.deleted = true)
      (exit : .exitImpl ∉ s.tasks)

/-- An engine whose operations have all succeeded so far, with no shell that stopped twice. -/
structure OnTheWay (ops : List BatchOperation) (s : ScriptEngine) : Prop where
  operations : s.scriptOperations = ops
  stops : ∀ shell succeed, .stop shell succeed ∈ s.tasks → 0 < shell ∧ succeed = true
  phase : Phase ops s

theorem executeNextOperationImpl_of_lt {s : ScriptEngine} (h : Chained s.scriptOperations) {k : Nat}
    (hk : k < s.scriptOperations.length)
    (hnext : s.nextOperationId = placeAt s.scriptOperations.length k) :
    s.executeNextOperationImpl =
      { s with
        runningOperationIdx := some k
        started := s.started ++ [call s.scriptOperations[k]] } := by
  rw [placeAt, if_pos hk] at hnext
  have hne : s.nextOperationId ≠ exit := by
    rw [hnext, exit]
    omega
  rw [executeNextOperationImpl, if_neg hne, hnext, h.findIdx? hk]
  simp only [List.getElem?_eq_getElem hk]
  rfl

theorem onStop_of_running {s : ScriptEngine} {ops : List BatchOperation} {succeed : Bool} {k : Nat}
    (hops : s.scriptOperations = ops) (hk : k < ops.length)
    (hidx : s.runningOperationIdx = some k) :
    s.onStop succeed = some
      { s with
        nextOperationId := if succeed then ops[k].onSucceed else ops[k].onFailed
        tasks := s.tasks ++ [.executeNextOperation] } := by
  rw [onStop, hidx, Option.bind_some, hops, List.getElem?_eq_getElem hk]
  rfl

/-- The operation whose shell the engine keeps. -/
theorem Phase.idx {ops : List BatchOperation} {s : ScriptEngine} (h : Phase ops s)
    (hdeleted : s.deleted = false) (hstarted : s.started ≠ []) :
    ∃ k < ops.length, s.runningOperationIdx = some k := by
  cases h with
  | posted k hk next idx started =>
    have hpos : 0 < k := by
      rcases Nat.eq_zero_or_pos k with rfl | hpos
      · exact absurd started hstarted
      · exact hpos
    exact ⟨k - 1, by omega, idx hpos⟩
  | running k hk idx => exact ⟨k, hk, idx⟩
  | exiting idx => exact idx
  | exited _ deleted => exact absurd (hdeleted.symm.trans deleted) Bool.false_ne_true

section Step

variable {ops : List BatchOperation} {s t : ScriptEngine} {tasks : List EngineTask}

theorem OnTheWay.stops_tail (hs : OnTheWay ops s) {task : EngineTask}
    (hq : s.tasks = task :: tasks) :
    ∀ shell succeed, .stop shell succeed ∈ tasks → 0 < shell ∧ succeed = true :=
  fun shell succeed hmem => hs.stops shell succeed (hq ▸ List.mem_cons_of_mem _ hmem)

theorem OnTheWay.executeNextOperation (h : Chained ops) (hs : OnTheWay ops s) (hne : ops ≠ [])
    (hq : s.tasks = .executeNextOperation :: tasks)
    (hstep : { s with tasks := tasks }.runTask .executeNextOperation = some t) :
    OnTheWay ops t := by
  have hstops := hs.stops_tail hq
  have hops := hs.operations
  obtain rfl := Option.some_inj.1 hstep
  cases hs.phase with
  | posted k hk next idx started deleted count exit =>
    rw [hq, List.count_cons_self] at count
    rw [hq, List.mem_cons, not_or] at exit
    have hnone : EngineTask.executeNextOperation ∉ tasks := List.count_eq_zero.1 (by omega)
    rw [if_neg (by simp [deleted])]
    rcases Nat.lt_or_eq_of_le hk with hlt | rfl
    · subst hops
      rw [executeNextOperationImpl_of_lt (s := { s with tasks := tasks }) h hlt next]
      refine ⟨rfl, hstops, .running k hlt rfl ?_ deleted hnone exit.2⟩
      rw [started, List.take_add_one, List.getElem?_eq_getElem hlt, List.map_append]
      rfl
    · rw [placeAt, if_neg (Nat.lt_irrefl _)] at next
      have hrun : ScriptEngine.executeNextOperationImpl { s with tasks := tasks } =
          willExit { s with tasks := tasks } := if_pos next
      rw [hrun]
      refine ⟨hops, fun shell succeed hmem => ?_, .exiting ⟨ops.length - 1, ?_, idx ?_⟩ ?_ deleted
        ⟨tasks, [], rfl, hnone, ?_⟩⟩
      · simpa using hstops shell succeed (by simpa [willExit] using hmem)
      · exact Nat.sub_lt (List.length_pos_iff.2 hne) Nat.one_pos
      · exact List.length_pos_iff.2 hne
      · exact started.trans (by rw [List.take_length])
      · simpa using exit.2
  | running k hk idx started deleted notPosted exit =>
    exact absurd (hq ▸ List.mem_cons_self) notPosted
  | exiting idx started deleted shape =>
    obtain ⟨before, after, htasks, hbefore, -⟩ := shape
    rw [hq] at htasks
    cases before with
    | nil => cases htasks
    | cons task before =>
      obtain rfl := (List.cons.inj htasks).1
      exact absurd List.mem_cons_self hbefore
  | exited started deleted exit =>
    rw [hq, List.mem_cons, not_or] at exit
    rw [if_pos deleted]
    exact ⟨hops, hstops, .exited started deleted exit.2⟩

/-- A stop that comes too late, or for another shell. -/
theorem OnTheWay.stop_ignored (hs : OnTheWay ops s) {shell : Nat} {succeed : Bool}
    (hq : s.tasks = .stop shell succeed :: tasks) : OnTheWay ops { s with tasks := tasks } := by
  have hstops := hs.stops_tail hq
  refine ⟨hs.operations, hstops, ?_⟩
  cases hs.phase with
  | posted k hk next idx started deleted count exit =>
    rw [hq, List.count_cons_of_ne (by simp)] at count
    rw [hq, List.mem_cons, not_or] at exit
    exact .posted k hk next idx started deleted count exit.2
  | running k hk idx started deleted notPosted exit =>
    rw [hq, List.mem_cons, not_or] at notPosted exit
    exact .running k hk idx started deleted notPosted.2 exit.2
  | exiting idx started deleted shape =>
    obtain ⟨before, after, htasks, hbefore, hexit⟩ := shape
    rw [hq] at htasks
    cases before with
    | nil => cases htasks
    | cons task before =>
      rw [List.mem_cons, not_or] at hbefore
      rw [List.cons_append, List.mem_cons, not_or] at hexit
      exact .exiting idx started deleted
        ⟨before, after, (List.cons.inj htasks).2, hbefore.2, hexit.2⟩
  | exited started deleted exit =>
    rw [hq, List.mem_cons, not_or] at exit
    exact .exited started deleted exit.2

theorem OnTheWay.stop (h : Chained ops) (hs : OnTheWay ops s) {shell : Nat} {succeed : Bool}
    (hq : s.tasks = .stop shell succeed :: tasks) (hone : s.StopsOnce .task)
    (hstep : { s with tasks := tasks }.runTask (.stop shell succeed) = some t) :
    OnTheWay ops t := by
  have hstops := hs.stops_tail hq
  obtain ⟨hshell, rfl⟩ := hs.stops shell succeed (hq ▸ List.mem_cons_self)
  have hignored := hs.stop_ignored hq
  rw [runTask] at hstep
  split at hstep
  · next hlive =>
    obtain ⟨hdeleted, rfl⟩ := hlive
    have hnone : EngineTask.exitImpl ∉ tasks → EngineTask.executeNextOperation ∉ tasks :=
      fun hexit hmem => hone true (by rw [hq]; rfl) hdeleted (by simpa [hq] using hexit)
        (by rw [hq]; exact List.mem_cons_of_mem _ hmem)
    have hall : ∀ shell succeed, .stop shell succeed ∈ tasks ++ [.executeNextOperation] →
        0 < shell ∧ succeed = true := fun shell succeed hmem =>
      hstops shell succeed (by simpa using hmem)
    cases hignored.phase with
    | posted k hk next idx started deleted count exit =>
      rw [List.count_eq_zero.2 (hnone exit)] at count
      cases count
    | running k hk idx started deleted notPosted exit =>
      rw [onStop_of_running (s := { s with tasks := tasks }) hs.operations hk idx] at hstep
      obtain rfl := Option.some_inj.1 hstep
      refine ⟨hs.operations, hall, .posted (k + 1) hk ?_ (fun _ => idx) started deleted ?_ ?_⟩
      · exact (h k _ (List.getElem?_eq_getElem hk)).2
      · simp [List.count_eq_zero.2 (hnone exit)]
      · simpa using exit
    | exiting idx started deleted shape =>
      obtain ⟨k, hk, hidx⟩ := idx
      obtain ⟨before, after, htasks, hbefore, hexit⟩ := shape
      rw [onStop_of_running (s := { s with tasks := tasks }) hs.operations hk hidx] at hstep
      obtain rfl := Option.some_inj.1 hstep
      refine ⟨hs.operations, hall, .exiting ⟨k, hk, hidx⟩ started deleted
        ⟨before, after ++ [.executeNextOperation], ?_, hbefore, ?_⟩⟩
      · rw [htasks, List.append_assoc, List.cons_append]
      · rw [← List.append_assoc]
        simpa using hexit
    | exited _ deleted => exact absurd (hdeleted.symm.trans deleted) Bool.false_ne_true
  · obtain rfl := Option.some_inj.1 hstep
    exact hignored

theorem OnTheWay.exitImpl (hs : OnTheWay ops s) (hq : s.tasks = .exitImpl :: tasks)
    (hstep : { s with tasks := tasks }.runTask .exitImpl = some t) : OnTheWay ops t := by
  have hstops := hs.stops_tail hq
  have hmem : EngineTask.exitImpl ∈ s.tasks := hq ▸ List.mem_cons_self
  cases hs.phase with
  | posted _ _ _ _ _ _ _ exit => exact absurd hmem exit
  | running _ _ _ _ _ _ exit => exact absurd hmem exit
  | exited _ _ exit => exact absurd hmem exit
  | exiting idx started deleted shape =>
    obtain ⟨before, after, htasks, hbefore, hexit⟩ := shape
    rw [hq] at htasks
    rw [runTask, if_neg (by simp [deleted])] at hstep
    obtain rfl := Option.some_inj.1 hstep
    cases before with
    | nil =>
      obtain rfl := (List.cons.inj htasks).2
      exact ⟨hs.operations, hstops, .exited started rfl hexit⟩
    | cons task before =>
      obtain rfl := (List.cons.inj htasks).1
      exact absurd List.mem_cons_self hexit

theorem OnTheWay.willStop (hs : OnTheWay ops s) (hstarted : s.started ≠ []) :
    OnTheWay ops (s.post (.stop s.started.length true)) := by
  refine ⟨hs.operations, fun shell succeed hmem => ?_, ?_⟩
  · rcases List.mem_append.1 hmem with hmem | hmem
    · exact hs.stops shell succeed hmem
    · cases List.mem_singleton.1 hmem
      exact ⟨List.length_pos_iff.2 hstarted, rfl⟩
  · cases hs.phase with
    | posted k hk next idx started deleted count exit =>
      exact .posted k hk next idx started deleted (by simpa [post, List.count_append] using count)
        (by simpa using exit)
    | running k hk idx started deleted notPosted exit =>
      exact .running k hk idx started deleted (by simpa using notPosted) (by simpa using exit)
    | exiting idx started deleted shape =>
      obtain ⟨before, after, htasks, hbefore, hexit⟩ := shape
      refine .exiting idx started deleted
        ⟨before, after ++ [.stop s.started.length true], ?_, hbefore, ?_⟩
      · rw [tasks_post, htasks, List.append_assoc, List.cons_append]
      · rw [← List.append_assoc]
        simpa using hexit
    | exited started deleted exit => exact .exited started deleted (by simpa using exit)

theorem OnTheWay.step (h : Chained ops) (hne : ops ≠ []) (hs : OnTheWay ops s) {a : Action}
    (ha : a.Succeeds) (hone : s.StopsOnce a) (hstep : ScriptEngine.step s a = some t) :
    OnTheWay ops t := by
  cases a with
  | task =>
    rw [ScriptEngine.step] at hstep
    split at hstep
    · next task tasks hq =>
      cases task with
      | executeNextOperation => exact hs.executeNextOperation h hne hq hstep
      | stop shell succeed => exact hs.stop h hq hone hstep
      | exitImpl => exact hs.exitImpl hq hstep
    · cases hstep
  | willStop succeed =>
    obtain rfl : succeed = true := by
      cases succeed with
      | false => exact absurd rfl ha
      | true => rfl
    rw [ScriptEngine.step] at hstep
    split at hstep
    · next hlive =>
      obtain rfl := Option.some_inj.1 hstep
      exact hs.willStop hlive.2
    · cases hstep

/-- Whatever is posted has a meaning. -/
theorem OnTheWay.isSome_task (hs : OnTheWay ops s) (hq : s.tasks ≠ []) :
    (ScriptEngine.step s .task).isSome = true := by
  obtain ⟨task, tasks, hq⟩ := List.exists_cons_of_ne_nil hq
  rw [ScriptEngine.step, hq]
  cases task with
  | executeNextOperation => rfl
  | stop shell succeed =>
    change (ite _ _ _ : Option ScriptEngine).isSome = true
    split
    · next hlive =>
      obtain ⟨hdeleted, hlast⟩ := hlive
      have hpos := (hs.stops shell succeed (hq ▸ List.mem_cons_self)).1
      have hstarted : s.started ≠ [] := List.length_pos_iff.1 (hlast ▸ hpos)
      obtain ⟨k, hk, hidx⟩ := hs.phase.idx hdeleted hstarted
      rw [onStop_of_running (s := { s with tasks := tasks }) hs.operations hk hidx]
      rfl
    · rfl
  | exitImpl =>
    have hdeleted : s.deleted = false := by
      cases hs.phase with
      | posted _ _ _ _ _ deleted => exact deleted
      | running _ _ _ _ deleted => exact deleted
      | exiting _ _ deleted => exact deleted
      | exited _ _ exit => exact absurd (hq ▸ List.mem_cons_self) exit
    change (ite _ _ _ : Option ScriptEngine).isSome = true
    rw [if_neg (by simp [hdeleted])]
    rfl

theorem OnTheWay.visiting (hs : OnTheWay ops s) : Visiting (ops.map call) s := by
  have hgoesOn : s.deleted = false → s.tasks ≠ [] ∨ s.started ≠ [] →
      (ScriptEngine.step s .task).isSome = true ∨
        s.tasks = [] ∧ (ScriptEngine.step s (.willStop true)).isSome = true := by
    intro hdeleted hwork
    by_cases hq : s.tasks = []
    · have hstarted := hwork.resolve_left (absurd hq)
      exact .inr ⟨hq, by rw [ScriptEngine.step, if_pos ⟨hdeleted, hstarted⟩]; rfl⟩
    · exact .inl (hs.isSome_task hq)
  cases hs.phase with
  | posted k hk next idx started deleted count exit =>
    refine ⟨?_, fun _ _ => Nat.le_of_eq count, ?_, fun hdeleted => hgoesOn hdeleted (.inl ?_)⟩
    · rw [started]
      exact List.IsPrefix.map call (List.take_prefix k ops)
    · rintro (hmem | hdel)
      · exact absurd hmem exit
      · exact absurd (deleted.symm.trans hdel) Bool.false_ne_true
    · rintro hnil
      rw [hnil] at count
      cases count
  | running k hk idx started deleted notPosted exit =>
    refine ⟨?_, fun _ _ => ?_, ?_, fun hdeleted => hgoesOn hdeleted (.inr ?_)⟩
    · rw [started]
      exact List.IsPrefix.map call (List.take_prefix (k + 1) ops)
    · rw [List.count_eq_zero.2 notPosted]
      exact Nat.zero_le 1
    · rintro (hmem | hdel)
      · exact absurd hmem exit
      · exact absurd (deleted.symm.trans hdel) Bool.false_ne_true
    · rw [started]
      have := List.length_pos_of_mem (List.getElem_mem hk)
      simp [List.ne_nil_of_length_pos this]
  | exiting idx started deleted shape =>
    obtain ⟨before, after, htasks, -⟩ := shape
    refine ⟨started ▸ List.prefix_rfl, fun _ hnot => ?_, fun _ => started, fun hdeleted =>
      hgoesOn hdeleted (.inl ?_)⟩
    · exact absurd (htasks ▸ List.mem_append_right _ List.mem_cons_self) hnot
    · rw [htasks]
      simp
  | exited started deleted exit =>
    have hdead : s.deleted ≠ false := fun hdeleted =>
      Bool.false_ne_true (hdeleted.symm.trans deleted)
    exact ⟨started ▸ List.prefix_rfl, fun hdeleted => absurd hdeleted hdead, fun _ => started,
      fun hdeleted => absurd hdeleted hdead⟩

/-- A shell that stops while `executeNextOperation` is posted posts it again. -/
theorem OnTheWay.stopsOnce (hs : OnTheWay ops s) {a : Action}
    (hvisits : ∀ t, ScriptEngine.step s a = some t → Visiting (ops.map call) t) :
    s.StopsOnce a := by
  cases a with
  | willStop succeed => trivial
  | task =>
    intro succeed hhead hdeleted hexit hmem
    obtain ⟨tasks, hq⟩ := List.head?_eq_some_iff.1 hhead
    have hpos := (hs.stops _ succeed (hq ▸ List.mem_cons_self)).1
    obtain ⟨k, hk, hidx⟩ := hs.phase.idx hdeleted (List.length_pos_iff.1 hpos)
    have hstep : ScriptEngine.step s .task =
        ScriptEngine.onStop { s with tasks := tasks } succeed := by
      rw [ScriptEngine.step, hq]
      exact if_pos ⟨hdeleted, rfl⟩
    rw [onStop_of_running (s := { s with tasks := tasks }) hs.operations hk hidx] at hstep
    have honce : (tasks ++ [EngineTask.executeNextOperation]).count .executeNextOperation ≤ 1 :=
      (hvisits _ hstep).once hdeleted (by simpa [hq] using hexit)
    have hmem : EngineTask.executeNextOperation ∈ tasks := by simpa [hq] using hmem
    have hpos := List.count_pos_iff.2 hmem
    rw [List.count_append, List.count_singleton_self] at honce
    omega

end Step

theorem onTheWay_start {ops : List BatchOperation} (h : Chained ops) (hne : ops ≠ []) :
    OnTheWay ops (start ops) := by
  cases ops with
  | nil => exact absurd rfl hne
  | cons t ops =>
    refine ⟨rfl, fun shell succeed hmem => ?_, .posted 0 (Nat.zero_le _) ?_ ?_ rfl rfl rfl ?_⟩
    · simp [start, willExecuteNextOperation] at hmem
    · exact (h 0 t rfl).1.trans (if_pos (Nat.zero_lt_succ ops.length)).symm
    · rintro ⟨⟩
    · simp [start, willExecuteNextOperation]

theorem Chained.visitsAll {ops : List BatchOperation} (h : Chained ops) (hne : ops ≠ []) :
    (start ops).VisitsAll (ops.map call) := by
  intro as t hmeets hrun
  have hway := Machine.run_invariant_of_meets (P := OnTheWay ops)
    (fun _ _ _ hs ha hstep => hs.step h hne ha.1 ha.2 hstep) (onTheWay_start h hne) hmeets hrun
  refine ⟨hway.visiting, ?_⟩
  have hlen := run_length_le hrun
  have hworth : weight worth (start ops).tasks = 2 := by
    cases ops with
    | nil => exact absurd rfl hne
    | cons t ops => rfl
  omega

/-- Exactly in the runs in which no shell stops twice. -/
theorem Chained.visiting_iff {ops : List BatchOperation} (h : Chained ops) (hne : ops ≠ [])
    {as : List Action} (has : ∀ a ∈ as, a.Succeeds) :
    (∀ pre t, pre <+: as → step.run (start ops) pre = some t → Visiting (ops.map call) t) ↔
      step.Meets StopsOnce (start ops) as := by
  have hstart := onTheWay_start h hne
  refine Machine.always_iff_of_meets (F := fun _ a => a.Succeeds)
    (fun s a t ha hs _ hone hstep => hs.step h hne ha hone hstep) (fun s a ha hs _ => ?_)
    (Machine.meets_labels has _) hstart hstart.visiting
  exact ⟨hs.stopsOnce, fun hone t hstep => (hs.step h hne ha hone hstep).visiting⟩

/-- An operation that names the exit is the last one to run. -/
theorem run_exit {t : BatchOperation} (hid : t.id ≠ exit) (hexit : t.onSucceed = exit)
    (ops : List BatchOperation) :
    ∃ s, step.run (start (t :: ops)) [.task, .willStop true, .task, .task] = some s ∧
      step.Meets (fun s a => a.Succeeds ∧ s.StopsOnce a) (start (t :: ops))
        [.task, .willStop true, .task, .task] ∧
      s.tasks = [.exitImpl] ∧ s.started = [call t] := by
  have hfind : (t :: ops).findIdx? (·.id = t.id) = some 0 := by
    rw [List.findIdx?_cons, if_pos (by simp)]
  have hrun : step (start (t :: ops)) .task = some
      { scriptOperations := t :: ops, nextOperationId := t.id, runningOperationIdx := some 0,
        started := [call t] } := by
    change some (executeNextOperationImpl
      { scriptOperations := t :: ops, nextOperationId := t.id }) = _
    simp only [executeNextOperationImpl, if_neg hid, hfind]
    rfl
  have hstop : step
      { scriptOperations := t :: ops, nextOperationId := t.id, runningOperationIdx := some 0,
        tasks := [.stop 1 true], started := [call t] } .task = some
      { scriptOperations := t :: ops, nextOperationId := exit, runningOperationIdx := some 0,
        tasks := [.executeNextOperation], started := [call t] } :=
    hexit ▸ rfl
  refine ⟨_, Machine.run_cons.2 ⟨_, hrun, Machine.run_cons.2 ⟨_, rfl, Machine.run_cons.2
    ⟨_, hstop, Machine.run_cons.2 ⟨_, rfl, rfl⟩⟩⟩⟩, ?_, rfl, rfl⟩
  refine ⟨⟨by simp [Action.Succeeds], by simp [StopsOnce, start, willExecuteNextOperation]⟩,
    fun _ h₁ => ⟨⟨by simp [Action.Succeeds], trivial⟩, fun _ h₂ =>
    ⟨⟨by simp [Action.Succeeds], ?_⟩, fun _ h₃ =>
    ⟨⟨by simp [Action.Succeeds], ?_⟩, fun _ _ => trivial⟩⟩⟩⟩
  · obtain rfl := Option.some_inj.1 (hrun.symm.trans h₁)
    obtain rfl := Option.some_inj.1 h₂
    simp [StopsOnce]
  · obtain rfl := Option.some_inj.1 (hrun.symm.trans h₁)
    obtain rfl := Option.some_inj.1 h₂
    obtain rfl := Option.some_inj.1 (hstop.symm.trans h₃)
    simp [StopsOnce]

end ScriptEngine

/-! ## What the compiler makes -/

namespace DeployScriptCompiler

open ScriptEngine (call Chained placeAt start)

/-- The ids count up from `n`. -/
def Numbered (onSucceed : Int → Int) (n : Int) (ops : List BatchOperation) : Prop :=
  ∀ (k : Nat) t, ops[k]? = some t → t.id = n + k ∧ t.onSucceed = onSucceed (n + k + 1)

theorem Numbered.append {onSucceed : Int → Int} {n : Int} {ops ops' : List BatchOperation}
    (h : Numbered onSucceed n ops) (h' : Numbered onSucceed (n + ops.length) ops') :
    Numbered onSucceed n (ops ++ ops') := by
  intro k t hk
  rcases Nat.lt_or_ge k ops.length with hlt | hge
  · rw [List.getElem?_append_left hlt] at hk
    exact h k t hk
  · rw [List.getElem?_append_right hge] at hk
    have hplace := h' (k - ops.length) t hk
    rwa [show n + ops.length + ((k - ops.length : Nat) : Int) = n + k by omega] at hplace

theorem map_call_hostOperations (cmds : List Text) (onSucceed : Int → Int) (n : Int)
    (hosts : List Text) :
    (hostOperations cmds onSucceed n hosts).map call = hosts.map (·, cmds) := by
  induction hosts generalizing n with
  | nil => rfl
  | cons host hosts ih =>
    rw [hostOperations, List.map_cons, ih]
    rfl

theorem length_hostOperations (cmds : List Text) (onSucceed : Int → Int) (n : Int)
    (hosts : List Text) : (hostOperations cmds onSucceed n hosts).length = hosts.length := by
  have h := congrArg List.length (map_call_hostOperations cmds onSucceed n hosts)
  rwa [List.length_map, List.length_map] at h

theorem numbered_hostOperations (cmds : List Text) (onSucceed : Int → Int) (n : Int)
    (hosts : List Text) : Numbered onSucceed n (hostOperations cmds onSucceed n hosts) := by
  induction hosts generalizing n with
  | nil => exact fun k t hk => by cases hk
  | cons host hosts ih =>
    intro k t hk
    rcases k with _ | k
    · obtain rfl := Option.some_inj.1 hk
      exact ⟨(Int.add_zero n).symm, by rw [Int.natCast_zero, Int.add_zero]⟩
    · have hplace := ih (n + 1) k t hk
      rwa [show n + 1 + (k : Int) = n + ((k + 1 : Nat) : Int) by omega] at hplace

/-- The hosts of a package in its order, each with the commands of its deploy. -/
def visits (cmds : RemoteCommands → List Text) (deploys : List RemoteCommands) :
    List (Text × List Text) :=
  deploys.flatMap fun deploy => deploy.hosts.map (·, cmds deploy)

theorem map_call_operations (cmds : RemoteCommands → List Text) (onSucceed : Int → Int) (n : Int)
    (deploys : List RemoteCommands) :
    (operations cmds onSucceed n deploys).map call = visits cmds deploys := by
  induction deploys generalizing n with
  | nil => rfl
  | cons deploy deploys ih =>
    rw [operations, List.map_append, ih, map_call_hostOperations]
    rfl

theorem numbered_operations (cmds : RemoteCommands → List Text) (onSucceed : Int → Int) (n : Int)
    (deploys : List RemoteCommands) :
    Numbered onSucceed n (operations cmds onSucceed n deploys) := by
  induction deploys generalizing n with
  | nil => exact fun k t hk => by cases hk
  | cons deploy deploys ih =>
    refine (numbered_hostOperations _ _ _ _).append ?_
    rw [length_hostOperations]
    exact ih _

theorem finish_concat (ops : List BatchOperation) (back : BatchOperation) :
    finish (ops ++ [back]) = .operations (ops ++ [{ back with onSucceed := exit }]) := by
  rw [finish, List.getLast?_concat, List.dropLast_concat]

/-- With the last operation sent to the exit, the operations are a chain if each of the others was
given the next id. -/
theorem Numbered.chained {onSucceed : Int → Int} {ops : List BatchOperation}
    {back : BatchOperation} (h : Numbered onSucceed 0 (ops ++ [back]))
    (hnext : ops = [] ∨ onSucceed = id) :
    Chained (ops ++ [{ back with onSucceed := exit }]) := by
  intro k t hk
  rw [List.length_append, List.length_singleton]
  rcases Nat.lt_trichotomy k ops.length with hlt | rfl | hgt
  · rw [List.getElem?_append_left hlt] at hk
    have hplace := h k t (by rwa [List.getElem?_append_left hlt])
    rcases hnext with rfl | rfl
    · exact absurd hlt (Nat.not_lt_zero k)
    · rw [placeAt, if_pos (by omega)]
      simpa using hplace
  · rw [List.getElem?_concat_length, Option.some_inj] at hk
    have hplace := h ops.length back List.getElem?_concat_length
    subst hk
    rw [placeAt, if_neg (Nat.lt_irrefl _)]
    exact ⟨by simpa using hplace.1, rfl⟩
  · rw [List.getElem?_eq_none (by rw [List.length_append, List.length_singleton]; omega)] at hk
    cases hk

/-- The commands of an action. -/
def actionCommands (paths : Paths) (absFilePath : Text) (package : DeployPackage)
    (action : Text) : RemoteCommands → List Text :=
  if action = "deploy".toList then
    deployCommands paths (resourcePath paths absFilePath package.resource) package.resource.files
  else RemoteCommands.stop

/-- `compile` returns false, or makes operations with which the engine visits every host, in every
run in which they succeed and no shell stops twice. -/
def Deploys (paths : Paths) (absFilePath : Text) (package : DeployPackage) (action : Text) :
    Prop :=
  match compile paths absFilePath package action with
  | .failed => True
  | .operations result =>
    (start result).VisitsAll
      (visits (actionCommands paths absFilePath package action) package.deploys)
  | .backOfEmpty => False

/-- The hosts of a package: one for each deploy and host of it. -/
def hosts (package : DeployPackage) : List Text := package.deploys.flatMap (·.hosts)

theorem length_visits (cmds : RemoteCommands → List Text) (package : DeployPackage) :
    (visits cmds package.deploys).length = (hosts package).length := by
  simp [visits, hosts, List.length_flatMap]

theorem finish_ne_failed (ops : List BatchOperation) : finish ops ≠ .failed := by
  rw [finish]
  split <;> simp

section Finish

variable (cmds : RemoteCommands → List Text) (onSucceed : Int → Int) (package : DeployPackage)

theorem finish_nil (h : hosts package = []) :
    finish (operations cmds onSucceed 0 package.deploys) = .backOfEmpty := by
  have hmap := map_call_operations cmds onSucceed 0 package.deploys
  have hvisits := length_visits cmds package
  rw [h, ← hmap, List.length_map] at hvisits
  rw [List.eq_nil_of_length_eq_zero hvisits]
  rfl

theorem exists_finish (h : hosts package ≠ []) :
    ∃ ops back, finish (operations cmds onSucceed 0 package.deploys) =
        .operations (ops ++ [{ back with onSucceed := exit }]) ∧
      Numbered onSucceed 0 (ops ++ [back]) ∧
      (ops ++ [{ back with onSucceed := exit }]).map call = visits cmds package.deploys := by
  have hmap := map_call_operations cmds onSucceed 0 package.deploys
  have hnumbered := numbered_operations cmds onSucceed 0 package.deploys
  rcases List.eq_nil_or_concat (operations cmds onSucceed 0 package.deploys) with
    hnil | ⟨ops, back, hops⟩
  · have hvisits := length_visits cmds package
    rw [← hmap, hnil] at hvisits
    exact absurd (List.eq_nil_of_length_eq_zero hvisits.symm) h
  · rw [List.concat_eq_append] at hops
    rw [hops] at hmap hnumbered ⊢
    refine ⟨ops, back, finish_concat ops back, hnumbered, ?_⟩
    rw [List.map_append] at hmap ⊢
    exact hmap

/-- The compiler has made a chain of the calls expected. -/
def Chains (compiled : Compiled) (expected : List (Text × List Text)) : Prop :=
  ∃ result, compiled = .operations result ∧ Chained result ∧ result ≠ [] ∧
    result.map call = expected

theorem Chains.visitsAll {compiled : Compiled} {expected : List (Text × List Text)}
    (h : Chains compiled expected) :
    ∃ result, compiled = .operations result ∧ (start result).VisitsAll expected := by
  obtain ⟨result, hresult, hchained, hne, rfl⟩ := h
  exact ⟨result, hresult, hchained.visitsAll hne⟩

theorem chains_deploy (h : hosts package ≠ []) :
    Chains (finish (operations cmds id 0 package.deploys)) (visits cmds package.deploys) := by
  obtain ⟨ops, back, hfinish, hnumbered, hmap⟩ := exists_finish cmds id package h
  exact ⟨_, hfinish, hnumbered.chained (.inr rfl), by simp, hmap⟩

theorem chains_stop (h : (hosts package).length = 1) :
    Chains (finish (operations cmds (fun _ => exit) 0 package.deploys))
      (visits cmds package.deploys) := by
  have hne : hosts package ≠ [] := List.ne_nil_of_length_eq_add_one h
  obtain ⟨ops, back, hfinish, hnumbered, hmap⟩ := exists_finish cmds (fun _ => exit) package hne
  have hlen := congrArg List.length hmap
  rw [length_visits, h, List.length_map, List.length_append, List.length_singleton] at hlen
  have hnil := List.eq_nil_of_length_eq_zero (by omega : ops.length = 0)
  exact ⟨_, hfinish, hnumbered.chained (.inl hnil), by simp, hmap⟩

theorem finish_deploy :
    (∃ result, finish (operations cmds id 0 package.deploys) = .operations result ∧
        (start result).VisitsAll (visits cmds package.deploys)) ↔ hosts package ≠ [] := by
  constructor
  · rintro ⟨result, hfinish, -⟩ hnil
    rw [finish_nil cmds id package hnil] at hfinish
    cases hfinish
  · exact fun hne => (chains_deploy cmds package hne).visitsAll

theorem finish_stop :
    (∃ result, finish (operations cmds (fun _ => exit) 0 package.deploys) = .operations result ∧
        (start result).VisitsAll (visits cmds package.deploys)) ↔
      (hosts package).length = 1 := by
  refine ⟨fun ⟨result, hresult, hvisits⟩ => ?_,
    fun hone => (chains_stop cmds package hone).visitsAll⟩
  rcases eq_or_ne (hosts package) [] with hnil | hne
  · rw [finish_nil cmds _ package hnil] at hresult
    cases hresult
  obtain ⟨ops, back, hfinish, hnumbered, hmap⟩ :=
    exists_finish cmds (fun _ => exit) package hne
  have hlen : (hosts package).length = ops.length + 1 := by
    rw [← length_visits cmds, ← hmap, List.length_map, List.length_append, List.length_singleton]
  obtain rfl := Compiled.operations.inj (hfinish.symm.trans hresult)
  cases ops with
  | nil => rw [hlen, List.length_nil]
  | cons t ops =>
    -- the first of two operations or more
    obtain ⟨hid, hexit⟩ := hnumbered 0 t rfl
    obtain ⟨s, hrun, hmeets, htasks, hstarted⟩ := ScriptEngine.run_exit (t := t)
      (by rw [hid, exit]; decide) hexit (ops ++ [{ back with onSucceed := exit }])
    have hall := (hvisits _ s hmeets hrun).1.all (.inl (by rw [htasks]; exact List.mem_cons_self))
    have hcount := congrArg List.length ((hstarted.symm.trans hall).trans hmap.symm)
    simp at hcount

end Finish

/-- What `compile` does for each action. -/
theorem compile_cases (paths : Paths) (absFilePath : Text) (package : DeployPackage)
    (action : Text) :
    compile paths absFilePath package action = .failed ∧
        (Found paths absFilePath package → action ≠ "deploy".toList ∧ action ≠ "stop".toList) ∨
      Found paths absFilePath package ∧ action = "deploy".toList ∧
        compile paths absFilePath package action = finish
          (operations (actionCommands paths absFilePath package action) id 0 package.deploys) ∨
      Found paths absFilePath package ∧ action = "stop".toList ∧
        compile paths absFilePath package action = finish
          (operations (actionCommands paths absFilePath package action) (fun _ => exit) 0
            package.deploys) := by
  by_cases hfound : Found paths absFilePath package
  · by_cases hdeploy : action = "deploy".toList
    · refine .inr (.inl ⟨hfound, hdeploy, ?_⟩)
      rw [compile, if_pos hfound, if_pos hdeploy, actionCommands, if_pos hdeploy]
    · by_cases hstop : action = "stop".toList
      · refine .inr (.inr ⟨hfound, hstop, ?_⟩)
        rw [compile, if_pos hfound, if_neg hdeploy, if_pos hstop, actionCommands, if_neg hdeploy]
      · refine .inl ⟨?_, fun _ => ⟨hdeploy, hstop⟩⟩
        rw [compile, if_pos hfound, if_neg hdeploy, if_neg hstop]
  · exact .inl ⟨if_neg hfound, fun h => absurd h hfound⟩

theorem deploy_ne_stop : "deploy".toList ≠ "stop".toList := by decide

theorem deploys_iff (paths : Paths) (absFilePath : Text) (package : DeployPackage)
    (action : Text) :
    Deploys paths absFilePath package action ↔
      (Found paths absFilePath package →
        (action = "deploy".toList → hosts package ≠ []) ∧
          (action = "stop".toList → (hosts package).length = 1)) := by
  have hdeploys : Deploys paths absFilePath package action ↔
      compile paths absFilePath package action = .failed ∨
        ∃ result, compile paths absFilePath package action = .operations result ∧
          (start result).VisitsAll
            (visits (actionCommands paths absFilePath package action) package.deploys) := by
    rw [Deploys]
    cases compile paths absFilePath package action with
    | failed => simp
    | operations result => simp
    | backOfEmpty => simp
  rw [hdeploys]
  rcases compile_cases paths absFilePath package action with
    ⟨hcompile, hother⟩ | ⟨hfound, rfl, hcompile⟩ | ⟨hfound, rfl, hcompile⟩
  · exact iff_of_true (.inl hcompile) fun hfound =>
      ⟨fun h => absurd h (hother hfound).1, fun h => absurd h (hother hfound).2⟩
  · rw [hcompile, or_iff_right (finish_ne_failed _), finish_deploy]
    exact ⟨fun hne _ => ⟨fun _ => hne, fun h => absurd h deploy_ne_stop⟩,
      fun h => (h hfound).1 rfl⟩
  · rw [hcompile, or_iff_right (finish_ne_failed _), finish_stop]
    exact ⟨fun hone _ => ⟨fun h => absurd h.symm deploy_ne_stop, fun _ => hone⟩,
      fun h => (h hfound).2 rfl⟩

theorem chains_of_deploys {paths : Paths} {absFilePath : Text} {package : DeployPackage}
    {action : Text} (h : Deploys paths absFilePath package action)
    (hne : compile paths absFilePath package action ≠ .failed) :
    Chains (compile paths absFilePath package action)
      (visits (actionCommands paths absFilePath package action) package.deploys) := by
  rw [deploys_iff] at h
  rcases compile_cases paths absFilePath package action with
    ⟨hcompile, -⟩ | ⟨hfound, rfl, hcompile⟩ | ⟨hfound, rfl, hcompile⟩
  · exact absurd hcompile hne
  · rw [hcompile]
    exact chains_deploy _ package ((h hfound).1 rfl)
  · rw [hcompile]
    exact chains_stop _ package ((h hfound).2 rfl)

/-- **When a script visits every host.**  The compiler returns false, or makes a chain of operations
that leads the engine to every host of the package, once and in order, and then to the exit —
exactly if the package cannot be compiled at all, or its action is `deploy` and it has a host, or
its action is `stop` and it has a single one.  And the engine does so exactly in the runs in which
no shell stops while `executeNextOperation` is posted for the stop before. -/
theorem visits_all_iff (paths : Paths) (absFilePath : Text) (package : DeployPackage)
    (action : Text) :
    (Deploys paths absFilePath package action ↔
      (Found paths absFilePath package →
        (action = "deploy".toList → hosts package ≠ []) ∧
          (action = "stop".toList → (hosts package).length = 1))) ∧
    (Deploys paths absFilePath package action →
      ∀ result, compile paths absFilePath package action = .operations result →
        ∀ as : List ScriptEngine.Action, (∀ a ∈ as, a.Succeeds) →
          ((∀ pre t, pre <+: as → ScriptEngine.step.run (start result) pre = some t →
            ScriptEngine.Visiting
              (visits (actionCommands paths absFilePath package action) package.deploys) t) ↔
          ScriptEngine.step.Meets ScriptEngine.StopsOnce (start result) as)) := by
  refine ⟨deploys_iff paths absFilePath package action, fun h result hresult as has => ?_⟩
  obtain ⟨ops, hops, hchained, hne, hmap⟩ := chains_of_deploys h (by rw [hresult]; simp)
  obtain rfl := Compiled.operations.inj (hresult.symm.trans hops)
  rw [← hmap]
  exact hchained.visiting_iff hne has

/-- A package is deployed on two hosts. -/
theorem visits_all_iff_deploy :
    ∃ result s, compile { pathExists := fun _ => true } "app.txt".toList
        { name := "app".toList, deploys := [{ hosts := ["a".toList, "b".toList] }] }
        "deploy".toList = .operations result ∧
      ScriptEngine.step.run (start result)
        [.task, .willStop true, .task, .task, .willStop true, .task, .task, .task] = some s ∧
      ScriptEngine.Visiting [("a".toList, []), ("b".toList, [])] s ∧ s.deleted = true := by
  obtain ⟨hdeploys, hruns⟩ := visits_all_iff { pathExists := fun _ => true } "app.txt".toList
    { name := "app".toList, deploys := [{ hosts := ["a".toList, "b".toList] }] } "deploy".toList
  have hall := hruns (hdeploys.2 (by decide)) _ rfl
    [.task, .willStop true, .task, .task, .willStop true, .task, .task, .task]
    (by simp [ScriptEngine.Action.Succeeds])
  exact ⟨_, _, rfl, rfl, hall.2 (by decide) _ _ List.prefix_rfl rfl, rfl⟩

/-- A package with two hosts is stopped on the first of them.  It is deployed twice on the second,
when the shell of the first tells of its stop twice. -/
theorem second_host_missed_or_repeated :
    (¬ ∀ (paths : Paths) (absFilePath : Text) (package : DeployPackage) (action : Text),
      Deploys paths absFilePath package action) ∧
    ¬ ∀ (paths : Paths) (absFilePath : Text) (package : DeployPackage)
        (result : List BatchOperation) (as : List ScriptEngine.Action) (t : ScriptEngine),
      compile paths absFilePath package "deploy".toList = .operations result →
      (∀ a ∈ as, a.Succeeds) → ScriptEngine.step.run (start result) as = some t →
      t.started <+: visits (actionCommands paths absFilePath package "deploy".toList)
        package.deploys := by
  constructor
  · intro h
    have hvisits := h { pathExists := fun _ => true } "app.txt".toList
      { name := "app".toList, deploys := [{ hosts := ["a".toList, "b".toList] }] } "stop".toList
    obtain ⟨s, hrun, hmeets, htasks, hstarted⟩ := ScriptEngine.run_exit
      (t := { id := 0, target := "a".toList, commands := [], onSucceed := exit, onFailed := exit })
      (by decide) rfl
      [{ id := 1, target := "b".toList, commands := [], onSucceed := exit, onFailed := exit }]
    have hall := (hvisits _ s hmeets hrun).1.all (.inl (by rw [htasks]; exact List.mem_cons_self))
    exact absurd (hstarted.symm.trans hall) (by decide)
  · intro h
    have horder := h { pathExists := fun _ => true } "app.txt".toList
      { name := "app".toList, deploys := [{ hosts := ["a".toList, "b".toList] }] } _
      [.task, .willStop true, .willStop true, .task, .task, .task, .task] _ rfl
      (by simp [ScriptEngine.Action.Succeeds]) rfl
    exact absurd horder (by decide)

end DeployScriptCompiler

end Dcfpe.Rs

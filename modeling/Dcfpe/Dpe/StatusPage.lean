import Dcfpe.Dpe.HttpRequest
import Dcfpe.Dpe.MasterRun
import Dcfpe.Lib.Decimal

/-!
# The status page

The web page of the master polls `/status` for the tasks that are DONE.  The master lists the DONE
tasks of `task_queue_` from the first one with the id it is asked for, and the page, which keeps
what it has been told, asks for the number after the last id it has.

The functions are those of `dpe_master_node.cc`, `http_server.cc` and `index.html`.  In `step`
requests of workers and polls of one page come in any order: a poll is sent, answered and received
in three steps, and others may happen in between.  When all tasks are DONE, `WillExitDpe` takes the
handler away from the HTTP server, and till the teardown it answers with an empty body.  `shows_iff`
says for which tasks the page shows what it should.
-/

set_option autoImplicit false

namespace Dcfpe

open Std

/-! ## HandleRequest -/

/-- An entry of `"tasks"`. -/
structure TaskInfo where
  taskId : String
  node : String
  timeUsage : String
  deriving DecidableEq, Repr

/-- An entry of `"nodeStatus"`; `updatedTime` is written as the milliseconds that it stands for. -/
structure NodeStatus where
  id : String
  status : String := ""
  runningTask : String
  finishedTask : String
  updatedTime : Int
  latencySum : String
  requestCount : String
  deriving DecidableEq, Repr

/-- The body of a response. -/
inductive Body where
  | nothing
  | status (nodeStatus : List NodeStatus) (taskCount : String) (tasks : Option (List TaskInfo))
  /-- The contents of a file of `dpe_module_dir_`. -/
  | file (name : String)
  deriving DecidableEq, Repr

def Body.tasks : Body → List TaskInfo
  | .status _ _ (some tasks) => tasks
  | _ => []

namespace MasterNode

def nodeStatus (worker : String × WorkerStatus) : NodeStatus where
  id := worker.1
  runningTask := toString worker.2.runningTask.length
  finishedTask := toString worker.2.finishedTask.length
  updatedTime := worker.2.updatedTime
  latencySum := toString worker.2.latencySum
  requestCount := toString worker.2.requestCount

/-- The second loop over `task_queue_`.  It does not test that there is a record. -/
def doneTasks (n : MasterNode) : List Int → List TaskInfo
  | [] => []
  | id :: ids =>
    match n.taskMap[id]? with
    | some item =>
      if item.status = .done then
        { taskId := toString id, node := toString 0, timeUsage := toString item.timeUsage } ::
          n.doneTasks ids
      else []
    | none => []

/-- The entries of `"tasks"`.  The size of the queue is an `int`. -/
def listTasks (n : MasterNode) (startTaskId : Int) : List TaskInfo :=
  let size := (n.taskQueue.length : Int).bmod 4294967296
  n.doneTasks ((n.taskQueue.take size.toNat).dropWhile (· ≠ startTaskId))

/-- `std::atoll`. -/
def atoll (s : Http.Text) : Int :=
  Decimal.clamp (-9223372036854775808) 9223372036854775807 (Decimal.value (Http.cString s))

def handleHttpRequest (n : MasterNode) (req : Http.HttpRequest) : Body :=
  if req.method = "GET".toList then
    if req.path = "/status".toList then
      let startTaskId : Int :=
        match req.parameters["startTaskId".toList]? with
        | some value => atoll value
        | none => -1
      .status (n.workerMap.toList.map nodeStatus) (toString n.taskMap.size)
        (if startTaskId ≠ -1 then some (n.listTasks startTaskId) else none)
    else if req.path = "/".toList then .file "index.html"
    else if req.path = "/jquery.min.js".toList then .file "jquery.min.js"
    else if req.path = "/Chart.bundle.js".toList then .file "Chart.bundle.js"
    else .nothing
  else .nothing

end MasterNode

/-! ## The page -/

/-- The number of JavaScript nearest to a natural number, of two the even one. -/
def nearest (x : Nat) : Nat :=
  let unit := 2 ^ (x.log2 - 52)
  let down := x / unit
  let rest := x % unit
  if 2 * rest > unit ∨ 2 * rest = unit ∧ down % 2 = 1 then (down + 1) * unit else down * unit

def toNumber (i : Int) : Int := i.sign * nearest i.natAbs

/-- What stands for a number in a text: itself if all integers around it are numbers, and otherwise
the one with the most zeros, and of these the closest, that reads as the number. -/
def digits (x : Nat) : Nat :=
  if x < 9007199254740992 then x
  else
    let candidates := (List.range 21).reverse.flatMap fun zeros =>
      let down := x / 10 ^ zeros * 10 ^ zeros
      let up := down + 10 ^ zeros
      if x - down ≤ up - x then [down, up] else [up, down]
    (candidates.find? fun y => nearest y = x).getD x

/-- `String(n)`. -/
def numberText (i : Int) : Http.Text := (toString (i.sign * digits i.natAbs : Int)).toList

/-- `getStartTaskId`. -/
def getStartTaskId (taskInfos : List TaskInfo) : Int :=
  match taskInfos.getLast? with
  | none => 0
  | some info => toNumber (toNumber (Decimal.value info.taskId.toList) + 1)

theorem free_numberText (i : Int) : Http.Free ['&', ' ', '\r', '\n'] (numberText i) := by
  intro c hc
  rcases Decimal.mem_toString hc with rfl | hdigit
  · decide
  · obtain ⟨hlo, hhi⟩ := Decimal.isDigit_bounds hdigit
    intro hmem
    have hcases : c = '&' ∨ c = ' ' ∨ c = '\r' ∨ c = '\n' := by simpa using hmem
    rcases hcases with rfl | rfl | rfl | rfl <;> exact absurd hlo (by decide)

/-- The request of a `refresh`; of its headers none is read. -/
def refreshMessage (startTaskId : Int) : Http.Message where
  method := "GET".toList
  path := "/status".toList
  parameters := [("startTaskId".toList, numberText startTaskId)]
  version := "HTTP/1.1".toList
  headers := []
  method_free := Http.free_get
  path_free := Http.free_status
  parameters_free := by
    intro kv hkv
    rw [List.mem_singleton] at hkv
    rw [hkv]
    have hkey : Http.Free ['=', '&', ' ', '\r', '\n'] "startTaskId".toList := by decide
    exact ⟨hkey, free_numberText startTaskId⟩
  version_free := Http.free_version
  headers_free _ hkv := absurd hkv List.not_mem_nil

/-- A poll of the page. -/
inductive Poll where
  | sent (startTaskId : Int)
  /-- With the answer stands the longest DONE prefix of the queue when it is given. -/
  | answered (body : Body) (done : List Int)
  deriving DecidableEq, Repr

/-- The master, the page, and the polls between them. -/
structure StatusPage where
  master : Master
  taskInfos : List TaskInfo := []
  polls : List Poll := []

namespace MasterNode

def isDone (n : MasterNode) (id : Int) : Bool := n.taskMap[id]?.any (·.status = .done)

/-- The longest prefix of `task_queue_` whose tasks are all DONE. -/
def donePrefix (n : MasterNode) : List Int := n.taskQueue.takeWhile n.isDone

end MasterNode

namespace StatusPage

variable (tf : TextFormat)

/-- The handler of `http_server` is the master, till `WillExitDpe` has set it to NULL. -/
def handler (s : StatusPage) : Option MasterNode :=
  if .willExitDpe ∈ s.master.effects then none else some s.master.node

/-- `HttpServer::HandleRequestImpl`. -/
def handleRequestImpl (s : StatusPage) (req : Http.HttpRequest) : Body :=
  match s.handler with
  | some node => node.handleHttpRequest req
  | none => .nothing

inductive Label where
  /-- The master serves a request of a worker. -/
  | serve (d : Master.Dispatch)
  /-- A `refresh` that sends its request, by the timer or the button. -/
  | refresh
  /-- The HTTP server answers the `k`-th of the polls. -/
  | answer (k : Nat)
  /-- The answer to the `k`-th of the polls arrives. -/
  | receive (k : Nat)
  /-- The `k`-th of the polls fails. -/
  | fail (k : Nat)

/-- The page takes nothing from an empty body, on which `JSON.parse` throws.  `ExitDpeImpl` ends the
steps of the master. -/
def step : Machine StatusPage Label
  | s, .serve d => some { s with master := s.master.handleRequest tf d.clk d.responseTime d.req }
  | s, .refresh => some { s with polls := s.polls ++ [.sent (getStartTaskId s.taskInfos)] }
  | s, .answer k =>
    match s.polls[k]? with
    | some (.sent startTaskId) =>
      let req := Http.parseRequest ((refreshMessage startTaskId).render ['\r'])
      some { s with
        polls := s.polls.set k (.answered (s.handleRequestImpl req) s.master.node.donePrefix) }
    | _ => none
  | s, .receive k =>
    match s.polls[k]? with
    | some (.answered body _) =>
      some { s with taskInfos := s.taskInfos ++ body.tasks, polls := s.polls.eraseIdx k }
    | _ => none
  | s, .fail k =>
    if k < s.polls.length then some { s with polls := s.polls.eraseIdx k } else none

def start (tasks : List Int) (readState : Bool) (file : StateFile) : StatusPage :=
  { master := Master.init tf tasks readState file }

/-- The ids that the page has collected. -/
def collected (s : StatusPage) : List String := s.taskInfos.map TaskInfo.taskId

/-- What the step should do: the page has a part of the longest DONE prefix, from its front and
without repeats, and after an answer it has what that prefix was when the answer was given. -/
def Shows (s : StatusPage) (a : Label) : Prop :=
  ∀ t, step tf s a = some t →
    (t.collected <+: t.master.node.donePrefix.map toString ∧ t.collected.Nodup) ∧
    ∀ k body done, a = .receive k → s.polls[k]? = some (.answered body done) →
      t.collected = done.map toString

/-- No poll is sent while another is under way. -/
def OneByOne (s : StatusPage) : Label → Prop
  | .refresh => s.polls = []
  | _ => True

/-- No poll is answered after `WillExitDpe`. -/
def Attended (s : StatusPage) : Label → Prop
  | .answer _ => s.handler.isSome = true
  | _ => True

end StatusPage

/-- The first `n` task ids, counted from 0. -/
def ids (n : Nat) : List Int := (List.range n).map Int.ofNat

/-- The ids but the last are 0, 1, 2, … in this order, and their number is an `int`. -/
def Numbered (tasks : List Int) : Prop :=
  tasks.dropLast = ids (tasks.length - 1) ∧ tasks.length < 2147483648

instance (tasks : List Int) : Decidable (Numbered tasks) := inferInstanceAs (Decidable (_ ∧ _))

/-! ## Parts of the queue -/

section Lists

variable {α : Type}

theorem takeWhile_drop {p : α → Bool} {l : List α} {c : Nat} (h : c ≤ (l.takeWhile p).length) :
    (l.drop c).takeWhile p = (l.takeWhile p).drop c := by
  induction l generalizing c with
  | nil => simp
  | cons a l ih =>
    rcases c with _ | c
    · simp
    · rw [List.takeWhile_cons] at h
      split at h
      · next ha =>
        rw [List.takeWhile_cons_of_pos ha, List.drop_succ_cons, List.drop_succ_cons]
        exact ih (by simpa using h)
      · simp at h

theorem takeWhile_prefix_takeWhile {p q : α → Bool} (h : ∀ a, p a = true → q a = true)
    (l : List α) : l.takeWhile p <+: l.takeWhile q := by
  induction l with
  | nil => simp
  | cons a l ih =>
    by_cases ha : p a = true
    · rw [List.takeWhile_cons_of_pos ha, List.takeWhile_cons_of_pos (h a ha)]
      exact (List.prefix_cons_inj a).2 ih
    · rw [List.takeWhile_cons_of_neg ha]
      exact List.nil_prefix

/-- In a list without repeats, the elements of a front part are found up to its end. -/
theorem takeWhile_mem_take [DecidableEq α] {l : List α} (hnd : l.Nodup) (k : Nat) :
    (l.takeWhile fun a => decide (a ∈ l.take k)) = l.take k := by
  have hsplit := List.take_append_drop k l
  have hpos : ∀ a ∈ l.take k, decide (a ∈ l.take k) = true := fun a ha => by simpa using ha
  rw [← congrArg (List.takeWhile fun a => decide (a ∈ l.take k)) hsplit,
    List.takeWhile_append_of_pos hpos]
  rcases hrest : l.drop k with _ | ⟨a, rest⟩
  · simp
  · have hnot : a ∉ l.take k := by
      rw [← hsplit, hrest] at hnd
      exact fun ha => (List.nodup_append.1 hnd).2.2 a ha a List.mem_cons_self rfl
    rw [List.takeWhile_cons_of_neg (by simpa using hnot), List.append_nil]

/-- What is found by a search is what is looked for. -/
theorem eq_of_takeWhile_dropWhile [DecidableEq α] {p : α → Bool} {l rest : List α} {a b : α}
    (h : (l.dropWhile (· ≠ a)).takeWhile p = b :: rest) : b = a := by
  have hhead := List.head?_dropWhile_not (fun x => decide (x ≠ a)) l
  rcases hfound : l.dropWhile fun x => decide (x ≠ a) with _ | ⟨c, found⟩
  · rw [hfound] at h
    cases h
  · rw [hfound] at h hhead
    have hc : c = a := by simpa using hhead
    rw [List.takeWhile_cons] at h
    split at h
    · rw [← (List.cons.inj h).1, hc]
    · cases h

end Lists

@[simp] theorem length_ids (n : Nat) : (ids n).length = n := by
  rw [ids, List.length_map, List.length_range]

theorem take_ids {k n : Nat} (h : k ≤ n) : (ids n).take k = ids k := by
  rw [ids, ← List.map_take, List.take_range, Nat.min_eq_left h, ids]

theorem ids_succ (n : Nat) : ids (n + 1) = ids n ++ [(n : Int)] := by
  rw [ids, List.range_succ, List.map_append]
  rfl

/-- The search for the id `c` skips the first `c` ids. -/
theorem dropWhile_ids (c n : Nat) : (ids n).dropWhile (· ≠ (c : Int)) = (ids n).drop c := by
  have hsplit := List.take_append_drop c (ids n)
  have hpos : ∀ i ∈ (ids n).take c, decide (i ≠ (c : Int)) = true := by
    intro i hi
    rw [List.mem_take_iff_getElem] at hi
    obtain ⟨k, hk, rfl⟩ := hi
    simp only [ids, List.getElem_map, List.getElem_range, decide_eq_true_eq]
    simp at hk ⊢
    omega
  conv_lhs => rw [← hsplit]
  rw [List.dropWhile_append_of_pos hpos]
  rcases hrest : (ids n).drop c with _ | ⟨i, rest⟩
  · rfl
  · have hi : i = c := by
      have hget : ((ids n).drop c)[0]? = some i := by rw [hrest]; rfl
      rw [List.getElem?_drop, Nat.add_zero] at hget
      simp only [ids, List.getElem?_map, Option.map_eq_some_iff] at hget
      obtain ⟨k, hk, rfl⟩ := hget
      obtain ⟨hlt, rfl⟩ := List.getElem?_eq_some_iff.1 hk
      simp
    rw [List.dropWhile_cons_of_neg (by simp [hi])]

/-- The same in a list of which the last is any id: the search comes to the end of the list if it is
not there. -/
theorem dropWhile_numbered {tasks : List Int} (h : tasks.dropLast = ids (tasks.length - 1))
    {c : Nat} (hc : c ≤ tasks.length - 1) :
    tasks.dropWhile (· ≠ (c : Int)) = tasks.drop c ∨
      c = tasks.length - 1 ∧ tasks.dropWhile (· ≠ (c : Int)) = [] := by
  rcases List.eq_nil_or_concat tasks with rfl | ⟨front, last, rfl⟩
  · exact .inl (by simp)
  · rw [List.concat_eq_append] at h hc ⊢
    rw [List.dropLast_concat] at h
    obtain ⟨n, rfl⟩ : ∃ n, front = ids n := ⟨_, h⟩
    rw [List.length_append, List.length_singleton, Nat.add_sub_cancel, length_ids] at hc ⊢
    rw [List.dropWhile_append, dropWhile_ids]
    rcases Nat.lt_or_eq_of_le hc with hlt | rfl
    · left
      have hrest : (ids n).drop c ≠ [] := by
        rw [Ne, List.drop_eq_nil_iff, length_ids]
        omega
      rw [if_neg (by simpa using hrest), List.drop_append_of_le_length (by rw [length_ids]; omega)]
    · have hnil : (ids c).drop c = [] := List.drop_eq_nil_of_le (length_ids c).le
      rw [hnil, List.isEmpty_nil, if_pos rfl]
      by_cases hlast : last = (c : Int)
      · left
        rw [List.dropWhile_cons_of_neg (by simp [hlast]),
          List.drop_append_of_le_length (length_ids c).ge, hnil, List.nil_append]
      · right
        exact ⟨rfl, by simp [hlast]⟩

/-! ## What a poll is told -/

theorem nearest_eq_self {x : Nat} (h : x < 9007199254740992) : nearest x = x := by
  have hlog : x.log2 - 52 = 0 := by
    rcases Nat.eq_zero_or_pos x with rfl | hpos
    · simp
    · have hlt : x.log2 < 53 := (Nat.log2_lt (by omega)).2 h
      omega
  simp [nearest, hlog, Nat.mod_one]

theorem toNumber_natCast {x : Nat} (h : x < 9007199254740992) : toNumber x = x := by
  rw [toNumber, Int.natAbs_natCast, nearest_eq_self h]
  exact Int.sign_mul_natAbs x

theorem numberText_natCast {x : Nat} (h : x < 9007199254740992) :
    numberText x = (toString (x : Int)).toList := by
  have hsign : (x : Int).sign * digits (x : Int).natAbs = x := by
    rw [digits, Int.natAbs_natCast, if_pos h]
    exact Int.sign_mul_natAbs x
  rw [numberText, hsign]

theorem getStartTaskId_ids {taskInfos : List TaskInfo} {c : Nat} (hc : c < 9007199254740992)
    (h : taskInfos.map TaskInfo.taskId = (ids c).map toString) : getStartTaskId taskInfos = c := by
  rcases c with _ | c
  · have hnil : taskInfos = [] := by simpa [ids] using h
    rw [hnil]
    rfl
  · have hlast : (taskInfos.map TaskInfo.taskId).getLast? = some (toString (c : Int)) := by
      rw [h, ids_succ, List.map_append, List.map_singleton, List.getLast?_concat]
    rw [List.getLast?_map, Option.map_eq_some_iff] at hlast
    obtain ⟨info, hinfo, hid⟩ := hlast
    have hsucc : ((c : Int) + 1) = (c + 1 : Nat) := rfl
    rw [getStartTaskId, hinfo]
    dsimp only
    rw [hid, Decimal.value_toString, toNumber_natCast (by omega), hsucc, toNumber_natCast hc]

namespace MasterNode

theorem atoll_numberText {x : Nat} (h : x < 9007199254740992) : atoll (numberText x) = x := by
  have hnul : Char.ofNat 0 ∉ numberText x := by
    rw [numberText_natCast h]
    intro hmem
    rcases Decimal.mem_toString hmem with heq | hdigit
    · exact absurd heq (by decide)
    · exact absurd hdigit (by decide)
  rw [atoll, Http.cString_eq_self hnul, numberText_natCast h, Decimal.value_toString,
    Decimal.clamp_eq (by omega) (by omega)]

/-- The tasks in the answer to a poll. -/
theorem handleHttpRequest_refresh (n : MasterNode) {x : Nat} (h : x < 9007199254740992) :
    (n.handleHttpRequest (Http.parseRequest ((refreshMessage x).render ['\r']))).tasks =
      n.listTasks x := by
  have hid : ((x : Int) ≠ -1) := by omega
  have hfull : (refreshMessage x).fullPath ≠ [] := by simp [Http.Message.fullPath, refreshMessage]
  rw [Http.Message.parseRequest_render_crlf (List.cons_ne_nil _ _) hfull]
  have hvalue : (refreshMessage x).request.parameters["startTaskId".toList]? =
      some (numberText x) := ExtTreeMap.getElem?_insert_self
  have hmethod : (refreshMessage x).request.method = "GET".toList := rfl
  have hpath : (refreshMessage x).request.path = "/status".toList := rfl
  simp only [handleHttpRequest, hmethod, hpath, if_true, hvalue, atoll_numberText h, Body.tasks,
    if_pos hid]

end MasterNode

end Dcfpe

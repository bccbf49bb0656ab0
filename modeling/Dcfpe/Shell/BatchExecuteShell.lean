import Dcfpe.Shell.Status
import Dcfpe.Lib.Tokens

/-!
# The batch shell

`BatchExecuteShell` runs a list of command lines on another machine.  It is the host of a local
node: when that is connected, and again whenever a command has succeeded, it runs the next line, and
when one fails or none is left it stops.  It believes every status it is told, so it runs its lines
one after another exactly if no command is reported twice.

The functions are those of `batch_execute_shell.cc`; what is posted to the UI thread is a `UiTask`,
and the tasks run in the order in which they were posted.  The prompts are left out.
-/

set_option autoImplicit false

namespace Dcfpe.Rs

/-- The tasks that the node and the shell post. -/
inductive UiTask where
  /-- `notifyCommandExecuteStatus`. -/
  | notify (newStatus : ServerStatus)
  | runNextCommand
  | stop (succeed : Bool)
  deriving DecidableEq, Repr

structure BatchRun where
  session : Session
  cmdLines : List Text
  nextCommandIndex : Nat := 0
  /-- What is posted to the UI thread. -/
  tasks : List UiTask := []
  /-- The answer of the listener is still to come. -/
  connecting : Bool := false
  /-- The `CreateSession` of the remote node is still to come. -/
  joining : Bool := false
  /-- The lines `executeCommandRemotely` was called with. -/
  submitted : List Text := []
  /-- The calls of `host->onStop`. -/
  stops : List Bool := []

namespace BatchRun

/-! ## The shell -/

def onConnectStatusChanged (newStatus : ServerStatus) : List UiTask :=
  if newStatus = .timeOut then [.stop false]
  else if newStatus = .failed then [.stop false]
  else if newStatus = .connected then [.runNextCommand]
  else []

def onCommandStatusChanged (newStatus : ServerStatus) : List UiTask :=
  if newStatus = .timeOut then [.stop false]
  else if newStatus = .failed then [.stop false]
  else [.runNextCommand]

/-- What a deed of the node posts; the host learns about the connection at once. -/
def posts : Deed → List UiTask
  | .notify newStatus => [.notify newStatus]
  | .connectStatus newStatus => onConnectStatusChanged newStatus
  | _ => []

def post (s : BatchRun) (tasks : List UiTask) : BatchRun := { s with tasks := s.tasks ++ tasks }

def runNextCommandImpl (files : Files) (s : BatchRun) : BatchRun :=
  match s.cmdLines[s.nextCommandIndex]? with
  | none => s.post [.stop true]
  | some cmd =>
    let s :=
      { s with nextCommandIndex := s.nextCommandIndex + 1, submitted := s.submitted ++ [cmd] }
    match s.session.call files cmd with
    | some (session, deeds) =>
      let s := { s with session := session }.post (deeds.flatMap posts)
      if session.node.shoudExit then s.post [.stop true] else s
    | none => s.post [.stop true]

def runTask (files : Files) (s : BatchRun) : UiTask → BatchRun
  | .notify newStatus => s.post (onCommandStatusChanged newStatus)
  | .runNextCommand => s.runNextCommandImpl files
  | .stop succeed => { s with stops := s.stops ++ [succeed] }

/-! ## Its runs -/

/-- `start`: the local node has a server at `address` and asks the listener at `target`, or it could
not start one.  The listener starts a remote node for the session `sid`, which has its server at
`executor`. -/
def start (address target executor : String) (sid : Nat) (started : Bool) (cmdLines : List Text) :
    BatchRun :=
  let remote := { address := executor, sessionId := sid }
  if started then
    { session :=
        { node := (LocalServerNode.connectToTarget { address := address } target).1
          remote := remote }
      cmdLines := cmdLines
      connecting := true
      joining := true }
  else
    { session := { node := {}, remote := remote }, cmdLines := cmdLines, tasks := [.stop false] }

inductive Action where
  /-- The listener has answered, or has not. -/
  | connect (answer : Answer)
  /-- The `CreateSession` of the remote node comes. -/
  | join
  /-- Something happens to the session. -/
  | event (e : Session.Event)
  /-- The UI thread runs the next task. -/
  | task (files : Files)

def step : Machine BatchRun Action
  | s, .connect answer =>
    if s.connecting then
      let (node, deeds) := s.session.node.handleCreateSessionResponse answer
      some ({ s with
        session := { s.session with node := node }, connecting := false }.post
          (deeds.flatMap posts))
    else none
  | s, .join =>
    if s.joining then
      let (node, deeds) := s.session.receive
        { sessionId := s.session.remote.sessionId
          createSession := some { address := s.session.remote.address } }
      some ({ s with
        session := { s.session with node := node }, joining := false }.post (deeds.flatMap posts))
    else none
  | s, .event e =>
    match s.session.event e with
    | some (session, deeds) => some ({ s with session := session }.post (deeds.flatMap posts))
    | none => none
  | s, .task files =>
    match s.tasks with
    | task :: tasks => some ({ s with tasks := tasks }.runTask files task)
    | [] => none

/-- Each line is submitted once, in order, and not before the one before it has been reported; no
command is reported twice; the host is told of the end at most once. -/
structure Orderly (s : BatchRun) : Prop where
  submitted : s.submitted = s.cmdLines.take s.nextCommandIndex
  reported : ∀ c ∈ s.session.calls.dropLast, c.notices ≠ []
  single : s.session.Single
  stops : s.stops.length ≤ 1

/-- `Session.OneReport`, for the shell. -/
def OneReport (s : BatchRun) : Action → Prop
  | .event e => s.session.OneReport (.event e)
  | _ => True

/-! ## One thing at a time -/

/-- A notification may still come of the call. -/
def openCall (c : Call) : Nat :=
  match c.sent with
  | some (_, .null, _) => 0
  | _ => 1 - c.notices.length

/-- The `CreateSession` of the remote node would be accepted. -/
def canJoin (s : BatchRun) : Bool :=
  s.joining && !s.connecting &&
    decide (s.session.node.sessionId = s.session.remote.sessionId)

/-- What can still make the shell do something, and what it has told the host. -/
def weight (s : BatchRun) : Nat :=
  s.connecting.toNat + s.canJoin.toNat + s.tasks.length +
    Tokens.weight openCall s.session.calls + s.stops.length

def isStop : UiTask → Bool
  | .stop _ => true
  | _ => false

structure Inv (s : BatchRun) : Prop where
  session : s.session.Inv
  orderly : s.Orderly
  one : s.weight ≤ 1
  remote : 0 ≤ s.session.remote.sessionId
  connecting : s.connecting = true → s.session.node.sessionId = -1 ∧ s.session.calls = []
  /-- When the session is to end, all that is left is to stop. -/
  leaving : s.session.node.shoudExit = true → s.tasks.countP isStop + s.stops.length = 1

theorem flatMap_posts {deeds : List Deed} (h : ∀ newStatus, .connectStatus newStatus ∉ deeds) :
    deeds.flatMap posts = (Session.notices deeds).map .notify := by
  induction deeds with
  | nil => rfl
  | cons deed deeds ih =>
    have hrest := ih fun newStatus hmem => h newStatus (List.mem_cons_of_mem _ hmem)
    rw [List.flatMap_cons, hrest]
    cases deed with
    | connectStatus newStatus => exact absurd List.mem_cons_self (h newStatus)
    | _ => rfl

theorem countP_isStop_notify (statuses : List ServerStatus) :
    (statuses.map UiTask.notify).countP isStop = 0 := by
  rw [List.countP_eq_zero]
  intro task htask
  obtain ⟨newStatus, -, rfl⟩ := List.mem_map.1 htask
  simp [isStop]

/-- A stop is not all that is left when there is another task. -/
theorem Inv.not_leaving {s : BatchRun} (h : s.Inv)
    (hother : ∃ task ∈ s.tasks, isStop task = false) :
    s.session.node.shoudExit = false := by
  by_contra hexit
  have hone := h.one
  have hleaving := h.leaving (Bool.not_eq_false _ ▸ hexit)
  obtain ⟨task, htask, hno⟩ := hother
  have hlt : s.tasks.countP isStop < s.tasks.length := by
    refine Nat.lt_of_le_of_ne List.countP_le_length fun heq => ?_
    rw [List.countP_eq_length.1 heq task htask] at hno
    cases hno
  rw [weight] at hone
  omega

/-! ## The steps -/

theorem mem_dropLast_set {α : Type} {l : List α} {k : Nat} {x y d : α} (hk : l[k]? = some x)
    (hd : d ∈ (l.set k y).dropLast) : d ∈ l.dropLast ∨ d = y ∧ x ∈ l.dropLast := by
  rw [List.dropLast_eq_take, List.length_set, List.take_set] at hd
  rcases List.mem_or_eq_of_mem_set hd with hmem | rfl
  · rw [List.dropLast_eq_take]
    exact .inl hmem
  · by_cases hlt : k < l.length - 1
    · refine .inr ⟨rfl, ?_⟩
      rw [List.dropLast_eq_take]
      exact List.mem_of_getElem? ((List.getElem?_take_of_lt hlt).trans hk)
    · rw [List.set_eq_of_length_le (by rw [List.length_take]; omega)] at hd
      rw [List.dropLast_eq_take]
      exact .inl hd

theorem inv_connect {s : BatchRun} (h : s.Inv) (hconn : s.connecting = true) {answer : Answer}
    {node : LocalServerNode} {deeds : List Deed}
    (hs : s.session.node.handleCreateSessionResponse answer = (node, deeds)) :
    ({ s with session := { s.session with node := node }, connecting := false }.post
      (deeds.flatMap posts)).Inv := by
  obtain ⟨hsession, hcalls⟩ := h.connecting hconn
  have hone := h.one
  rw [weight, hconn, Bool.toNat_true] at hone
  have hexit : s.session.node.shoudExit = false := by
    by_contra hexit
    have hleaving := h.leaving (Bool.not_eq_false _ ▸ hexit)
    have := List.countP_le_length (p := isStop) (l := s.tasks)
    omega
  have hkept : node.shoudExit = false ∧
      (deeds.flatMap posts).length + (decide (node.sessionId = s.session.remote.sessionId)).toNat ≤
        1 := by
    have hne : (-1 : Int) ≠ s.session.remote.sessionId := by
      have := h.remote
      omega
    cases answer with
    | timeOut =>
      obtain ⟨rfl, rfl⟩ := Prod.mk.inj hs
      exact ⟨hexit, by simp [hsession, hne, posts, onConnectStatusChanged]⟩
    | ok reply =>
      rw [LocalServerNode.handleCreateSessionResponse] at hs
      split at hs
      · obtain ⟨rfl, rfl⟩ := Prod.mk.inj hs
        exact ⟨hexit, by
          simp [hsession, hne, posts, onConnectStatusChanged, ServerStatus.failed,
            ServerStatus.timeOut]⟩
      · obtain ⟨rfl, rfl⟩ := Prod.mk.inj hs
        have hnone : [Deed.connectStatus .accepted].flatMap posts = [] := by decide
        rw [hnone, List.length_nil, Nat.zero_add]
        exact ⟨hexit, Bool.toNat_le _⟩
  have hcalls' : ∀ c ∈ s.session.calls, False := by simp [hcalls]
  refine ⟨fun c hc => (hcalls' c hc).elim, ⟨h.orderly.submitted, ?_, h.orderly.single,
    h.orderly.stops⟩, ?_, h.remote, by simp [post], fun hleave => ?_⟩
  · exact fun c hc => (hcalls' c ((List.dropLast_prefix _).subset hc)).elim
  · have hjoin : ({ s with session := { s.session with node := node }, connecting := false }.post
        (deeds.flatMap posts)).canJoin.toNat ≤
          (decide (node.sessionId = s.session.remote.sessionId)).toNat := by
      rw [canJoin, post]
      cases s.joining
      · exact Nat.zero_le _
      · exact Nat.le_refl _
    simp only [weight, post, List.length_append, Bool.toNat_false] at hjoin ⊢
    omega
  · simp only [post, hkept.1] at hleave
    cases hleave

/-- What the request for a session leaves of the local node, and what it posts. -/
theorem receive_createSession {s : Session} {req : Request} {detail : CreateSessionRequest}
    (hsid : req.sessionId = s.remote.sessionId) (hbeat : req.sessionHeartBeat = false)
    (hout : req.executeOutput = none) (hcreate : req.createSession = some detail)
    {node : LocalServerNode} {deeds : List Deed} (hs : s.receive req = (node, deeds)) :
    node.sessionId = s.node.sessionId ∧ node.shoudExit = s.node.shoudExit ∧
      (deeds.flatMap posts = [] ∨ deeds.flatMap posts = [.runNextCommand] ∧
        s.node.sessionId = s.remote.sessionId) := by
  by_cases heq : s.remote.sessionId = s.node.sessionId
  · simp only [Session.receive, LocalServerNode.preHandle, LocalServerNode.preHandleRequest,
      LocalServerNode.handle, LocalServerNode.handleRequest, hsid, heq, hbeat, hout, hcreate,
      ne_eq, not_true_eq_false, if_false, Bool.false_eq_true, Prod.mk.injEq] at hs
    obtain ⟨rfl, rfl⟩ := hs
    exact ⟨rfl, rfl, .inr ⟨by decide, heq.symm⟩⟩
  · simp only [Session.receive, LocalServerNode.preHandle, LocalServerNode.preHandleRequest, hsid,
      heq, ne_eq, not_false_eq_true, if_true, Prod.mk.injEq] at hs
    obtain ⟨rfl, rfl⟩ := hs
    exact ⟨rfl, rfl, .inl rfl⟩

/-- The request for the session: accepted, it is what made the shell wait. -/
theorem inv_join {s : BatchRun} (h : s.Inv) (hjoining : s.joining = true) {req : Request}
    {detail : CreateSessionRequest} (hsid : req.sessionId = s.session.remote.sessionId)
    (hbeat : req.sessionHeartBeat = false) (hout : req.executeOutput = none)
    (hcreate : req.createSession = some detail) {node : LocalServerNode} {deeds : List Deed}
    (hs : s.session.receive req = (node, deeds)) :
    ({ s with session := { s.session with node := node }, joining := false }.post
      (deeds.flatMap posts)).Inv := by
  obtain ⟨hsession, hexit, hcount⟩ := receive_createSession hsid hbeat hout hcreate hs
  have hone := h.one
  have hremote := h.remote
  rw [weight] at hone
  refine ⟨fun c hc => (h.session c hc).mono hsession hexit.trans,
    ⟨h.orderly.submitted, h.orderly.reported, h.orderly.single, h.orderly.stops⟩, ?_, h.remote,
    fun hconn => ⟨hsession.trans (h.connecting hconn).1, (h.connecting hconn).2⟩, fun hleave => ?_⟩
  · simp only [weight, canJoin, post, List.length_append, Bool.false_and, Bool.toNat_false]
    rcases hcount with hcount | ⟨hcount, heq⟩
    · rw [hcount, List.length_nil]
      omega
    · have hconn : s.connecting = false := by
        by_contra hconn
        have := (h.connecting (Bool.not_eq_false _ ▸ hconn)).1
        omega
      simp only [canJoin, hjoining, hconn, heq, decide_true, Bool.not_false, Bool.and_self,
        Bool.toNat_true] at hone
      rw [hcount, hconn, List.length_singleton]
      rw [Bool.toNat_false] at hone ⊢
      omega
  · have hleaving := h.leaving (hexit ▸ hleave)
    have hno : (deeds.flatMap posts).countP isStop = 0 := by
      rcases hcount with hcount | ⟨hcount, -⟩
      · rw [hcount]
        rfl
      · rw [hcount]
        rfl
    simp only [post, List.countP_append, hno]
    exact hleaving

/-- An event: what is reported was open before. -/
theorem inv_event {s : BatchRun} (h : s.Inv) {e : Session.Event} {session : Session}
    {deeds : List Deed} (hs : s.session.event e = some (session, deeds))
    (hsingle : session.Single) :
    ({ s with session := session }.post (deeds.flatMap posts)).Inv := by
  obtain ⟨hinv, -⟩ := Session.inv_event h.session h.orderly.single hs
  obtain ⟨hremote, hcases⟩ := Session.event_cases h.session hs
  have hminor : Session.Minor s.session.node session.node deeds := by
    rcases hcases with ⟨-, -, hminor, -⟩ | ⟨k, c, c', -, -, hb, -⟩
    · exact hminor
    · exact hb.minor
  have hposts := flatMap_posts hminor.deeds
  have hcalls : (Tokens.weight openCall session.calls + (Session.notices deeds).length =
        Tokens.weight openCall s.session.calls) ∧
      (∀ c ∈ session.calls.dropLast, c.notices ≠ []) ∧
      (s.session.calls = [] → session.calls = []) := by
    rcases hcases with ⟨hcalls, hno, -, -⟩ | ⟨k, c, c', hk, hcalls, hb, -⟩
    · rw [hcalls, hno]
      exact ⟨rfl, h.orderly.reported, id⟩
    · have hlt : k < s.session.calls.length := (List.getElem?_eq_some_iff.1 hk).1
      have hle : c'.notices.length ≤ 1 := hsingle c' (by rw [hcalls]; exact List.mem_set hlt c')
      have hopen : openCall c' + (Session.notices deeds).length = openCall c := by
        have hlen := hb.notices
        have hsound := hb.sound
        rw [Session.Sound] at hsound
        rw [openCall, openCall, ← hb.sent]
        split
        · next hsent =>
          rw [hsent] at hsound
          rw [hsound.2.2.2.1, List.length_nil] at hlen
          omega
        · omega
      refine ⟨?_, fun d hd => ?_, fun hnil => ?_⟩
      · have hset := Tokens.weight_set openCall hk c'
        rw [hcalls]
        omega
      · rw [hcalls] at hd
        rcases mem_dropLast_set hk hd with hd | ⟨rfl, hc⟩
        · exact h.orderly.reported d hd
        · intro hnil
          have hlen := hb.notices
          have hpos := List.length_pos_iff.2 (h.orderly.reported c hc)
          rw [hnil, List.length_nil] at hlen
          omega
      · rw [hnil] at hlt
        exact absurd hlt (Nat.not_lt_zero k)
  obtain ⟨hweight, hover, hnil⟩ := hcalls
  have hone := h.one
  rw [weight] at hone
  refine ⟨hinv, ⟨h.orderly.submitted, hover, hsingle, h.orderly.stops⟩, ?_, hremote ▸ h.remote,
    fun hconn => ⟨hminor.session.trans (h.connecting hconn).1, hnil (h.connecting hconn).2⟩,
    fun hleave => ?_⟩
  · simp only [weight, canJoin, post, List.length_append, hposts, List.length_map, hminor.session,
      hremote] at hone ⊢
    omega
  · have hleaving := h.leaving (hminor.exit ▸ hleave)
    simp only [post, List.countP_append, hposts, countP_isStop_notify]
    exact hleaving

/-- The shell is about to run a command: nothing else is under way. -/
structure Ready (s : BatchRun) : Prop where
  session : s.session.Inv
  orderly : s.Orderly
  remote : 0 ≤ s.session.remote.sessionId
  connecting : s.connecting = false
  noJoin : s.canJoin = false
  tasks : s.tasks = []
  stops : s.stops = []
  exit : s.session.node.shoudExit = false
  reported : ∀ c ∈ s.session.calls, c.notices ≠ []
  closed : Tokens.weight openCall s.session.calls = 0

theorem Inv.ready {s : BatchRun} (h : s.Inv) {tasks : List UiTask}
    (htasks : s.tasks = .runNextCommand :: tasks) : { s with tasks := tasks }.Ready := by
  have hone := h.one
  rw [weight, htasks, List.length_cons] at hone
  have hexit := h.not_leaving ⟨.runNextCommand, by rw [htasks]; exact List.mem_cons_self, rfl⟩
  have hclosed : Tokens.weight openCall s.session.calls = 0 := by omega
  have hconn : s.connecting.toNat = 0 := by omega
  have hjoin : s.canJoin.toNat = 0 := by omega
  have hrest : tasks.length = 0 := by omega
  have hstops : s.stops.length = 0 := by omega
  refine ⟨h.session, ⟨h.orderly.submitted, h.orderly.reported, h.orderly.single, h.orderly.stops⟩,
    h.remote, Bool.toNat_eq_zero.1 hconn, Bool.toNat_eq_zero.1 hjoin,
    List.eq_nil_of_length_eq_zero hrest, List.eq_nil_of_length_eq_zero hstops, hexit,
    fun c hc hno => ?_, hclosed⟩
  have hle := Tokens.le_weight openCall hc
  have hsound := h.session c hc
  rw [openCall] at hle
  split at hle
  · next hsent =>
    rw [Session.Sound, hsent] at hsound
    rw [hsound.2.2.2.2] at hexit
    cases hexit
  · change 1 - c.notices.length ≤ Tokens.weight openCall s.session.calls at hle
    rw [hno, hclosed] at hle
    exact absurd hle (by decide)

theorem Ready.stop {s : BatchRun} (h : s.Ready) : (s.post [.stop true]).Inv := by
  refine ⟨h.session, ⟨h.orderly.submitted, h.orderly.reported, h.orderly.single, h.orderly.stops⟩,
    ?_, h.remote, fun hconn => ?_, fun hleave => ?_⟩
  · change s.connecting.toNat + s.canJoin.toNat + (s.tasks ++ [UiTask.stop true]).length +
      Tokens.weight openCall s.session.calls + s.stops.length ≤ 1
    rw [h.connecting, h.noJoin, h.tasks, h.closed, h.stops]
    decide
  · exact absurd (h.connecting.symm.trans hconn) Bool.false_ne_true
  · exact absurd (h.exit.symm.trans hleave) Bool.false_ne_true

theorem Ready.submit {s : BatchRun} (h : s.Ready) {cmd : Text}
    (hcmd : s.cmdLines[s.nextCommandIndex]? = some cmd) :
    { s with
      nextCommandIndex := s.nextCommandIndex + 1
      submitted := s.submitted ++ [cmd] }.Ready := by
  refine ⟨h.session, ⟨?_, h.orderly.reported, h.orderly.single, h.orderly.stops⟩, h.remote,
    h.connecting, h.noJoin, h.tasks, h.stops, h.exit, h.reported, h.closed⟩
  change s.submitted ++ [cmd] = s.cmdLines.take (s.nextCommandIndex + 1)
  rw [List.take_add_one, hcmd, h.orderly.submitted]
  rfl

/-- The command is run, and reported, open, or the end of the session. -/
theorem Ready.call {s : BatchRun} (h : s.Ready) {files : Files} {cmd : Text} {session : Session}
    {deeds : List Deed} (hs : s.session.call files cmd = some (session, deeds)) :
    (if session.node.shoudExit then
      ({ s with session := session }.post (deeds.flatMap posts)).post [.stop true]
    else { s with session := session }.post (deeds.flatMap posts)).Inv := by
  obtain ⟨hinv, hsingle⟩ := Session.inv_call h.session h.orderly.single hs
  obtain ⟨hremote, hout, hcalls⟩ := Session.call_cases hs
  obtain ⟨hsid, -⟩ := Session.outcome_kept hout
  have horderly : ∀ tasks, ({ s with session := session }.post tasks).Orderly := fun tasks =>
    ⟨h.orderly.submitted, by
      change ∀ c ∈ session.calls.dropLast, c.notices ≠ []
      rw [hcalls, List.dropLast_concat]
      exact h.reported, hsingle, h.orderly.stops⟩
  have hjoin : ∀ tasks, ({ s with session := session }.post tasks).canJoin = false :=
      fun tasks => by
    have hno := h.noJoin
    simp only [canJoin, post, hsid, hremote] at hno ⊢
    exact hno
  have hweight : ∀ tasks, ({ s with session := session }.post tasks).weight =
      tasks.length + openCall
        { line := cmd, sent := Session.sent deeds, notices := Session.notices deeds } := by
    intro tasks
    change s.connecting.toNat + ({ s with session := session }.post tasks).canJoin.toNat +
      (s.tasks ++ tasks).length + Tokens.weight openCall session.calls + s.stops.length = _
    rw [hjoin, h.connecting, h.tasks, hcalls, Tokens.weight_append, h.closed, h.stops]
    simp
  have hremote' : 0 ≤ session.remote.sessionId := hremote ▸ h.remote
  have hconn : ∀ {P : Prop}, s.connecting = true → P := fun hconn =>
    absurd (h.connecting.symm.trans hconn) Bool.false_ne_true
  have hstay : (hexit : session.node.shoudExit = s.session.node.shoudExit) →
      (deeds.flatMap posts).length + openCall
        { line := cmd, sent := Session.sent deeds, notices := Session.notices deeds } ≤ 1 →
      (if session.node.shoudExit then
        ({ s with session := session }.post (deeds.flatMap posts)).post [.stop true]
      else { s with session := session }.post (deeds.flatMap posts)).Inv := by
    intro hexit hle
    rw [hexit, h.exit, if_neg Bool.false_ne_true]
    refine ⟨hinv, horderly _, Nat.le_trans (Nat.le_of_eq (hweight _)) hle, hremote', hconn,
      fun hleave => ?_⟩
    exact absurd ((hexit.trans h.exit).symm.trans hleave) Bool.false_ne_true
  cases hout with
  | notify before newStatus hbefore hsession hexit =>
    obtain ⟨hnotices, hsent⟩ := Session.notices_systems hbefore
    refine hstay hexit ?_
    have hposts : before.flatMap posts = [] := List.flatMap_eq_nil_iff.2 fun deed hdeed => by
      obtain ⟨line, rfl⟩ := hbefore deed hdeed
      rfl
    have hn : Session.notices (before ++ [.notify newStatus]) = [newStatus] := by
      rw [Session.notices, List.filterMap_append]
      exact congrArg (· ++ [newStatus]) hnotices
    rw [List.flatMap_append, hposts, hn, openCall]
    split <;> exact Nat.le_refl 1
  | operation address req detail hreq hsession hexit =>
    exact hstay hexit (Nat.le_refl 1)
  | leave address req hreq hsession hexit =>
    rw [hexit, if_pos rfl]
    have htasks : ({ s with session := session }.post
        ([Deed.send address req .null 0].flatMap posts)).post [.stop true] =
          { s with session := session }.post [.stop true] := by
      simp [post, posts]
    rw [htasks]
    refine ⟨hinv, horderly _, Nat.le_of_eq (hweight _), hremote', hconn, fun _ => ?_⟩
    change (s.tasks ++ [UiTask.stop true]).countP isStop + s.stops.length = 1
    rw [h.tasks, h.stops]
    rfl
  | command address req hreq hsession hexit =>
    exact hstay hexit (Nat.le_refl 1)

theorem Ready.run {s : BatchRun} (h : s.Ready) (files : Files) :
    (s.runNextCommandImpl files).Inv := by
  rw [runNextCommandImpl]
  cases hcmd : s.cmdLines[s.nextCommandIndex]? with
  | none => exact h.stop
  | some cmd =>
    have hsubmit := h.submit hcmd
    cases hcall : s.session.call files cmd with
    | none =>
      simp only [hcall]
      exact hsubmit.stop
    | some done =>
      obtain ⟨session, deeds⟩ := done
      simp only [hcall]
      exact hsubmit.call hcall

theorem inv_task {s : BatchRun} (h : s.Inv) {task : UiTask} {tasks : List UiTask}
    (htasks : s.tasks = task :: tasks) (files : Files) :
    ({ s with tasks := tasks }.runTask files task).Inv := by
  have hone := h.one
  rw [weight, htasks, List.length_cons] at hone
  cases task with
  | notify newStatus =>
    have hexit := h.not_leaving ⟨.notify newStatus, by rw [htasks]; exact List.mem_cons_self, rfl⟩
    have hlen : (onCommandStatusChanged newStatus).length = 1 := by
      rw [onCommandStatusChanged]
      repeat' split
      all_goals rfl
    refine ⟨h.session, ⟨h.orderly.submitted, h.orderly.reported, h.orderly.single, h.orderly.stops⟩,
      ?_, h.remote, h.connecting, fun hleave => ?_⟩
    · change s.connecting.toNat + s.canJoin.toNat +
          (tasks ++ onCommandStatusChanged newStatus).length +
        Tokens.weight openCall s.session.calls + s.stops.length ≤ 1
      rw [List.length_append, hlen]
      exact hone
    · exact absurd (hexit.symm.trans hleave) Bool.false_ne_true
  | runNextCommand =>
    exact (h.ready htasks).run files
  | stop succeed =>
    refine ⟨h.session, ⟨h.orderly.submitted, h.orderly.reported, h.orderly.single, ?_⟩,
      ?_, h.remote, h.connecting, fun hleave => ?_⟩
    · change (s.stops ++ [succeed]).length ≤ 1
      rw [List.length_append, List.length_singleton]
      omega
    · change s.connecting.toNat + s.canJoin.toNat + tasks.length +
        Tokens.weight openCall s.session.calls + (s.stops ++ [succeed]).length ≤ 1
      rw [List.length_append, List.length_singleton]
      omega
    · have hleaving := h.leaving hleave
      rw [htasks, List.countP_cons_of_pos rfl] at hleaving
      change tasks.countP isStop + (s.stops ++ [succeed]).length = 1
      rw [List.length_append, List.length_singleton]
      omega

theorem inv_step {s t : BatchRun} {a : Action} (h : s.Inv) (hcond : s.OneReport a)
    (hs : step s a = some t) : t.Inv := by
  cases a with
  | connect answer =>
    simp only [step] at hs
    split at hs
    · next hconn =>
      obtain rfl := Option.some_inj.1 hs
      exact inv_connect h hconn rfl
    · cases hs
  | join =>
    simp only [step] at hs
    split at hs
    · next hjoining =>
      obtain rfl := Option.some_inj.1 hs
      exact inv_join h hjoining rfl rfl rfl rfl rfl
    · cases hs
  | event e =>
    simp only [step] at hs
    split at hs
    · next session deeds hevent =>
      obtain rfl := Option.some_inj.1 hs
      have hsingle := (Session.inv_event h.session h.orderly.single hevent).2.2 hcond
      exact inv_event h hevent hsingle
    · cases hs
  | task files =>
    simp only [step] at hs
    split at hs
    · next task tasks htasks =>
      obtain rfl := Option.some_inj.1 hs
      exact inv_task h htasks files
    · cases hs

/-- A step after which all is in order reports no command twice. -/
theorem oneReport_of_orderly {s : BatchRun} {a : Action} (h : s.Inv)
    (hord : ∀ t, step s a = some t → t.Orderly) : s.OneReport a := by
  cases a with
  | event e =>
    cases hevent : s.session.event e with
    | some done =>
      obtain ⟨session, deeds⟩ := done
      have hsingle := (hord _ (by rw [step, hevent])).single
      exact (Session.inv_event h.session h.orderly.single hevent).2.1 hsingle
    | none =>
      exact Session.oneReport_of_refused (a := .event e) h.session (by
        rw [Session.step, hevent, Option.map_none])
  | _ => trivial

theorem inv_start (address target executor : String) (sid : Nat) (started : Bool)
    (cmdLines : List Text) : (start address target executor sid started cmdLines).Inv := by
  cases started with
  | true =>
    refine ⟨List.forall_mem_nil _, ⟨rfl, List.forall_mem_nil _, List.forall_mem_nil _,
      Nat.zero_le 1⟩, Nat.le_refl 1, Int.natCast_nonneg sid, fun _ => ⟨rfl, rfl⟩, ?_⟩
    rintro ⟨⟩
  | false =>
    refine ⟨List.forall_mem_nil _, ⟨rfl, List.forall_mem_nil _, List.forall_mem_nil _,
      Nat.zero_le 1⟩, Nat.le_refl 1, Int.natCast_nonneg sid, ?_, ?_⟩
    all_goals rintro ⟨⟩

theorem orderly_iff {s : BatchRun} (h : s.Inv) (as : List Action) :
    (∀ pre t, pre <+: as → step.run s pre = some t → t.Orderly) ↔ step.Meets OneReport s as := by
  refine Machine.always_iff (fun s a t hinv _ hC hs => ?_) (fun s a hinv _ => ?_) h h.orderly
  · exact inv_step hinv hC hs
  · exact ⟨oneReport_of_orderly hinv, fun hC t hs => (inv_step hinv hC hs).orderly⟩

/-- **When each command has one status.**  Whatever calls a local node gets and whatever happens to
its session, no call is reported twice; and a batch shell runs its lines one after another, submits
each at most once and tells its host of the end at most once — in exactly the runs in which no
command is reported both by its exit, as the running command, and by its callback, with a time-out
or while `waitForCommand` is off. -/
theorem one_status_iff (node : LocalServerNode) (remote : RemoteServerNode)
    (labels : List Session.Label) (address target executor : String) (sid : Nat) (started : Bool)
    (cmdLines : List Text) (as : List Action) :
    ((∀ pre t, pre <+: labels →
        Session.step.run { node := node, remote := remote } pre = some t → t.Single) ↔
      Session.step.Meets Session.OneReport { node := node, remote := remote } labels) ∧
    ((∀ pre t, pre <+: as →
        step.run (start address target executor sid started cmdLines) pre = some t → t.Orderly) ↔
      step.Meets OneReport (start address target executor sid started cmdLines) as) := by
  constructor
  · exact Session.single_iff (s := { node := node, remote := remote }) (List.forall_mem_nil _)
      (List.forall_mem_nil _) labels
  · exact orderly_iff (inv_start address target executor sid started cmdLines) as

/-- A command exits and its reply never comes: it is reported by the exit and by the time-out, and
the shell, which has run its only line, tells its host of two ends. -/
theorem exit_and_time_out :
    (¬ ∀ (node : LocalServerNode) (remote : RemoteServerNode) (as : List Session.Label)
        (t : Session), Session.step.run { node := node, remote := remote } as = some t →
      t.Single) ∧
    ¬ ∀ (address target executor : String) (sid : Nat) (started : Bool) (cmdLines : List Text)
        (as : List Action) (t : BatchRun),
      step.run (start address target executor sid started cmdLines) as = some t →
      t.stops.length ≤ 1 := by
  constructor
  · intro h
    have hsingle := h LocalServerNode.connectedNode { address := "", sessionId := 0 }
      [.call {} "dir".toList, .event (.take 0 {} true 0), .event (.exit 0 0 0),
        .event (.timeOut 0 {})] _ rfl _ List.mem_cons_self
    exact absurd hsingle (by decide)
  · intro h
    have hstops := h "tcp://10.0.0.1:3400" "tcp://10.0.0.2:3330" "tcp://10.0.0.2:3400" 0 true
      ["dir".toList]
      [.connect (.ok {}), .join, .task {}, .event (.take 0 {} true 0), .event (.exit 0 0 0),
        .event (.timeOut 0 {}), .task {}, .task {}, .task {}, .task {}, .task {}] _ rfl
    exact absurd hstops (by decide)

end BatchRun

end Dcfpe.Rs

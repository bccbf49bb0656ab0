import Dcfpe.Shell.Session
import Dcfpe.Shell.Arguments

/-!
# One status for each command

A call of the local node is to lead to one notification.  Three handlers can post it: the call
itself, the callback of the request, and the exit of the process.  The last two are guarded by
`runningRequestId` and by the value `waitForCommand` has when the callback is run, and not by each
other: a command that has timed out may still exit, and one that has exited may still time out or
have its reply come after the option was changed.

`Session.one_report_step` says that nothing else can go wrong, one step at a time.
-/

set_option autoImplicit false

namespace Dcfpe.Rs

/-- The number of reports of the callback of an `ExecuteCommand` that was given this. -/
def Call.reports : Option (Answer × Bool) → Nat
  | none => 0
  | some (.timeOut, _) => 1
  | some (.ok reply, waitForCommand) => if reply.errorCode = 0 ∧ waitForCommand then 0 else 1

theorem Call.reports_le_one (answered : Option (Answer × Bool)) : Call.reports answered ≤ 1 := by
  rw [Call.reports.eq_def]
  repeat' split
  all_goals simp

/-- Its callback was run with a time-out, or while `waitForCommand` was off. -/
def Call.Unwaited (c : Call) : Prop :=
  ∃ answer waitForCommand, c.answered = some (answer, waitForCommand) ∧
    (answer = .timeOut ∨ waitForCommand = false)

/-- The request of the call is `req`. -/
def Call.Sends (c : Call) (req : Request) : Prop :=
  ∃ callback timeout, c.sent = some (req, callback, timeout)

namespace LocalServerNode

/-! ## What a call does -/

/-- What a call of the node `n` leads to at once: a notification, or one request. -/
inductive Outcome (n : LocalServerNode) : LocalServerNode → List Deed → Prop where
  | notify {n' : LocalServerNode} (before : List Deed) (newStatus : ServerStatus)
      (hbefore : ∀ deed ∈ before, ∃ line, deed = .system line)
      (hsession : n'.sessionId = n.sessionId) (hexit : n'.shoudExit = n.shoudExit) :
      Outcome n n' (before ++ [.notify newStatus])
  | operation {n' : LocalServerNode} (address : Option String) (req : Request)
      (detail : FileOperationRequest) (hreq : req.executeCommand = none)
      (hsession : n'.sessionId = n.sessionId) (hexit : n'.shoudExit = n.shoudExit) :
      Outcome n n' [.send address req (.handleFileOperationResponse detail) 0]
  | leave {n' : LocalServerNode} (address : Option String) (req : Request)
      (hreq : req.executeCommand = none) (hsession : n'.sessionId = n.sessionId)
      (hexit : n'.shoudExit = true) : Outcome n n' [.send address req .null 0]
  | command {n' : LocalServerNode} (address : Option String) (req : Request)
      (hreq : req.sessionId = n.sessionId) (hsession : n'.sessionId = n.sessionId)
      (hexit : n'.shoudExit = n.shoudExit) :
      Outcome n n' [.send address req .handleExecuteCommandResponse 10000]

theorem outcome_notify {n n' : LocalServerNode} (newStatus : ServerStatus)
    (hsession : n'.sessionId = n.sessionId) (hexit : n'.shoudExit = n.shoudExit) :
    Outcome n n' [.notify newStatus] :=
  .notify [] newStatus (by simp) hsession hexit

theorem outcome_sendFileOperation (n : LocalServerNode) (detail : FileOperationRequest) :
    Outcome n (n.sendFileOperation detail).1 (n.sendFileOperation detail).2 :=
  .operation _ _ detail rfl rfl rfl

theorem kept_ite {c : Prop} [Decidable c] {n a b : LocalServerNode}
    (ha : a.sessionId = n.sessionId ∧ a.shoudExit = n.shoudExit)
    (hb : b.sessionId = n.sessionId ∧ b.shoudExit = n.shoudExit) :
    (if c then a else b).sessionId = n.sessionId ∧
      (if c then a else b).shoudExit = n.shoudExit := by
  split
  · exact ha
  · exact hb

theorem setOption_kept (args : List Text) (n : LocalServerNode) :
    (args.foldl setOption n).sessionId = n.sessionId ∧
      (args.foldl setOption n).shoudExit = n.shoudExit := by
  induction args generalizing n with
  | nil => exact ⟨rfl, rfl⟩
  | cons arg args ih =>
    have hset : (n.setOption arg).sessionId = n.sessionId ∧
        (n.setOption arg).shoudExit = n.shoudExit := by
      rw [setOption]
      iterate 10 refine kept_ite ⟨rfl, rfl⟩ ?_
      exact ⟨rfl, rfl⟩
    rw [List.foldl_cons]
    exact ⟨(ih _).1.trans hset.1, (ih _).2.trans hset.2⟩

theorem outcome_sendFiles (files : Files) (n : LocalServerNode) (cmd : Text) (args : List Text) :
    Outcome n (sendFiles files n cmd args).1 (sendFiles files n cmd args).2 := by
  rw [sendFiles]
  repeat' split
  all_goals first
    | exact outcome_notify _ rfl rfl
    | exact outcome_sendFileOperation n _

theorem outcome_getFiles (n : LocalServerNode) (cmd : Text) (args : List Text) :
    Outcome n (getFiles n cmd args).1 (getFiles n cmd args).2 := by
  rw [getFiles]
  repeat' split
  all_goals first
    | exact outcome_notify _ rfl rfl
    | exact outcome_sendFileOperation n _

theorem outcome_handleInternalCommand {files : Files} {n n' : LocalServerNode} {line cmd : Text}
    {args : List Text} {deeds : List Deed}
    (h : n.handleInternalCommand files line cmd args = some (n', deeds)) : Outcome n n' deeds := by
  rw [handleInternalCommand] at h
  split at h
  · obtain ⟨rfl, rfl⟩ := Prod.mk.inj (Option.some_inj.1 h)
    exact .leave _ _ rfl rfl rfl
  split at h
  · obtain ⟨rfl, rfl⟩ := Prod.mk.inj (Option.some_inj.1 h)
    exact .notify [.system _] _ (by simp) rfl rfl
  split at h
  · obtain ⟨rfl, rfl⟩ := Prod.mk.inj (Option.some_inj.1 h)
    exact outcome_notify _ (setOption_kept args n).1 (setOption_kept args n).2
  split at h
  · obtain ⟨rfl, rfl⟩ := Prod.ext_iff.1 (Option.some_inj.1 h)
    exact outcome_sendFiles files n cmd args
  split at h
  · obtain ⟨rfl, rfl⟩ := Prod.ext_iff.1 (Option.some_inj.1 h)
    exact outcome_getFiles n cmd args
  split at h
  · split at h
    · obtain ⟨rfl, rfl⟩ := Prod.mk.inj (Option.some_inj.1 h)
      exact outcome_notify _ rfl rfl
    · obtain ⟨rfl, rfl⟩ := Prod.mk.inj (Option.some_inj.1 h)
      exact outcome_sendFileOperation n _
  · cases h

theorem outcome_executeCommandRemotely {files : Files} {n n' : LocalServerNode} {line : Text}
    {deeds : List Deed} (h : n.executeCommandRemotely files line = some (n', deeds)) :
    Outcome n n' deeds := by
  rw [executeCommandRemotely] at h
  split at h
  · cases h
  · split at h
    · cases h
    · split at h
      · next done hint =>
        obtain rfl := Option.some_inj.1 h
        exact outcome_handleInternalCommand hint
      · obtain ⟨rfl, rfl⟩ := Prod.mk.inj (Option.some_inj.1 h)
        exact .command _ _ rfl rfl rfl

end LocalServerNode

namespace Session

/-- Each call has been reported at most once. -/
def Single (s : Session) : Prop := ∀ c ∈ s.calls, c.notices.length ≤ 1

/-- The exit and the answer of a command do not both report it: the exit of the running command is
not that of one that has timed out, or whose reply was handled while `waitForCommand` was off, and a
command that has exited as the running one does not time out, nor is its reply handled while
`waitForCommand` is off. -/
def OneReport (s : Session) : Label → Prop
  | .event (.exit k _ _) => ∀ c req, s.calls[k]? = some c → c.executor.isSome → c.Sends req →
      req.requestId = s.node.runningRequestId → ¬ c.Unwaited
  | .event (.timeOut k _) => ∀ c, s.calls[k]? = some c → c.answered = none → c.exited = false
  | .event (.answer k _) => ∀ c, s.calls[k]? = some c → c.answered = none → c.reply.isSome →
      c.exited → s.node.waitForCommand = true
  | _ => True

/-! ## What a call knows -/

/-- The process of an `ExecuteCommand` is there, or was, only if the remote node could start it. -/
structure Started (c : Call) (req : Request) : Prop where
  executor : ∀ e, c.executor = some e →
    e.originalRequestId = req.requestId ∧ e.sessionId = req.sessionId ∧ c.exited = false
  taken : c.executor.isSome ∨ c.exited → c.taken = true
  reply : c.executor.isSome ∨ c.exited → ∀ reply, c.reply = some reply → reply.errorCode = 0
  answered : c.executor.isSome ∨ c.exited →
    ∀ reply w, c.answered = some (.ok reply, w) → reply.errorCode = 0
  untaken : c.taken = false → c.reply = none ∧ ∀ reply w, c.answered ≠ some (.ok reply, w)

def Sound (n : LocalServerNode) (c : Call) : Prop :=
  match c.sent with
  | none => c.notices.length = 1 ∧ c.executor = none ∧ c.exited = false
  | some (req, .handleExecuteCommandResponse, timeout) =>
    req.sessionId = n.sessionId ∧ 0 < timeout ∧ Started c req ∧
      c.notices.length = c.exited.toNat + Call.reports c.answered
  | some (req, .handleFileOperationResponse _, _) =>
    req.executeCommand = none ∧ c.executor = none ∧ c.exited = false ∧
      c.notices.length ≤ c.answered.isSome.toNat
  | some (req, .null, _) =>
    req.executeCommand = none ∧ c.executor = none ∧ c.exited = false ∧ c.notices = [] ∧
      n.shoudExit = true
  | some (_, .handleCreateSessionResponse, _) => False

def Inv (s : Session) : Prop := ∀ c ∈ s.calls, Sound s.node c

/-- Nothing a call knows of the node goes away. -/
theorem Sound.mono {n n' : LocalServerNode} {c : Call} (h : Sound n c)
    (hsession : n'.sessionId = n.sessionId) (hexit : n.shoudExit = true → n'.shoudExit = true) :
    Sound n' c := by
  rw [Sound] at h ⊢
  split at h
  · exact h
  · exact ⟨h.1.trans hsession.symm, h.2⟩
  · exact h
  · exact ⟨h.1, h.2.1, h.2.2.1, h.2.2.2.1, hexit h.2.2.2.2⟩
  · exact h

/-! ## Callbacks and requests -/

/-- What comes from the other side changes neither the session nor whether it is to end, and is not
about the connection. -/
structure Minor (n n' : LocalServerNode) (deeds : List Deed) : Prop where
  session : n'.sessionId = n.sessionId
  exit : n'.shoudExit = n.shoudExit
  deeds : ∀ newStatus, .connectStatus newStatus ∉ deeds

theorem minor_runCallback (files : Files) (n : LocalServerNode) (answer : Answer)
    {callback : Callback} (hc : callback ≠ .handleCreateSessionResponse) :
    Minor n (n.runCallback files answer callback).1 (n.runCallback files answer callback).2 := by
  cases callback with
  | null => exact ⟨rfl, rfl, by simp [LocalServerNode.runCallback]⟩
  | handleCreateSessionResponse => exact absurd rfl hc
  | handleExecuteCommandResponse =>
    rw [LocalServerNode.runCallback, LocalServerNode.handleExecuteCommandResponse.eq_def]
    repeat' split
    all_goals exact ⟨rfl, rfl, by simp⟩
  | handleFileOperationResponse req =>
    rw [LocalServerNode.runCallback, LocalServerNode.handleFileOperationResponse.eq_def]
    repeat' split
    all_goals exact ⟨rfl, rfl, by simp⟩

theorem notices_runCallback_execute (files : Files) (n : LocalServerNode) (answer : Answer) :
    (notices (n.runCallback files answer .handleExecuteCommandResponse).2).length =
      Call.reports (some (answer, n.waitForCommand)) := by
  cases answer with
  | timeOut => rfl
  | ok reply =>
    rw [LocalServerNode.runCallback, LocalServerNode.handleExecuteCommandResponse, Call.reports]
    by_cases he : reply.errorCode = 0
    · cases hw : n.waitForCommand <;> simp [he, notices]
    · simp [he, notices]

theorem notices_runCallback_operation (files : Files) (n : LocalServerNode) (answer : Answer)
    (req : FileOperationRequest) :
    (notices (n.runCallback files answer (.handleFileOperationResponse req)).2).length ≤ 1 := by
  rw [LocalServerNode.runCallback, LocalServerNode.handleFileOperationResponse.eq_def]
  repeat' split
  all_goals simp [notices]

/-- What output or an exit does: an exit is reported if the request is accepted. -/
theorem receive_output {s : Session} {req : Request} {detail : ExecuteCommandOutputRequest}
    (hout : req.executeOutput = some detail) :
    (s.receive req).1 = s.node ∧ (∀ newStatus, .connectStatus newStatus ∉ (s.receive req).2) ∧
      (notices (s.receive req).2).length = (s.accepts req && detail.isExit).toNat := by
  rw [receive, accepts, hout, Option.any_some]
  cases hpre : s.node.preHandle req with
  | some payload => exact ⟨rfl, by simp, rfl⟩
  | none =>
    have hsession : req.sessionId = s.node.sessionId := by
      by_contra hne
      simp [LocalServerNode.preHandle, LocalServerNode.preHandleRequest, hne] at hpre
    simp only [LocalServerNode.handle, LocalServerNode.handleRequest, hsession, hout,
      LocalServerNode.handleExecuteOutput, ne_eq, not_true_eq_false, if_false, Option.isNone_none,
      Bool.true_and]
    by_cases hrun : detail.originalRequestId = s.node.runningRequestId
    · cases he : detail.isExit with
      | true => simp [hrun, notices]
      | false =>
        simp only [hrun, not_true_eq_false, if_false, Bool.false_eq_true]
        repeat' split
        all_goals simp [notices]
    · simp [hrun, notices]

/-! ## One event -/

/-- The call `c` is now `c'`, with as many more notifications as there are among `deeds`. -/
structure Becomes (n n' : LocalServerNode) (deeds : List Deed) (c c' : Call) : Prop where
  sent : c'.sent = c.sent
  notices : c'.notices.length = c.notices.length + (notices deeds).length
  sound : Sound n' c'
  minor : Minor n n' deeds

/-- A callback is run: this leads to a second report exactly if the command has exited and it is run
with a time-out or without waiting. -/
theorem becomes_settle {s : Session} {c : Call} (h : Sound s.node c) {req : Request}
    {callback : Callback} {timeout : Nat} (hsent : c.sent = some (req, callback, timeout))
    (hans : c.answered = none) {answer : Answer}
    (hreply : ∀ reply, answer = .ok reply → c.reply = some reply) (files : Files) (k : Nat)
    {t : Session} {deeds : List Deed} (hs : s.settle files k c callback answer = (t, deeds)) :
    ∃ c', t.remote = s.remote ∧ t.calls = s.calls.set k c' ∧ Becomes s.node t.node deeds c c' ∧
      (c'.notices.length ≤ 1 ↔
        (c.exited = true → answer ≠ .timeOut ∧ s.node.waitForCommand = true)) := by
  have hcreate : callback ≠ .handleCreateSessionResponse := by
    rintro rfl
    simp [Sound, hsent] at h
  have hminor := minor_runCallback files s.node answer hcreate
  rw [settle] at hs
  cases hrun : s.node.runCallback files answer callback with | mk n' ds
  rw [hrun] at hs hminor
  obtain ⟨rfl, rfl⟩ := Prod.mk.inj hs
  refine ⟨_, rfl, rfl, ⟨rfl, List.length_append, ?_, hminor⟩, ?_⟩
  all_goals rw [Sound, hsent] at h
  · refine Sound.mono (n := s.node) ?_ hminor.session fun he => hminor.exit.trans he
    cases callback with
    | null =>
      obtain ⟨hreq, hexec, hexit, hno, hleave⟩ := h
      obtain ⟨rfl, rfl⟩ := Prod.mk.inj hrun
      simp only [Sound, hsent]
      exact ⟨hreq, hexec, hexit, by rw [hno]; rfl, hleave⟩
    | handleCreateSessionResponse => exact absurd rfl hcreate
    | handleExecuteCommandResponse =>
      obtain ⟨hsession, hpos, hst, hlen⟩ := h
      have hnew := notices_runCallback_execute files s.node answer
      rw [hrun] at hnew
      simp only [Sound, hsent]
      refine ⟨hsession, hpos, ⟨hst.executor, hst.taken, hst.reply, ?_, ?_⟩, ?_⟩
      · rintro hon reply w ⟨⟩
        exact hst.reply hon reply (hreply reply rfl)
      · refine fun htaken => ⟨(hst.untaken htaken).1, ?_⟩
        rintro reply w ⟨⟩
        have := hreply reply rfl
        rw [(hst.untaken htaken).1] at this
        cases this
      · rw [List.length_append, hlen, hans, hnew]
        rfl
    | handleFileOperationResponse detail =>
      obtain ⟨hreq, hexec, hexit, hlen⟩ := h
      have hone := notices_runCallback_operation files s.node answer detail
      rw [hrun] at hone
      simp only [Sound, hsent]
      refine ⟨hreq, hexec, hexit, ?_⟩
      rw [hans] at hlen
      rw [List.length_append, Nat.le_zero.1 hlen, Nat.zero_add]
      exact hone
  · cases callback with
    | null =>
      obtain ⟨-, -, hexit, hno, -⟩ := h
      obtain ⟨rfl, rfl⟩ := Prod.mk.inj hrun
      simp [hno, hexit, notices]
    | handleCreateSessionResponse => exact absurd rfl hcreate
    | handleExecuteCommandResponse =>
      obtain ⟨-, -, hst, hlen⟩ := h
      have hnew := notices_runCallback_execute files s.node answer
      rw [hrun] at hnew
      rw [List.length_append, hlen, hans, hnew]
      cases hexit : c.exited with
      | false =>
        refine iff_of_true ?_ (by simp)
        change 0 + 0 + Call.reports _ ≤ 1
        rw [Nat.zero_add]
        exact Call.reports_le_one _
      | true =>
        cases answer with
        | timeOut => simp [Call.reports]
        | ok reply =>
          have he := hst.reply (.inr hexit) reply (hreply reply rfl)
          cases hw : s.node.waitForCommand <;> simp [Call.reports, he]
    | handleFileOperationResponse detail =>
      obtain ⟨-, -, hexit, hlen⟩ := h
      have hone := notices_runCallback_operation files s.node answer detail
      rw [hrun] at hone
      rw [hans] at hlen
      rw [List.length_append, Nat.le_zero.1 hlen, Nat.zero_add, hexit]
      exact iff_of_true hone (by simp)

/-- The remote node keeps an executor only for a command it has started. -/
theorem handleRequest_executor {n : RemoteServerNode} {files : RemoteFiles} {started : Bool}
    {now : Int} {req : Request} {reply : Response} {e : CommandExecutor}
    (h : (n.handleRequest files started now req reply).2.1 = some e) :
    req.executeCommand ≠ none ∧ e.originalRequestId = req.requestId ∧
      e.sessionId = req.sessionId ∧
      (n.handleRequest files started now req reply).1.errorCode = 0 := by
  by_cases hsession : req.sessionId = n.sessionId
  · cases hdelete : req.deleteSession with
    | true => simp [RemoteServerNode.handleRequest, hsession, hdelete] at h
    | false =>
      cases hcommand : req.executeCommand with
      | none => cases hfile : req.fileOperation <;>
          simp [RemoteServerNode.handleRequest, hsession, hdelete, hcommand, hfile] at h
      | some command =>
        cases hdone : (({ sessionId := n.sessionId } : CommandExecutor).execute command
            req.requestId started now).2 with
        | false =>
          simp [RemoteServerNode.handleRequest, hsession, hdelete, hcommand, hdone] at h
        | true =>
          simp only [RemoteServerNode.handleRequest, hsession, hdelete, hcommand, hdone, ne_eq,
            not_true_eq_false, if_false, if_true, Bool.false_eq_true, Option.some_inj] at h ⊢
          refine ⟨Option.some_ne_none _, ?_⟩
          rw [← h, CommandExecutor.execute]
          split <;> exact ⟨rfl, rfl, trivial⟩
  · simp [RemoteServerNode.handleRequest, hsession] at h

/-- The remote node takes a request: nothing is reported. -/
theorem becomes_take {s : Session} {c : Call} (h : Sound s.node c) {req : Request}
    {callback : Callback} {timeout : Nat} (hsent : c.sent = some (req, callback, timeout))
    (htaken : c.taken = false) {files : RemoteFiles} {started : Bool} {now : Int}
    {reply : Response} {executor : Option CommandExecutor} {deed : Option RemoteDeed}
    (hs : s.remote.handleRequest files started now req (prepareReply req) =
      (reply, executor, deed)) :
    Becomes s.node s.node [] c
      { c with taken := true, reply := some reply, executor := executor.filter (·.process) } := by
  refine ⟨rfl, rfl, ?_, rfl, rfl, by simp⟩
  have hsome : ∀ e, executor.filter (·.process) = some e → req.executeCommand ≠ none ∧
      e.originalRequestId = req.requestId ∧ e.sessionId = req.sessionId ∧ reply.errorCode = 0 := by
    intro e he
    have hexec := handleRequest_executor
      (hs ▸ (Option.filter_eq_some_iff.1 he).1 :
        (s.remote.handleRequest files started now req (prepareReply req)).2.1 = some e)
    rwa [hs] at hexec
  have hnone : req.executeCommand = none → executor.filter (·.process) = none := fun hreq =>
    Option.eq_none_iff_forall_ne_some.2 fun e he => (hsome e he).1 hreq
  rw [Sound, hsent] at h
  cases callback with
  | null =>
    obtain ⟨hreq, -, hexit, hno, hleave⟩ := h
    simp only [Sound, hsent]
    exact ⟨hreq, hnone hreq, hexit, hno, hleave⟩
  | handleCreateSessionResponse => exact h.elim
  | handleExecuteCommandResponse =>
    obtain ⟨hsession, hpos, hst, hlen⟩ := h
    simp only [Sound, hsent]
    have hexit : c.exited = false := by
      by_contra hne
      rw [hst.taken (.inr (Bool.not_eq_false _ ▸ hne))] at htaken
      cases htaken
    refine ⟨hsession, hpos, ⟨?_, fun _ => rfl, ?_, ?_, by simp⟩, hlen⟩
    · intro e he
      obtain ⟨-, hid, hsid, -⟩ := hsome e he
      exact ⟨hid, hsid, hexit⟩
    · rintro hon reply' ⟨⟩
      have hon := hon.resolve_right (by simp [hexit])
      obtain ⟨e, he⟩ := Option.isSome_iff_exists.1 hon
      exact (hsome e he).2.2.2
    · exact fun _ reply' w hans => absurd hans ((hst.untaken htaken).2 reply' w)
  | handleFileOperationResponse detail =>
    obtain ⟨hreq, -, hexit, hlen⟩ := h
    simp only [Sound, hsent]
    exact ⟨hreq, hnone hreq, hexit, hlen⟩

/-- The last request of an executor is the exit of its command. -/
theorem onStop_getLast {e : CommandExecutor} {exitCode now : Int} {req : Request}
    (h : (e.onStop exitCode now).2.getLast? = some req) :
    req.sessionId = e.sessionId ∧ req.sessionHeartBeat = false ∧
      ∃ detail, req.executeOutput = some detail ∧ detail.isExit = true ∧
        detail.originalRequestId = e.originalRequestId := by
  have hkept : (e.sendBufferedOutput now).1.sessionId = e.sessionId ∧
      (e.sendBufferedOutput now).1.originalRequestId = e.originalRequestId := by
    rw [CommandExecutor.sendBufferedOutput]
    split <;> exact ⟨rfl, rfl⟩
  rw [CommandExecutor.onStop, List.getLast?_concat, Option.some_inj] at h
  rw [← h]
  exact ⟨hkept.1, rfl, _, rfl, rfl, hkept.2⟩

theorem unwaited_iff {c : Call} (hok : ∀ reply w, c.answered = some (.ok reply, w) →
    reply.errorCode = 0) : c.Unwaited ↔ Call.reports c.answered ≠ 0 := by
  cases hans : c.answered with
  | none => simp [Call.Unwaited, hans, Call.reports]
  | some answered =>
    obtain ⟨answer, w⟩ := answered
    cases answer with
    | timeOut => exact iff_of_true ⟨.timeOut, w, hans, .inl rfl⟩ (by simp [Call.reports])
    | ok reply => cases w <;> simp [Call.Unwaited, hans, Call.reports, hok reply _ hans]

/-- An exit comes: this leads to a second report exactly if it is that of the running command and
the callback has reported. -/
theorem becomes_exit {s : Session} {c : Call} (h : Sound s.node c) {executor : CommandExecutor}
    (hexec : c.executor = some executor) {exitCode now : Int} {req : Request}
    (hreq : (executor.onStop exitCode now).2.getLast? = some req) {n' : LocalServerNode}
    {deeds : List Deed} (hs : s.receive req = (n', deeds)) :
    Becomes s.node n' deeds c
        { c with
          executor := none
          exited := s.accepts req
          notices := c.notices ++ notices deeds } ∧
      ((c.notices ++ notices deeds).length ≤ 1 ↔
        ∀ req, c.Sends req → req.requestId = s.node.runningRequestId → ¬ c.Unwaited) := by
  obtain ⟨hsid, hbeat, detail, hdetail, hisExit, hid⟩ := onStop_getLast hreq
  obtain ⟨hnode, hdeeds, hcount⟩ := receive_output (s := s) hdetail
  rw [hs] at hnode hdeeds hcount
  rw [hisExit, Bool.and_true] at hcount
  obtain rfl : n' = s.node := hnode
  have hsound := h
  rw [Sound] at h
  split at h
  · rw [h.2.1] at hexec
    cases hexec
  · next creq timeout hsent =>
    obtain ⟨hsession, hpos, hst, hlen⟩ := h
    obtain ⟨hid', hsid', hexit⟩ := hst.executor executor hexec
    have hon : c.executor.isSome ∨ c.exited := .inl (by rw [hexec]; rfl)
    rw [hexit, Bool.toNat_false, Nat.zero_add] at hlen
    have haccepts : s.accepts req = decide (creq.requestId = s.node.runningRequestId) := by
      simp [accepts, LocalServerNode.preHandle, LocalServerNode.preHandleRequest, hsid, hsid',
        hsession, hbeat, hdetail, hid, hid']
    refine ⟨⟨rfl, List.length_append, ?_, rfl, rfl, hdeeds⟩, ?_⟩
    · simp only [Sound, hsent]
      refine ⟨hsession, hpos, ⟨by simp, fun _ => hst.taken hon, fun _ => hst.reply hon,
        fun _ => hst.answered hon, hst.untaken⟩, ?_⟩
      rw [List.length_append, hlen, hcount, Nat.add_comm]
    · have hsends : ∀ r, c.Sends r ↔ r = creq := fun r => by
        simp [Call.Sends, hsent, eq_comm]
      rw [List.length_append, hlen, hcount, haccepts, unwaited_iff (hst.answered hon)]
      simp only [hsends, forall_eq, ne_eq, not_not]
      have hle := Call.reports_le_one c.answered
      by_cases hrun : creq.requestId = s.node.runningRequestId
      · simp only [hrun, decide_true, Bool.toNat_true, forall_const]
        omega
      · simpa [hrun] using hle
  · rw [h.2.1] at hexec
    cases hexec
  · rw [h.2.1] at hexec
    cases hexec
  · exact h.elim

/-- The event is possible, and this is where it leads to. -/
inductive Happens (s : Session) : Event → Session × List Deed → Prop where
  | take {k : Nat} {files : RemoteFiles} {started : Bool} {now : Int} {c : Call} {req : Request}
      {callback : Callback} {timeout : Nat} {reply : Response} {executor : Option CommandExecutor}
      {deed : Option RemoteDeed} (hk : s.calls[k]? = some c)
      (hsent : c.sent = some (req, callback, timeout)) (htaken : c.taken = false)
      (hreply : s.remote.handleRequest files started now req (prepareReply req) =
        (reply, executor, deed)) :
      Happens s (.take k files started now)
        ({ s with
          calls := s.calls.set k
            { c with
              taken := true
              reply := some reply
              executor := executor.filter (·.process) } }, [])
  | answer {k : Nat} {files : Files} {c : Call} {req : Request} {callback : Callback}
      {timeout : Nat} {reply : Response} (hk : s.calls[k]? = some c)
      (hsent : c.sent = some (req, callback, timeout)) (hreply : c.reply = some reply)
      (hans : c.answered = none) :
      Happens s (.answer k files) (s.settle files k c callback (.ok reply))
  | timeOut {k : Nat} {files : Files} {c : Call} {req : Request} {callback : Callback}
      {timeout : Nat} (hk : s.calls[k]? = some c) (hsent : c.sent = some (req, callback, timeout))
      (hans : c.answered = none) (hpos : 0 < timeout) :
      Happens s (.timeOut k files) (s.settle files k c callback .timeOut)
  | exit {k : Nat} {exitCode now : Int} {c : Call} {executor : CommandExecutor} {req : Request}
      {node : LocalServerNode} {deeds : List Deed} (hk : s.calls[k]? = some c)
      (hexec : c.executor = some executor)
      (hreq : (executor.onStop exitCode now).2.getLast? = some req)
      (hreceive : s.receive req = (node, deeds)) :
      Happens s (.exit k exitCode now)
        ({ s with
          node := node
          calls := s.calls.set k
            { c with
              executor := none
              exited := s.accepts req
              notices := c.notices ++ notices deeds } }, deeds)
  | output {detail : ExecuteCommandOutputRequest} {node : LocalServerNode} {deeds : List Deed}
      (hexit : detail.isExit = false)
      (hreceive : s.receive { sessionId := s.remote.sessionId, executeOutput := some detail } =
        (node, deeds)) :
      Happens s (.output detail) ({ s with node := node }, deeds)

theorem happens_of_event {s : Session} {e : Event} {r : Session × List Deed}
    (hs : s.event e = some r) : s.Happens e r := by
  cases e with
  | take k files started now =>
    simp only [event] at hs
    split at hs
    · next c hk =>
      split at hs
      · next req callback timeout hsent =>
        split at hs
        · cases hs
        · next htaken =>
          obtain rfl := Option.some_inj.1 hs
          exact .take hk hsent (Bool.not_eq_true _ ▸ htaken) rfl
      · cases hs
    · cases hs
  | answer k files =>
    simp only [event] at hs
    split at hs
    · next c hk =>
      split at hs
      · next req callback timeout reply hsent hreply hans =>
        obtain rfl := Option.some_inj.1 hs
        exact .answer hk hsent hreply hans
      · cases hs
    · cases hs
  | timeOut k files =>
    simp only [event] at hs
    split at hs
    · next c hk =>
      split at hs
      · next req callback timeout hsent hans =>
        split at hs
        · next hpos =>
          obtain rfl := Option.some_inj.1 hs
          exact .timeOut hk hsent hans hpos
        · cases hs
      · cases hs
    · cases hs
  | exit k exitCode now =>
    simp only [event] at hs
    split at hs
    · next c hk =>
      split at hs
      · next executor hexec =>
        split at hs
        · next req hreq =>
          obtain rfl := Option.some_inj.1 hs
          exact .exit hk hexec hreq rfl
        · cases hs
      · cases hs
    · cases hs
  | output detail =>
    simp only [event] at hs
    split at hs
    · cases hs
    · next hexit =>
      obtain rfl := Option.some_inj.1 hs
      exact .output (Bool.not_eq_true _ ▸ hexit) rfl

/-- An event leaves the calls as they are and reports nothing, or it is about one call. -/
theorem event_cases {s t : Session} {e : Event} {deeds : List Deed} (h : s.Inv)
    (hs : s.event e = some (t, deeds)) :
    t.remote = s.remote ∧
    (t.calls = s.calls ∧ notices deeds = [] ∧ Minor s.node t.node deeds ∧ s.OneReport (.event e) ∨
    ∃ k c c', s.calls[k]? = some c ∧ t.calls = s.calls.set k c' ∧
      Becomes s.node t.node deeds c c' ∧
      (c.notices.length ≤ 1 → (c'.notices.length ≤ 1 ↔ s.OneReport (.event e)))) := by
  have hhappens := happens_of_event hs
  generalize hr : (t, deeds) = r at hhappens
  cases hhappens with
  | take hk hsent htaken hreply =>
    obtain ⟨rfl, rfl⟩ := Prod.mk.inj hr
    exact ⟨rfl, .inr ⟨_, _, _, hk, rfl,
      becomes_take (h _ (List.mem_of_getElem? hk)) hsent htaken hreply,
      fun hle => iff_of_true hle trivial⟩⟩
  | @answer k files c _ _ _ _ hk hsent hreply hans =>
    obtain ⟨c', hremote, hcalls, hb, hiff⟩ := becomes_settle (h c (List.mem_of_getElem? hk))
      hsent hans (by rintro _ ⟨⟩; exact hreply) files k hr.symm
    refine ⟨hremote, .inr ⟨k, c, c', hk, hcalls, hb, fun _ => hiff.trans ?_⟩⟩
    simp [OneReport, hk, hans, hreply]
  | @timeOut k files c _ _ _ hk hsent hans =>
    obtain ⟨c', hremote, hcalls, hb, hiff⟩ := becomes_settle (h c (List.mem_of_getElem? hk))
      hsent hans (by rintro _ ⟨⟩) files k hr.symm
    refine ⟨hremote, .inr ⟨k, c, c', hk, hcalls, hb, fun _ => hiff.trans ?_⟩⟩
    simp [OneReport, hk, hans]
  | @exit k _ _ c executor _ _ _ hk hexec hreq hreceive =>
    obtain ⟨rfl, rfl⟩ := Prod.mk.inj hr
    obtain ⟨hb, hiff⟩ := becomes_exit (h c (List.mem_of_getElem? hk)) hexec hreq hreceive
    refine ⟨rfl, .inr ⟨k, c, _, hk, rfl, hb, fun _ => hiff.trans ?_⟩⟩
    simp only [OneReport, hk, Option.some_inj]
    exact ⟨fun hall c' req' hc _ => hc ▸ hall req',
      fun hall req' => hall c req' rfl (by rw [hexec]; rfl)⟩
  | @output detail _ _ hexit hreceive =>
    obtain ⟨rfl, rfl⟩ := Prod.mk.inj hr
    have hout : ({ sessionId := s.remote.sessionId, executeOutput := some detail } :
        Request).executeOutput = some detail := rfl
    obtain ⟨hnode, hdeeds, hcount⟩ := receive_output (s := s) hout
    rw [hreceive] at hnode hdeeds hcount
    obtain rfl := hnode
    rw [hexit, Bool.and_false] at hcount
    exact ⟨rfl, .inl ⟨rfl, List.eq_nil_of_length_eq_zero hcount, ⟨rfl, rfl, hdeeds⟩, trivial⟩⟩

/-! ## Runs -/

theorem call_cases {files : Files} {s t : Session} {line : Text} {deeds : List Deed}
    (hs : s.call files line = some (t, deeds)) :
    t.remote = s.remote ∧ LocalServerNode.Outcome s.node t.node deeds ∧
      t.calls = s.calls ++ [{ line := line, sent := sent deeds, notices := notices deeds }] := by
  rw [call] at hs
  split at hs
  · next n' ds hexec =>
    obtain ⟨rfl, rfl⟩ := Prod.mk.inj (Option.some_inj.1 hs)
    exact ⟨rfl, LocalServerNode.outcome_executeCommandRemotely hexec, rfl⟩
  · cases hs

theorem outcome_kept {n n' : LocalServerNode} {deeds : List Deed}
    (h : LocalServerNode.Outcome n n' deeds) :
    n'.sessionId = n.sessionId ∧ (n.shoudExit = true → n'.shoudExit = true) := by
  cases h with
  | notify _ _ _ hsession hexit => exact ⟨hsession, hexit.trans⟩
  | operation _ _ _ _ hsession hexit => exact ⟨hsession, hexit.trans⟩
  | leave _ _ _ hsession hexit => exact ⟨hsession, fun _ => hexit⟩
  | command _ _ _ hsession hexit => exact ⟨hsession, hexit.trans⟩

theorem notices_systems {before : List Deed} (h : ∀ deed ∈ before, ∃ line, deed = .system line) :
    notices before = [] ∧ sent before = none := by
  refine ⟨List.filterMap_eq_nil_iff.2 fun deed hdeed => ?_,
    List.findSome?_eq_none_iff.2 fun deed hdeed => ?_⟩
  all_goals obtain ⟨line, rfl⟩ := h deed hdeed; rfl

/-- A new call is sound, and reported at most once. -/
theorem sound_call {n n' : LocalServerNode} {deeds : List Deed}
    (h : LocalServerNode.Outcome n n' deeds) (line : Text) :
    Sound n' { line := line, sent := sent deeds, notices := notices deeds } ∧
      (notices deeds).length ≤ 1 := by
  cases h with
  | notify before newStatus hbefore hsession hexit =>
    obtain ⟨hnotices, hsent⟩ := notices_systems hbefore
    have hn : notices (before ++ [.notify newStatus]) = [newStatus] := by
      rw [notices, List.filterMap_append]
      exact congrArg (· ++ [newStatus]) hnotices
    have hs : sent (before ++ [.notify newStatus]) = none := by
      rw [sent, List.findSome?_append]
      rw [sent] at hsent
      rw [hsent]
      rfl
    rw [hn, hs]
    exact ⟨⟨rfl, rfl, rfl⟩, Nat.le_refl 1⟩
  | operation address req detail hreq hsession hexit =>
    exact ⟨⟨hreq, rfl, rfl, Nat.le_refl 0⟩, Nat.zero_le 1⟩
  | leave address req hreq hsession hexit =>
    exact ⟨⟨hreq, rfl, rfl, rfl, hexit⟩, Nat.zero_le 1⟩
  | command address req hreq hsession hexit =>
    refine ⟨⟨hreq.trans hsession.symm, by decide, ⟨?_, ?_, ?_, ?_, ?_⟩, rfl⟩, Nat.zero_le 1⟩
    all_goals simp

theorem inv_call {files : Files} {s t : Session} {line : Text} {deeds : List Deed} (h : s.Inv)
    (hone : s.Single) (hs : s.call files line = some (t, deeds)) : t.Inv ∧ t.Single := by
  obtain ⟨-, hout, hcalls⟩ := call_cases hs
  obtain ⟨hsession, hexit⟩ := outcome_kept hout
  obtain ⟨hsound, hle⟩ := sound_call hout line
  rw [Inv, Single, hcalls]
  refine ⟨fun c hc => ?_, fun c hc => ?_⟩
  all_goals rw [List.mem_append, List.mem_singleton] at hc
  · rcases hc with hc | rfl
    · exact (h c hc).mono hsession hexit
    · exact hsound
  · rcases hc with hc | rfl
    · exact hone c hc
    · exact hle

theorem inv_event {s t : Session} {e : Event} {deeds : List Deed} (h : s.Inv) (hone : s.Single)
    (hs : s.event e = some (t, deeds)) : t.Inv ∧ (t.Single ↔ s.OneReport (.event e)) := by
  obtain ⟨-, ⟨hcalls, -, hminor, hcond⟩ | ⟨k, c, c', hk, hcalls, hb, hiff⟩⟩ := event_cases h hs
  · rw [Inv, Single, hcalls]
    exact ⟨fun c hc => (h c hc).mono hminor.session hminor.exit.trans, iff_of_true hone hcond⟩
  · rw [Inv, Single, hcalls]
    have hmem : c' ∈ s.calls.set k c' := by
      obtain ⟨hlt, -⟩ := List.getElem?_eq_some_iff.1 hk
      exact List.mem_set hlt c'
    refine ⟨fun d hd => ?_, ?_⟩
    · rcases List.mem_or_eq_of_mem_set hd with hd | rfl
      · exact (h d hd).mono hb.minor.session hb.minor.exit.trans
      · exact hb.sound
    · rw [← hiff (hone c (List.mem_of_getElem? hk))]
      refine ⟨fun hall => hall c' hmem, fun hle d hd => ?_⟩
      rcases List.mem_or_eq_of_mem_set hd with hd | rfl
      · exact hone d hd
      · exact hle

/-- **One step.**  It reports no call twice exactly if it meets `OneReport`. -/
theorem one_report_step {s t : Session} {a : Label} (h : s.Inv) (hone : s.Single)
    (hs : step s a = some t) : t.Inv ∧ (t.Single ↔ s.OneReport a) := by
  cases a with
  | call files line =>
    obtain ⟨⟨u, deeds⟩, hcall, rfl⟩ := Option.map_eq_some_iff.1 hs
    obtain ⟨hinv, hsingle⟩ := inv_call h hone hcall
    exact ⟨hinv, iff_of_true hsingle trivial⟩
  | event e =>
    obtain ⟨⟨u, deeds⟩, hevent, rfl⟩ := Option.map_eq_some_iff.1 hs
    exact inv_event h hone hevent

/-- The condition is about the steps that can be taken. -/
theorem oneReport_of_refused {s : Session} {a : Label} (h : s.Inv) (hs : step s a = none) :
    s.OneReport a := by
  cases a with
  | call files line => trivial
  | event e =>
    rw [step, Option.map_eq_none_iff] at hs
    cases e with
    | take k files started now => trivial
    | output detail => trivial
    | answer k files =>
      intro c hk hans hreply hexit
      obtain ⟨reply, hreply⟩ := Option.isSome_iff_exists.1 hreply
      have hsound := h c (List.mem_of_getElem? hk)
      cases hsent : c.sent with
      | none =>
        rw [Sound, hsent] at hsound
        rw [hsound.2.2] at hexit
        cases hexit
      | some sent => simp [event, hk, hsent, hreply, hans] at hs
    | timeOut k files =>
      intro c hk hans
      have hsound := h c (List.mem_of_getElem? hk)
      rw [Sound] at hsound
      split at hsound
      · exact hsound.2.2
      · next req timeout hsent => simp [event, hk, hsent, hans, hsound.2.1] at hs
      · exact hsound.2.2.1
      · exact hsound.2.2.1
      · exact hsound.elim
    | exit k exitCode now =>
      intro c req hk hexec
      obtain ⟨executor, hexec⟩ := Option.isSome_iff_exists.1 hexec
      simp [event, hk, hexec, CommandExecutor.onStop] at hs

/-- No call is reported twice in exactly the runs whose steps all meet `OneReport`. -/
theorem single_iff {s : Session} (h : s.Inv) (hone : s.Single) (as : List Label) :
    (∀ pre t, pre <+: as → step.run s pre = some t → t.Single) ↔ step.Meets OneReport s as := by
  refine Machine.always_iff (fun s a t hinv hsingle _ hs => ?_) (fun s a hinv hsingle => ?_) h hone
  · exact (one_report_step hinv hsingle hs).1
  · refine ⟨fun hC => ?_, fun hC t hs => (one_report_step hinv hsingle hs).2.2 hC⟩
    cases hs : step s a with
    | some t => exact (one_report_step hinv hsingle hs).2.1 (hC t hs)
    | none => exact oneReport_of_refused hinv hs

end Session

end Dcfpe.Rs

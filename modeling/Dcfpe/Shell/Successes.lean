import Dcfpe.Shell.Status

/-!
# The successes of a command

`executeCommandRemotely` refuses a line with no words, and those of the one word `i` or `l`; the
others are commands, and two of them end the session.  A command is reported with one of three
statuses, and with `SUCCEED` at most twice: with its exit, and with its reply while `waitForCommand`
is off.
-/

set_option autoImplicit false

namespace Dcfpe.Rs

/-! ## The lines of a batch -/

/-- `executeCommandRemotely` takes the line. -/
def isCommand (line : Text) : Bool :=
  split line ≠ [] && split line ≠ ["i".toList] && split line ≠ ["l".toList]

/-- The line ends the session. -/
def isExit (line : Text) : Bool :=
  match split line with
  | cmd :: _ => cmd = "exit".toList || cmd = "q".toList
  | [] => false

/-- The lines before the first that ends the session. -/
def programEnd (cmdLines : List Text) : Nat := cmdLines.findIdx isExit

theorem isCommand_of_isExit {line : Text} (h : isExit line = true) : isCommand line = true := by
  rw [isExit] at h
  split at h
  · next cmd args hsplit =>
    rw [Bool.or_eq_true, decide_eq_true_eq, decide_eq_true_eq] at h
    rw [isCommand, hsplit]
    rcases h with rfl | rfl <;> simp
  · cases h

theorem lt_programEnd {cmdLines : List Text} {i : Nat} {line : Text}
    (hle : i ≤ programEnd cmdLines) (hi : cmdLines[i]? = some line) (hno : isExit line = false) :
    i < programEnd cmdLines := by
  refine Nat.lt_of_le_of_ne hle fun heq => ?_
  subst heq
  obtain ⟨hlt, rfl⟩ := List.getElem?_eq_some_iff.1 hi
  exact Bool.false_ne_true (hno.symm.trans List.findIdx_getElem)

theorem programEnd_le {cmdLines : List Text} {i : Nat} {line : Text}
    (hi : cmdLines[i]? = some line) (hexit : isExit line = true) : programEnd cmdLines ≤ i := by
  obtain ⟨hlt, rfl⟩ := List.getElem?_eq_some_iff.1 hi
  by_contra hno
  rw [List.not_of_lt_findIdx (Nat.lt_of_not_le hno)] at hexit
  cases hexit

namespace LocalServerNode

theorem executeCommandRemotely_eq_none_iff (files : Files) (n : LocalServerNode) (line : Text) :
    n.executeCommandRemotely files line = none ↔ isCommand line = false := by
  rw [executeCommandRemotely, isCommand]
  cases split line with
  | nil => simp
  | cons cmd args =>
    by_cases hempty : args = [] ∧ (cmd = "i".toList ∨ cmd = "l".toList)
    · obtain ⟨rfl, rfl | rfl⟩ := hempty <;> simp
    · simp only [if_neg hempty]
      refine iff_of_false ?_ ?_
      · split <;> simp
      · rw [not_and, not_or] at hempty
        simp only [ne_eq, reduceCtorEq, not_false_eq_true, decide_true, Bool.true_and,
          List.cons.injEq, Bool.and_eq_false_iff, decide_eq_false_iff_not, not_not]
        rintro (⟨rfl, hargs⟩ | ⟨rfl, hargs⟩)
        · exact (hempty hargs).1 rfl
        · exact (hempty hargs).2 rfl

/-- The deeds report with no other status than these. -/
def Plainly (deeds : List Deed) : Prop :=
  ∀ newStatus, .notify newStatus ∈ deeds →
    newStatus = .timeOut ∨ newStatus = .failed ∨ newStatus = .succeed

theorem plainly_sendFileOperation (n : LocalServerNode) (detail : FileOperationRequest) :
    Plainly (n.sendFileOperation detail).2 := by
  simp [Plainly, sendFileOperation, sendRequest]

theorem plainly_failed : Plainly [.notify .failed] := by
  simp [Plainly]

theorem plainly_sendFiles (files : Files) (n : LocalServerNode) (cmd : Text) (args : List Text) :
    Plainly (sendFiles files n cmd args).2 := by
  rw [sendFiles]
  repeat' split
  all_goals first
    | exact plainly_failed
    | exact plainly_sendFileOperation n _

theorem plainly_getFiles (n : LocalServerNode) (cmd : Text) (args : List Text) :
    Plainly (getFiles n cmd args).2 := by
  rw [getFiles]
  repeat' split
  all_goals first
    | exact plainly_failed
    | exact plainly_sendFileOperation n _

theorem shoudExit_sendFiles (files : Files) (n : LocalServerNode) (cmd : Text)
    (args : List Text) : (sendFiles files n cmd args).1.shoudExit = n.shoudExit := by
  rw [sendFiles]
  repeat' split
  all_goals rfl

theorem shoudExit_getFiles (n : LocalServerNode) (cmd : Text) (args : List Text) :
    (getFiles n cmd args).1.shoudExit = n.shoudExit := by
  rw [getFiles]
  repeat' split
  all_goals rfl

/-- An internal command ends the session if it is `exit` or `q`. -/
theorem handleInternalCommand_spec {files : Files} {n n' : LocalServerNode} {line cmd : Text}
    {args : List Text} {deeds : List Deed}
    (h : n.handleInternalCommand files line cmd args = some (n', deeds)) :
    Plainly deeds ∧ n'.shoudExit =
      (n.shoudExit || (cmd = "exit".toList || cmd = "q".toList : Bool)) := by
  rw [handleInternalCommand] at h
  split at h
  · next hexit =>
    obtain ⟨rfl, rfl⟩ := Prod.mk.inj (Option.some_inj.1 h)
    refine ⟨by simp [Plainly], ?_⟩
    rcases hexit with rfl | rfl <;> simp
  · next hno =>
    rw [not_or] at hno
    simp only [hno.1, hno.2, decide_false, Bool.or_false]
    split at h
    · obtain ⟨rfl, rfl⟩ := Prod.mk.inj (Option.some_inj.1 h)
      exact ⟨by simp [Plainly], rfl⟩
    split at h
    · obtain ⟨rfl, rfl⟩ := Prod.mk.inj (Option.some_inj.1 h)
      exact ⟨by simp [Plainly], (setOption_kept args n).2⟩
    split at h
    · obtain ⟨rfl, rfl⟩ := Prod.ext_iff.1 (Option.some_inj.1 h)
      exact ⟨plainly_sendFiles files n cmd args, shoudExit_sendFiles files n cmd args⟩
    split at h
    · obtain ⟨rfl, rfl⟩ := Prod.ext_iff.1 (Option.some_inj.1 h)
      exact ⟨plainly_getFiles n cmd args, shoudExit_getFiles n cmd args⟩
    split at h
    · split at h
      · obtain ⟨rfl, rfl⟩ := Prod.mk.inj (Option.some_inj.1 h)
        exact ⟨plainly_failed, rfl⟩
      · obtain ⟨rfl, rfl⟩ := Prod.ext_iff.1 (Option.some_inj.1 h)
        exact ⟨plainly_sendFileOperation n _, rfl⟩
    · cases h

theorem executeCommandRemotely_spec {files : Files} {n n' : LocalServerNode} {line : Text}
    {deeds : List Deed} (h : n.executeCommandRemotely files line = some (n', deeds)) :
    Plainly deeds ∧ n'.shoudExit = (n.shoudExit || isExit line) := by
  rw [executeCommandRemotely] at h
  rw [isExit]
  cases hsplit : split line with
  | nil => simp [hsplit] at h
  | cons cmd args =>
    simp only [hsplit] at h ⊢
    split at h
    · cases h
    split at h
    · next done hint =>
      obtain rfl := Option.some_inj.1 h
      exact handleInternalCommand_spec hint
    · next hint =>
      have hno : ¬ (cmd = "exit".toList ∨ cmd = "q".toList) := fun hexit => by
        rw [handleInternalCommand, if_pos hexit] at hint
        cases hint
      rw [not_or] at hno
      obtain ⟨rfl, rfl⟩ := Prod.mk.inj (Option.some_inj.1 h)
      refine ⟨by simp [Plainly, sendRequest], ?_⟩
      simp only [hno.1, hno.2, decide_false, Bool.or_false]
      rfl

theorem plainly_runCallback (files : Files) (n : LocalServerNode) (answer : Answer)
    (callback : Callback) : Plainly (n.runCallback files answer callback).2 := by
  cases callback with
  | null => simp [runCallback, Plainly]
  | handleCreateSessionResponse =>
    rw [runCallback, handleCreateSessionResponse.eq_def]
    repeat' split
    all_goals simp [Plainly]
  | handleExecuteCommandResponse =>
    rw [runCallback, handleExecuteCommandResponse.eq_def]
    repeat' split
    all_goals simp [Plainly]
  | handleFileOperationResponse req =>
    rw [runCallback, handleFileOperationResponse.eq_def]
    repeat' split
    all_goals simp [Plainly]

end LocalServerNode

/-! ## The successes of a call -/

namespace Call

/-- The successes an `ExecuteCommand` is reported with when its callback was given this. -/
def successes : Option (Answer × Bool) → Nat
  | some (.ok reply, waitForCommand) =>
    if reply.errorCode = 0 ∧ waitForCommand = false then 1 else 0
  | _ => 0

/-- A command succeeds with its exit, and with its reply while `waitForCommand` is off. -/
def Heard (c : Call) : Prop :=
  ∀ req timeout, c.sent = some (req, .handleExecuteCommandResponse, timeout) →
    c.notices.count .succeed = c.exited.toNat + successes c.answered

/-- It has done both. -/
def Twice (c : Call) : Prop := c.exited = true ∧ ∃ reply, c.answered = some (.ok reply, false)

theorem successes_le_one (answered : Option (Answer × Bool)) : successes answered ≤ 1 := by
  rw [successes.eq_def]
  repeat' split
  all_goals simp

theorem count_le_one {n : LocalServerNode} {c : Call} (h : Session.Sound n c) (hheard : c.Heard)
    (hno : ¬ c.Twice) : c.notices.count .succeed ≤ 1 := by
  have hle : c.notices.count .succeed ≤ c.notices.length := List.count_le_length
  have hone := successes_le_one c.answered
  rw [Session.Sound] at h
  split at h
  · rw [h.1] at hle
    exact hle
  · next req timeout hsent =>
    rw [hheard req timeout hsent]
    cases hexit : c.exited with
    | false =>
      rw [Bool.toNat_false, Nat.zero_add]
      exact hone
    | true =>
      have hzero : successes c.answered = 0 := by
        rw [successes.eq_def]
        split
        · next reply waitForCommand hans =>
          refine if_neg fun hoff => hno ⟨hexit, reply, ?_⟩
          rw [hans, hoff.2]
        · rfl
      rw [hzero]
      exact Nat.le_refl 1
  · exact Nat.le_trans hle (Nat.le_trans h.2.2.2 (Bool.toNat_le _))
  · rw [h.2.2.2.1]
    exact Nat.zero_le 1
  · exact h.elim

end Call

namespace Session

/-- Which call an event is about. -/
def Event.call : Event → Option Nat
  | .take k _ _ _ => some k
  | .answer k _ => some k
  | .timeOut k _ => some k
  | .exit k _ _ => some k
  | .output _ => none

/-- The reply to a command that has exited as the running one is not handled while `waitForCommand`
is off; and a command whose reply was handled so does not exit as the running one. -/
def OneSuccess (s : Session) : Event → Prop
  | .exit k _ _ => ∀ c req, s.calls[k]? = some c → c.executor.isSome → c.Sends req →
      req.requestId = s.node.runningRequestId → ¬ ∃ reply, c.answered = some (.ok reply, false)
  | .answer k _ => ∀ c, s.calls[k]? = some c → c.answered = none → c.reply.isSome →
      c.exited → s.node.waitForCommand = true
  | _ => True

/-- The call `c` is now `c'`, and has been reported with the notices among `deeds`. -/
structure Hears (c c' : Call) (deeds : List Deed) : Prop where
  notices : c'.notices = c.notices ++ Session.notices deeds
  heard : c.Heard → c'.Heard

theorem count_runCallback (files : Files) (n : LocalServerNode) (answer : Answer) :
    (notices (n.runCallback files answer .handleExecuteCommandResponse).2).count .succeed =
      Call.successes (some (answer, n.waitForCommand)) := by
  cases answer with
  | timeOut => rfl
  | ok reply =>
    rw [LocalServerNode.runCallback, LocalServerNode.handleExecuteCommandResponse, Call.successes]
    by_cases he : reply.errorCode = 0
    · cases hw : n.waitForCommand <;> simp [he, notices]
    · simp [he, notices, ServerStatus.failed, ServerStatus.succeed]

theorem hears_settle {s t : Session} {c : Call} {req : Request} {callback : Callback}
    {timeout : Nat} (hsent : c.sent = some (req, callback, timeout)) (hans : c.answered = none)
    {answer : Answer} {files : Files} {k : Nat} {deeds : List Deed}
    (hs : s.settle files k c callback answer = (t, deeds)) :
    ∃ c', t.calls = s.calls.set k c' ∧ Hears c c' deeds ∧ LocalServerNode.Plainly deeds ∧
      c'.exited = c.exited ∧ c'.answered = some (answer, s.node.waitForCommand) := by
  have hplainly := LocalServerNode.plainly_runCallback files s.node answer callback
  rw [settle] at hs
  cases hrun : s.node.runCallback files answer callback with | mk n' ds
  rw [hrun] at hs hplainly
  obtain ⟨rfl, rfl⟩ := Prod.mk.inj hs
  refine ⟨_, rfl, ⟨rfl, fun hheard creq ctimeout hc => ?_⟩, hplainly, rfl, rfl⟩
  obtain ⟨rfl, rfl, rfl⟩ : req = creq ∧ callback = .handleExecuteCommandResponse ∧
      timeout = ctimeout := by
    simpa [hsent] using hc
  have hcount := count_runCallback files s.node answer
  rw [hrun] at hcount
  rw [List.count_append, hheard _ _ hsent, hans, hcount]
  rfl

/-- The exit of a command is a success, if it is that of the running one. -/
theorem notices_receive_exit {s : Session} {req : Request} {detail : ExecuteCommandOutputRequest}
    (hout : req.executeOutput = some detail) (hexit : detail.isExit = true) :
    notices (s.receive req).2 = if s.accepts req then [.succeed] else [] := by
  rw [receive, accepts, hout, Option.any_some]
  cases hpre : s.node.preHandle req with
  | some payload => rfl
  | none =>
    have hsession : req.sessionId = s.node.sessionId := by
      by_contra hne
      simp [LocalServerNode.preHandle, LocalServerNode.preHandleRequest, hne] at hpre
    by_cases hrun : detail.originalRequestId = s.node.runningRequestId <;>
      simp [LocalServerNode.handle, LocalServerNode.handleRequest, hsession, hout,
        LocalServerNode.handleExecuteOutput, hrun, hexit, notices]

theorem plainly_receive (s : Session) {req : Request} (hreq : req.executeOutput.isSome) :
    LocalServerNode.Plainly (s.receive req).2 := by
  obtain ⟨detail, hdetail⟩ := Option.isSome_iff_exists.1 hreq
  rw [receive]
  split
  · simp [LocalServerNode.Plainly]
  · rw [LocalServerNode.handle, LocalServerNode.handleRequest]
    simp only [hdetail, LocalServerNode.handleExecuteOutput]
    repeat' split
    all_goals simp [LocalServerNode.Plainly]

theorem hears_exit {s : Session} {c : Call} (h : Sound s.node c) {executor : CommandExecutor}
    (hexec : c.executor = some executor) {exitCode now : Int} {req : Request}
    (hreq : (executor.onStop exitCode now).2.getLast? = some req) {n' : LocalServerNode}
    {deeds : List Deed} (hs : s.receive req = (n', deeds)) :
    LocalServerNode.Plainly deeds ∧
    Hears c { c with
      executor := none
      exited := s.accepts req
      notices := c.notices ++ notices deeds } deeds ∧
    (s.accepts req = true → ∃ creq, c.Sends creq ∧ creq.requestId = s.node.runningRequestId) := by
  obtain ⟨-, -, detail, hdetail, hisExit, hid⟩ := onStop_getLast hreq
  have hnotices := notices_receive_exit (s := s) hdetail hisExit
  have hplainly := plainly_receive s (hdetail ▸ rfl : req.executeOutput.isSome)
  rw [hs] at hnotices hplainly
  have hnone : c.executor ≠ none := by simp [hexec]
  rw [Sound] at h
  split at h
  · exact absurd h.2.1 hnone
  · next creq timeout hsent =>
    obtain ⟨hid', -, hexit⟩ := h.2.2.1.executor executor hexec
    refine ⟨hplainly, ⟨rfl, fun hheard dreq dtimeout hd => ?_⟩, fun haccepts =>
      ⟨creq, ⟨_, _, hsent⟩, ?_⟩⟩
    · change (c.notices ++ notices deeds).count _ = _
      rw [List.count_append, hheard _ _ hd, hexit, Bool.toNat_false, Nat.zero_add, hnotices,
        Nat.add_comm]
      cases s.accepts req <;> rfl
    · rw [accepts, hdetail, Option.any_some, Bool.and_eq_true, decide_eq_true_eq, hid, hid']
        at haccepts
      exact haccepts.2
  · exact absurd h.2.1 hnone
  · exact absurd h.2.1 hnone
  · exact h.elim

/-- An event reports nothing, or it reports one call. -/
theorem event_hears {s t : Session} {e : Event} {deeds : List Deed} (h : s.Inv)
    (hs : s.event e = some (t, deeds)) :
    LocalServerNode.Plainly deeds ∧ (t.calls = s.calls ∧ notices deeds = [] ∨
      ∃ k c c', e.call = some k ∧ s.calls[k]? = some c ∧ t.calls = s.calls.set k c' ∧
        Hears c c' deeds ∧ (s.OneSuccess e → ¬ c.Twice → ¬ c'.Twice)) := by
  have hhappens := happens_of_event hs
  generalize hr : (t, deeds) = r at hhappens
  cases hhappens with
  | @take k _ _ _ c _ _ _ _ _ _ hk =>
    obtain ⟨rfl, rfl⟩ := Prod.mk.inj hr
    exact ⟨by simp [LocalServerNode.Plainly],
      .inr ⟨k, c, _, rfl, hk, rfl, ⟨(List.append_nil _).symm, id⟩, fun _ hno => hno⟩⟩
  | @answer k _ c _ _ _ _ hk hsent hreply hans =>
    obtain ⟨c', hcalls, hhears, hplainly, hexit, hans'⟩ := hears_settle hsent hans hr.symm
    refine ⟨hplainly, .inr ⟨k, c, c', rfl, hk, hcalls, hhears, fun hone _ htwice => ?_⟩⟩
    obtain ⟨hexited, reply', heq⟩ := htwice
    have hwait := hone c hk hans (by rw [hreply]; rfl) (hexit.symm.trans hexited)
    rw [hans', hwait] at heq
    cases heq
  | @timeOut k _ c _ _ _ hk hsent hans =>
    obtain ⟨c', hcalls, hhears, hplainly, -, hans'⟩ := hears_settle hsent hans hr.symm
    refine ⟨hplainly, .inr ⟨k, c, c', rfl, hk, hcalls, hhears, fun _ _ htwice => ?_⟩⟩
    obtain ⟨-, reply', heq⟩ := htwice
    rw [hans'] at heq
    cases heq
  | @exit k _ _ c executor _ _ _ hk hexec hreq hreceive =>
    obtain ⟨rfl, rfl⟩ := Prod.mk.inj hr
    obtain ⟨hplainly, hhears, hsends⟩ :=
      hears_exit (h c (List.mem_of_getElem? hk)) hexec hreq hreceive
    refine ⟨hplainly, .inr ⟨k, c, _, rfl, hk, rfl, hhears, fun hone _ htwice => ?_⟩⟩
    obtain ⟨haccepts, hans⟩ := htwice
    obtain ⟨creq, hcreq, hid⟩ := hsends haccepts
    exact hone c creq hk (by rw [hexec]; rfl) hcreq hid hans
  | @output detail _ _ hexit hreceive =>
    obtain ⟨rfl, rfl⟩ := Prod.mk.inj hr
    have hplainly := plainly_receive s
      (rfl : ({ sessionId := s.remote.sessionId, executeOutput := some detail } :
        Request).executeOutput.isSome)
    obtain ⟨-, -, hcount⟩ := receive_output (s := s)
      (rfl : ({ sessionId := s.remote.sessionId, executeOutput := some detail } :
        Request).executeOutput = some detail)
    rw [hreceive] at hplainly hcount
    rw [hexit, Bool.and_false] at hcount
    exact ⟨hplainly, .inl ⟨rfl, List.eq_nil_of_length_eq_zero hcount⟩⟩

/-- What stays as it is whatever comes. -/
theorem inv_of_event {s t : Session} {e : Event} {deeds : List Deed} (h : s.Inv)
    (hs : s.event e = some (t, deeds)) :
    t.Inv ∧ t.remote = s.remote ∧ Minor s.node t.node deeds := by
  obtain ⟨hremote, ⟨hcalls, -, hminor, -⟩ | ⟨k, c, c', -, hcalls, hb, -⟩⟩ := event_cases h hs
  · rw [Inv, hcalls]
    exact ⟨fun c hc => (h c hc).mono hminor.session hminor.exit.trans, hremote, hminor⟩
  · rw [Inv, hcalls]
    refine ⟨fun d hd => ?_, hremote, hb.minor⟩
    rcases List.mem_or_eq_of_mem_set hd with hd | rfl
    · exact (h d hd).mono hb.minor.session hb.minor.exit.trans
    · exact hb.sound

end Session

end Dcfpe.Rs

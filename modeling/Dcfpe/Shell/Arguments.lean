import Dcfpe.Shell.LocalServerNode

/-!
# The arguments of a remote command

A command line is split on the machine of the user, and the pieces are what is sent.  The remote
side joins them with spaces into the text it gives to `cmd.exe`, so the pieces are found again only
as far as a line without quotes could have spelled them: an argument that was typed in quotes
because it has a space in it falls apart, an empty one vanishes.
-/

set_option autoImplicit false

namespace Dcfpe.Rs

namespace LocalServerNode

/-- The commands that are handled here send no `ExecuteCommandRequest`. -/
theorem executeCommand_of_internal {files : Files} {n n' : LocalServerNode} {line cmd : Text}
    {args : List Text} {deeds : List Deed}
    (h : n.handleInternalCommand files line cmd args = some (n', deeds)) {address : Option String}
    {req : Request} {callback : Callback} {timeout : Nat}
    (hs : .send address req callback timeout ∈ deeds) : req.executeCommand = none := by
  have hfo : ∀ fo : FileOperationRequest,
      .send address req callback timeout ∈ (n.sendFileOperation fo).2 →
        req.executeCommand = none := by
    intro fo hm
    simp only [sendFileOperation, sendRequest, List.mem_singleton, Deed.send.injEq] at hm
    rw [hm.2.1]
  have hno : ∀ status, .send address req callback timeout ∉ [Deed.notify status] := by simp
  rw [handleInternalCommand] at h
  split at h
  · obtain rfl := (Prod.mk.inj (Option.some_inj.1 h)).2
    simp only [List.mem_singleton, Deed.send.injEq] at hs
    rw [hs.2.1]
  split at h
  · obtain rfl := (Prod.mk.inj (Option.some_inj.1 h)).2
    simp at hs
  split at h
  · obtain rfl := (Prod.mk.inj (Option.some_inj.1 h)).2
    exact absurd hs (hno _)
  split at h
  · obtain rfl := congrArg Prod.snd (Option.some_inj.1 h)
    revert hs
    rw [sendFiles]
    repeat' split
    all_goals first | exact fun hs => absurd hs (hno _) | exact hfo _
  split at h
  · obtain rfl := congrArg Prod.snd (Option.some_inj.1 h)
    revert hs
    rw [getFiles]
    repeat' split
    all_goals first | exact fun hs => absurd hs (hno _) | exact hfo _
  split at h
  · split at h
    · obtain rfl := (Prod.mk.inj (Option.some_inj.1 h)).2
      exact absurd hs (hno _)
    · obtain rfl := congrArg Prod.snd (Option.some_inj.1 h)
      exact hfo _ hs
  · cases h

/-- What `executeCommandRemotely` sends for a line it does not handle itself: its tokens, under the
id of the request that becomes the running one. -/
theorem executeCommand_sent {files : Files} {n n' : LocalServerNode} {line : Text}
    {deeds : List Deed} (h : n.executeCommandRemotely files line = some (n', deeds))
    {address : Option String} {req : Request} {callback : Callback} {timeout : Nat}
    (hs : .send address req callback timeout ∈ deeds) {command : ExecuteCommandRequest}
    (hc : req.executeCommand = some command) :
    n' = { n with
      nextRequestId := n.nextRequestId + 1, runningRequestId := n.nextRequestId + 1 } ∧
    req.sessionId = n.sessionId ∧ req.requestId = n.nextRequestId + 1 ∧
    ∃ cmd args, split line = cmd :: args ∧ command = n.executeCommandRequest cmd args := by
  rw [executeCommandRemotely] at h
  split at h
  · cases h
  · next cmd args hsplit =>
    split at h
    · cases h
    · split at h
      · next done hint =>
        obtain rfl := Option.some_inj.1 h
        rw [executeCommand_of_internal hint hs] at hc
        cases hc
      · obtain ⟨rfl, rfl⟩ := Prod.mk.inj (Option.some_inj.1 h)
        simp only [List.mem_singleton, Deed.send.injEq] at hs
        obtain ⟨-, rfl, -, -⟩ := hs
        exact ⟨rfl, rfl, rfl, cmd, args, hsplit, (Option.some_inj.1 hc).symm⟩

/-- **When arguments keep their boundaries.**  The text that the remote side makes of a command
line splits into the tokens of that line exactly if none of them is empty or has a space in it. -/
theorem arguments_kept_iff {files : Files} {n n' : LocalServerNode} {line : Text}
    {deeds : List Deed} (h : n.executeCommandRemotely files line = some (n', deeds))
    {address : Option String} {req : Request} {callback : Callback} {timeout : Nat}
    (hs : .send address req callback timeout ∈ deeds) {command : ExecuteCommandRequest}
    (hc : req.executeCommand = some command) :
    split command.arg = split line ↔ ∀ t ∈ split line, t ≠ [] ∧ ' ' ∉ t := by
  obtain ⟨-, -, -, cmd, args, hsplit, rfl⟩ := executeCommand_sent h hs hc
  rw [arg_eq_join, LocalServerNode.executeCommandRequest, ← hsplit]
  exact split_join_split_iff line

/-- A node that is connected to its remote node. -/
def connectedNode : LocalServerNode :=
  { sessionId := 0, msgSender := some "tcp://10.0.0.2:3400",
    executorAddress := "tcp://10.0.0.2:3400" }

/-- The quotes of `git commit -m "msg"` are not needed, and nothing is lost with them. -/
theorem arguments_kept_needless_quotes :
    ∃ n' deeds req command,
      connectedNode.executeCommandRemotely {} "git commit -m \"msg\"".toList = some (n', deeds) ∧
      .send connectedNode.msgSender req .handleExecuteCommandResponse 10000 ∈ deeds ∧
      req.executeCommand = some command ∧
      split command.arg = split "git commit -m \"msg\"".toList := by
  refine ⟨_, _, _, _, rfl, List.mem_cons_self, rfl, ?_⟩
  have hexec : connectedNode.executeCommandRemotely {} "git commit -m \"msg\"".toList =
      some _ := rfl
  exact (arguments_kept_iff hexec List.mem_cons_self rfl).2 (by decide)

/-- The file name of `type "my file.txt"` becomes two arguments. -/
theorem quoted_argument_split :
    ¬ ∀ (files : Files) (n n' : LocalServerNode) (line : Text) (deeds : List Deed)
        (address : Option String) (req : Request) (callback : Callback) (timeout : Nat)
        (command : ExecuteCommandRequest),
      n.executeCommandRemotely files line = some (n', deeds) →
      .send address req callback timeout ∈ deeds →
      req.executeCommand = some command → split command.arg = split line := by
  intro h
  have h' := h {} connectedNode _ "type \"my file.txt\"".toList _ _ _ _ _ _ rfl
    List.mem_cons_self rfl
  exact absurd h' (by decide)

end LocalServerNode

end Dcfpe.Rs

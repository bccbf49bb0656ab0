import Dcfpe.Shell.CommandExecutor
import Dcfpe.Shell.RemoteServerNode
import Dcfpe.Lib.Machine

/-!
# A session of commands

A connected local node is called with command lines, at any time, by whoever hosts it.  A line that
asks for the other machine is sent to the remote node, which answers when it has started the command
and sends the exit of the command when that is over.  The answer, the time-out that stands in for
it, and the exit come in any order; each of them may report the end of the command to the host.

`Session` keeps for each call what has become of it, with the notifications posted for it.
-/

set_option autoImplicit false

namespace Dcfpe.Rs

/-! ## The remote node takes a request -/

/-- The files of the remote machine, as far as the remote node asks for them. -/
structure RemoteFiles where
  read : Text → Option Text := fun _ => none
  write : Text → Text → Bool := fun _ _ => true
  createDirectory : Text → Bool := fun _ => true

namespace RemoteServerNode

/-- Whether the files of `fs` or `fst` could all be written.  The path of each is an argument made
absolute, and for `fs` cut to its base name; `write` is asked with the argument. -/
def writeFiles (files : RemoteFiles) : List Text → Bool
  | path :: data :: args => files.write path data && writeFiles files args
  | _ => true

/-- The arguments of the reply to `fg`: each path with the data of its file. -/
def readFiles (files : RemoteFiles) : List Text → Option (List Text)
  | [] => some []
  | path :: args => do
    let data ← files.read path
    let rest ← readFiles files args
    some (path :: data :: rest)

/-- The same for `fgt`, where each path is followed by its name on the other side. -/
def readFilesTo (files : RemoteFiles) : List Text → Option (List Text)
  | path :: name :: args => do
    let data ← files.read path
    let rest ← readFilesTo files args
    some (name :: data :: rest)
  | _ => some []

def handleFileOperation (files : RemoteFiles) (req : FileOperationRequest) (reply : Response) :
    Response :=
  if req.cmd = "fs".toList ∨ req.cmd = "fst".toList then
    if writeFiles files req.args then
      { reply with fileOperation := some { cmd := req.cmd }, errorCode := 0 }
    else { reply with errorCode := -1 }
  else if req.cmd = "fg".toList ∨ req.cmd = "fgt".toList then
    match if req.cmd = "fg".toList then readFiles files req.args
          else readFilesTo files req.args with
    | some args =>
      { reply with fileOperation := some { cmd := req.cmd, args := args }, errorCode := 0 }
    | none => { reply with errorCode := -1 }
  else if req.cmd = "mkdir".toList then
    if req.args.all files.createDirectory then
      { reply with fileOperation := some { cmd := req.cmd }, errorCode := 0 }
    else { reply with errorCode := -1 }
  else reply

/-- `handleRequest`, with the executor it keeps.  `started` says whether the process of a command
can be started; the text of the command line, which is only printed, is left out of the reply. -/
def handleRequest (n : RemoteServerNode) (files : RemoteFiles) (started : Bool) (now : Int)
    (req : Request) (reply : Response) : Response × Option CommandExecutor × Option RemoteDeed :=
  let reply := { reply with sessionId := n.sessionId, errorCode := -1 }
  if req.sessionId ≠ n.sessionId then (reply, none, none)
  else if req.deleteSession then (reply, none, some .willStop)
  else
    match req.executeCommand with
    | some command =>
      let reply :=
        { reply with
          executeCommand := some
            { waitForCommand := command.waitForCommand
              remoteShowOutput := command.remoteShowOutput
              remoteShowError := command.remoteShowError
              localShowOutput := command.localShowOutput
              localShowError := command.localShowError } }
      let (executor, done) :=
        ({ sessionId := n.sessionId } : CommandExecutor).execute command req.requestId started now
      if done then ({ reply with errorCode := 0 }, some executor, none)
      else ({ reply with errorCode := -1 }, none, none)
    | none =>
      match req.fileOperation with
      | some detail => (handleFileOperation files detail reply, none, none)
      | none => (reply, none, none)

end RemoteServerNode

/-! ## The session -/

/-- A call of `executeCommandRemotely` that has returned `true`. -/
structure Call where
  line : Text
  /-- The request it has sent, if it has, with the callback and the time-out. -/
  sent : Option (Request × Callback × Nat) := none
  /-- The remote node has taken the request. -/
  taken : Bool := false
  reply : Option Response := none
  /-- The executor of its process, until the exit of that reaches the local node. -/
  executor : Option CommandExecutor := none
  /-- What its callback was given, and whether `waitForCommand` was on then. -/
  answered : Option (Answer × Bool) := none
  /-- Its exit has come while it was the running command. -/
  exited : Bool := false
  /-- The notifications posted for it. -/
  notices : List ServerStatus := []
  deriving DecidableEq, Repr

structure Session where
  node : LocalServerNode
  remote : RemoteServerNode
  calls : List Call := []
  deriving DecidableEq, Repr

namespace Session

def notices (deeds : List Deed) : List ServerStatus :=
  deeds.filterMap fun | .notify newStatus => some newStatus | _ => none

def sent (deeds : List Deed) : Option (Request × Callback × Nat) :=
  deeds.findSome? fun | .send _ req callback timeout => some (req, callback, timeout) | _ => none

/-- `executeCommandRemotely` is called; `none` when it returns `false`. -/
def call (files : Files) (s : Session) (line : Text) : Option (Session × List Deed) :=
  match s.node.executeCommandRemotely files line with
  | some (node, deeds) =>
    some ({ s with
      node := node
      calls := s.calls ++ [{ line := line, sent := sent deeds, notices := notices deeds }] }, deeds)
  | none => none

/-- A request of the remote side comes, and is settled on the network thread or on the UI thread. -/
def receive (s : Session) (req : Request) : LocalServerNode × List Deed :=
  match s.node.preHandle req with
  | some _ => (s.node, [])
  | none =>
    let (node, _, deeds) := s.node.handle req
    (node, deeds)

/-- The request is one of the running command, and not refused on the network thread. -/
def accepts (s : Session) (req : Request) : Bool :=
  (s.node.preHandle req).isNone &&
    req.executeOutput.any (·.originalRequestId = s.node.runningRequestId)

inductive Event where
  /-- The remote node takes the request of call `k`. -/
  | take (k : Nat) (files : RemoteFiles) (started : Bool) (now : Int)
  /-- The reply to call `k` comes. -/
  | answer (k : Nat) (files : Files)
  | timeOut (k : Nat) (files : Files)
  /-- The exit of the process of call `k` comes. -/
  | exit (k : Nat) (exitCode : Int) (now : Int)
  /-- Some output comes. -/
  | output (detail : ExecuteCommandOutputRequest)

/-- The callback of call `k` is run. -/
def settle (files : Files) (s : Session) (k : Nat) (c : Call) (callback : Callback)
    (answer : Answer) : Session × List Deed :=
  let (node, deeds) := s.node.runCallback files answer callback
  ({ s with
      node := node
      calls := s.calls.set k
        { c with
          answered := some (answer, s.node.waitForCommand)
          notices := c.notices ++ notices deeds } }, deeds)

def event (s : Session) : Event → Option (Session × List Deed)
  | .take k files started now =>
    match s.calls[k]? with
    | some c =>
      match c.sent with
      | some (req, _, _) =>
        if c.taken then none
        else
          let (reply, executor, _) :=
            s.remote.handleRequest files started now req (prepareReply req)
          some ({ s with
            calls := s.calls.set k
              { c with
                taken := true
                reply := some reply
                executor := executor.filter (·.process) } }, [])
      | none => none
    | none => none
  | .answer k files =>
    match s.calls[k]? with
    | some c =>
      match c.sent, c.reply, c.answered with
      | some (_, callback, _), some reply, none => some (s.settle files k c callback (.ok reply))
      | _, _, _ => none
    | none => none
  | .timeOut k files =>
    match s.calls[k]? with
    | some c =>
      match c.sent, c.answered with
      | some (_, callback, timeout), none =>
        if 0 < timeout then some (s.settle files k c callback .timeOut) else none
      | _, _ => none
    | none => none
  | .exit k exitCode now =>
    match s.calls[k]? with
    | some c =>
      match c.executor with
      | some executor =>
        -- the last request of the executor is the exit
        match (executor.onStop exitCode now).2.getLast? with
        | some req =>
          let (node, deeds) := s.receive req
          some ({ s with
            node := node
            calls := s.calls.set k
              { c with
                executor := none
                exited := s.accepts req
                notices := c.notices ++ notices deeds } }, deeds)
        | none => none
      | none => none
    | none => none
  | .output detail =>
    if detail.isExit then none
    else
      let (node, deeds) :=
        s.receive { sessionId := s.remote.sessionId, executeOutput := some detail }
      some ({ s with node := node }, deeds)

inductive Label where
  | call (files : Files) (line : Text)
  | event (e : Event)

def step : Machine Session Label
  | s, .call files line => (s.call files line).map Prod.fst
  | s, .event e => (s.event e).map Prod.fst

end Session

end Dcfpe.Rs

import Dcfpe.Shell.CommandLine

/-!
# The local node

`LocalServerNode` is the end of the remote shell the user sits at.  It asks a listener for a
session, waits for the remote node of that session to connect, and then sends it one command line
after the other; the output and the exit of a command come back as requests of the remote side.

The functions are those of `local_server_node.cc`.  What one does outside the node's fields it
returns as a list of `Deed`s in the order it does them.  The host learns how a command ended from
`onCommandStatusChanged`, which is never called directly: `willNotifyCommandExecuteStatus` posts a
task for it, the deed `notify`.
-/

set_option autoImplicit false

namespace Dcfpe.Rs

/-- `ServerStatus`; two of its names have one value. -/
abbrev ServerStatus := Int

namespace ServerStatus

def timeOut : ServerStatus := -2
def failed : ServerStatus := -1
def accepted : ServerStatus := 0
def connected : ServerStatus := 1
def succeed : ServerStatus := 0

end ServerStatus

/-- The callback a request is sent with. -/
inductive Callback where
  | null
  | handleCreateSessionResponse
  | handleExecuteCommandResponse
  | handleFileOperationResponse (req : FileOperationRequest)
  deriving DecidableEq, Repr

inductive Deed where
  /-- `msgSender->sendRequest`; the address is the sender's, `none` the null pointer. -/
  | send (address : Option String) (req : Request) (callback : Callback) (timeout : Nat)
  /-- `willNotifyCommandExecuteStatus`. -/
  | notify (newStatus : ServerStatus)
  /-- `host->onConnectStatusChanged`. -/
  | connectStatus (newStatus : ServerStatus)
  /-- `printf("%s", …)` or `fprintf(stderr, "%s", …)` of the output of a command. -/
  | print (isErrorOutput : Bool) (text : Text)
  | system (line : Text)
  deriving DecidableEq, Repr

/-- The files of the machine, as far as the node asks for them: what a path leads to, and whether a
file that came back can be written. -/
structure Files where
  pathExists : Text → Bool := fun _ => false
  read : Text → Option Text := fun _ => none
  write : Text → Text → Bool := fun _ _ => true

structure LocalServerNode where
  /-- The address of its own server. -/
  address : String := ""
  /-- `ZMQClientContext::nextRequestId`, of the process. -/
  nextRequestId : Int := 0
  msgSender : Option String := none
  executorAddress : String := ""
  runningRequestId : Int := -1
  sessionId : Int := -1
  shoudExit : Bool := false
  waitForCommand : Bool := true
  remoteShowOutput : Bool := false
  remoteShowError : Bool := false
  localShowOutput : Bool := true
  localShowError : Bool := true
  deriving DecidableEq, Repr

namespace LocalServerNode

/-- `MessageSender::sendRequest`: the request gets the next id. -/
def sendRequest (n : LocalServerNode) (req : Request) (callback : Callback) (timeout : Nat) :
    Int × LocalServerNode × List Deed :=
  let requestId := n.nextRequestId + 1
  (requestId, { n with nextRequestId := requestId },
    [.send n.msgSender { req with requestId := requestId } callback timeout])

/-! ## The session -/

def connectToTarget (n : LocalServerNode) (targetAddress : String) : LocalServerNode × List Deed :=
  let n := { n with msgSender := some targetAddress }
  let (id, n, deeds) := n.sendRequest { createSession := some { address := n.address } }
    .handleCreateSessionResponse 10000
  ({ n with runningRequestId := id }, deeds)

def handleCreateSessionResponse (n : LocalServerNode) (answer : Answer) :
    LocalServerNode × List Deed :=
  let n := { n with msgSender := none }
  match answer with
  | .timeOut => (n, [.connectStatus .timeOut])
  | .ok reply =>
    if reply.errorCode ≠ 0 then (n, [.connectStatus .failed])
    else ({ n with sessionId := reply.sessionId }, [.connectStatus .accepted])

/-! ## Command lines -/

/-- The loop over the arguments of `option`. -/
def setOption (n : LocalServerNode) (arg : Text) : LocalServerNode :=
  if arg = "wait_for_command".toList then { n with waitForCommand := true }
  else if arg = "no_wait_for_command".toList then { n with waitForCommand := false }
  else if arg = "remote_show_output".toList then { n with remoteShowOutput := true }
  else if arg = "no_remote_show_output".toList then { n with remoteShowOutput := false }
  else if arg = "remote_show_error".toList then { n with remoteShowError := true }
  else if arg = "no_remote_show_error".toList then { n with remoteShowError := false }
  else if arg = "local_show_output".toList then { n with localShowOutput := true }
  else if arg = "no_local_show_output".toList then { n with localShowOutput := false }
  else if arg = "local_show_error".toList then { n with localShowError := true }
  else if arg = "no_local_show_error".toList then { n with localShowError := false }
  else n

/-- The arguments at the odd places of `cmds`, where `fst` has its local paths. -/
def everyOther : List Text → List Text
  | [] => []
  | [_] => []
  | a :: _ :: args => a :: everyOther args

/-- The arguments of the request of `fs`: each path with the data of its file. -/
def readFiles (files : Files) : List Text → Option (List Text)
  | [] => some []
  | path :: args => do
    let data ← files.read path
    let rest ← readFiles files args
    some (path :: data :: rest)

/-- The same for `fst`, where each path is followed by its name on the other side. -/
def readFilesTo (files : Files) : List Text → Option (List Text)
  | [] => some []
  | [_] => some []
  | path :: name :: args => do
    let data ← files.read path
    let rest ← readFilesTo files args
    some (name :: data :: rest)

/-- A file operation is sent without a timeout and does not become the running request. -/
def sendFileOperation (n : LocalServerNode) (foRequest : FileOperationRequest) :
    LocalServerNode × List Deed :=
  let (_, n, deeds) := n.sendRequest
    { sessionId := n.sessionId, fileOperation := some foRequest }
    (.handleFileOperationResponse foRequest) 0
  (n, deeds)

/-- `fs` and `fst`. -/
def sendFiles (files : Files) (n : LocalServerNode) (cmd : Text) (args : List Text) :
    LocalServerNode × List Deed :=
  if args = [] then (n, [.notify .failed])
  else if cmd = "fst".toList ∧ args.length % 2 = 1 then (n, [.notify .failed])
  else if cmd = "fs".toList then
    if args.all files.pathExists then
      match readFiles files args with
      | some foArgs => n.sendFileOperation { cmd := cmd, args := foArgs }
      | none => (n, [.notify .failed])
    else (n, [.notify .failed])
  else
    if (everyOther args).all files.pathExists then
      match readFilesTo files args with
      | some foArgs => n.sendFileOperation { cmd := cmd, args := foArgs }
      | none => (n, [.notify .failed])
    else (n, [.notify .failed])

/-- `fg` and `fgt`. -/
def getFiles (n : LocalServerNode) (cmd : Text) (args : List Text) : LocalServerNode × List Deed :=
  if args = [] then (n, [.notify .failed])
  else if cmd = "fgt".toList ∧ args.length % 2 = 1 then (n, [.notify .failed])
  else n.sendFileOperation { cmd := cmd, args := args }

/-- `handleInternalCommand`; `none` is its `false`. -/
def handleInternalCommand (files : Files) (n : LocalServerNode) (line : Text) (cmd : Text)
    (args : List Text) : Option (LocalServerNode × List Deed) :=
  if cmd = "exit".toList ∨ cmd = "q".toList then
    let (id, n, deeds) := n.sendRequest { sessionId := n.sessionId, deleteSession := true } .null 0
    some ({ n with runningRequestId := id, shoudExit := true }, deeds)
  else if cmd = "l".toList then
    some (n, [.system (line.dropWhile (· ≠ 'l')).tail, .notify .succeed])
  else if cmd = "option".toList then some (args.foldl setOption n, [.notify .succeed])
  else if cmd = "fs".toList ∨ cmd = "fst".toList then some (sendFiles files n cmd args)
  else if cmd = "fg".toList ∨ cmd = "fgt".toList then some (getFiles n cmd args)
  else if cmd = "mkdir".toList then
    if args = [] then some (n, [.notify .failed])
    else some (n.sendFileOperation { cmd := cmd, args := args })
  else none

/-- The request of a command that is not internal. -/
def executeCommandRequest (n : LocalServerNode) (cmd : Text) (args : List Text) :
    ExecuteCommandRequest :=
  { address := n.address
    cmd := cmd
    args := args
    waitForCommand := n.waitForCommand
    remoteShowOutput := n.remoteShowOutput
    remoteShowError := n.remoteShowError
    localShowOutput := n.localShowOutput
    localShowError := n.localShowError }

/-- `executeCommandRemotely`; `none` is its `false`. -/
def executeCommandRemotely (files : Files) (n : LocalServerNode) (line : Text) :
    Option (LocalServerNode × List Deed) :=
  match split line with
  | [] => none
  | cmd :: args =>
    if args = [] ∧ (cmd = "i".toList ∨ cmd = "l".toList) then none
    else
      match n.handleInternalCommand files line cmd args with
      | some done => some done
      | none =>
        let (id, n, deeds) := n.sendRequest
          { sessionId := n.sessionId, executeCommand := some (n.executeCommandRequest cmd args) }
          .handleExecuteCommandResponse 10000
        some ({ n with runningRequestId := id }, deeds)

/-! ## Answers -/

def handleExecuteCommandResponse (n : LocalServerNode) (answer : Answer) :
    LocalServerNode × List Deed :=
  match answer with
  | .timeOut => (n, [.notify .timeOut])
  | .ok reply =>
    if reply.errorCode ≠ 0 then ({ n with runningRequestId := -1 }, [.notify .failed])
    else if n.waitForCommand then (n, [])
    else (n, [.notify .succeed])

/-- Whether the files of a reply to `fg` or `fgt` could all be written. -/
def writeFiles (files : Files) : List Text → Bool
  | path :: data :: args => files.write path data && writeFiles files args
  | _ => true

def handleFileOperationResponse (files : Files) (n : LocalServerNode) (req : FileOperationRequest)
    (answer : Answer) : LocalServerNode × List Deed :=
  match answer with
  | .timeOut => (n, [.notify .timeOut])
  | .ok reply =>
    if reply.errorCode ≠ 0 then (n, [.notify .failed])
    else if req.cmd = "fs".toList ∨ req.cmd = "fst".toList ∨ req.cmd = "mkdir".toList then
      (n, [.notify .succeed])
    else if req.cmd = "fg".toList ∨ req.cmd = "fgt".toList then
      if writeFiles files ((reply.fileOperation.getD {}).args) then (n, [.notify .succeed])
      else (n, [.notify .failed])
    else (n, [])

/-- The callback of a request is run with its answer. -/
def runCallback (files : Files) (n : LocalServerNode) (answer : Answer) :
    Callback → LocalServerNode × List Deed
  | .null => (n, [])
  | .handleCreateSessionResponse => n.handleCreateSessionResponse answer
  | .handleExecuteCommandResponse => n.handleExecuteCommandResponse answer
  | .handleFileOperationResponse req => n.handleFileOperationResponse files req answer

/-! ## Requests of the remote side -/

/-- What `"%s"` prints of a string: up to its first NUL. -/
def cString (s : Text) : Text := s.takeWhile (· ≠ '\x00')

/-- `preHandleRequest`, on the network thread: the reply, if the request is settled with it. -/
def preHandleRequest (n : LocalServerNode) (req : Request) (reply : Response) : Option Response :=
  let reply := { reply with sessionId := n.sessionId, errorCode := -1 }
  if req.sessionId ≠ n.sessionId then some reply
  else if req.sessionHeartBeat then some { reply with errorCode := 0 }
  else none

def handleExecuteOutput (n : LocalServerNode) (detail : ExecuteCommandOutputRequest)
    (reply : Response) : LocalServerNode × Response × List Deed :=
  if detail.originalRequestId ≠ n.runningRequestId then (n, reply, [])
  else if detail.isExit then (n, { reply with errorCode := 0 }, [.notify .succeed])
  else if detail.isErrorOutput then
    (n, { reply with errorCode := 0 },
      if n.localShowError then [.print true (cString detail.output)] else [])
  else
    (n, { reply with errorCode := 0 },
      if n.localShowOutput then [.print false (cString detail.output)] else [])

/-- `handleRequest`, on the UI thread. -/
def handleRequest (n : LocalServerNode) (req : Request) (reply : Response) :
    LocalServerNode × Response × List Deed :=
  let reply := { reply with sessionId := n.sessionId, errorCode := -1 }
  if req.sessionId ≠ n.sessionId then (n, reply, [])
  else
    match req.executeOutput with
    | some detail => n.handleExecuteOutput detail reply
    | none =>
      match req.createSession with
      | some detail =>
        ({ n with executorAddress := detail.address, msgSender := some detail.address },
          { reply with errorCode := 0 }, [.connectStatus .connected])
      | none => (n, reply, [])

end LocalServerNode

end Dcfpe.Rs

import Dcfpe.Shell.LocalServerNode

/-!
# The other two nodes

The listener runs on the other machine.  For every `CreateSession` it takes the next session id and
starts a process for it; the `RemoteServerNode` of that process connects back to the local node
with this id, and proves that it is alive by heart beats.

All three nodes are served by the same `ZServer`.  A request of one of them may be settled by
`preHandleRequest` on the network thread, or it is posted to the UI thread and settled by
`handleRequest` there.  On the first way the reply is built and never handed over: the string
that `ZMQServer` is given stays empty, and it sends four zero bytes instead.
-/

set_option autoImplicit false

namespace Dcfpe.Rs

/-! ## ZServer -/

/-- What goes back over the wire: a serialized reply, or the four zero bytes that `ZMQServer` sends
for an empty one. -/
abbrev Payload := Option Response

/-- `ParseFromString`; four zero bytes are no message and leave the defaults. -/
def readPayload (payload : Payload) : Response := payload.getD {}

/-- The reply that `ZServer` prepares for a handler. -/
def prepareReply (req : Request) : Response := { errorCode := -1, requestId := req.requestId }

namespace LocalServerNode

/-- `ZServer::pre_handle_request`: what is sent back at once, if anything.  The reply of the handler
is serialized into a local variable and `reply` is not assigned. -/
def preHandle (n : LocalServerNode) (req : Request) : Option Payload :=
  match n.preHandleRequest req (prepareReply req) with
  | some _ => some none
  | none => none

/-- `ZServer::handle_request`. -/
def handle (n : LocalServerNode) (req : Request) : LocalServerNode × Payload × List Deed :=
  let (n, reply, deeds) := n.handleRequest req (prepareReply req)
  (n, some reply, deeds)

end LocalServerNode

/-! ## The listener -/

/-- The command line `rs --host="…" -l=0 --sid=…` that a listener starts; `sid` is the number whose
digits stand there. -/
structure RsProcess where
  host : String
  sid : Int
  deriving DecidableEq, Repr

structure ListenerNode where
  nextSessionId : Int := 0
  deriving DecidableEq, Repr

/-- `ListenerNode::handleRequest`, with the process it starts. -/
def ListenerNode.handleRequest (n : ListenerNode) (req : Request) (reply : Response) :
    ListenerNode × Response × Option RsProcess :=
  let reply := { reply with errorCode := -1 }
  match req.createSession with
  | some detail =>
    ({ n with nextSessionId := n.nextSessionId + 1 },
      { reply with sessionId := n.nextSessionId, errorCode := 0 },
      some { host := detail.address, sid := n.nextSessionId })
  | none => (n, reply, none)

/-! ## The remote node -/

/-- `AddressHelper::MakeZMQTCPAddress`. -/
def makeZMQTCPAddress (ip : String) (port : Nat) : String := "tcp://" ++ ip ++ ":" ++ toString port

/-- `atoi` of the digits of a number: an `int`, at its bounds when the number does not fit. -/
def atoi (i : Int) : Int := max (-2147483648) (min i 2147483647)

inductive RemoteDeed where
  | send (address : String) (req : Request)
  /-- The delayed task that checks the heart beat in ten seconds. -/
  | scheduleHeartBeat
  /-- `willStop`: the process ends. -/
  | willStop
  deriving DecidableEq, Repr

structure RemoteServerNode where
  /-- The address of its own server. -/
  address : String
  nextRequestId : Int := 0
  hostAddress : String := ""
  runningRequestId : Int := -1
  sessionId : Int := -1
  deriving DecidableEq, Repr

namespace RemoteServerNode

def connectToHost (n : RemoteServerNode) (host : String) (sid : Int) :
    RemoteServerNode × RemoteDeed :=
  let requestId := n.nextRequestId + 1
  ({ n with
      hostAddress := host
      sessionId := sid
      nextRequestId := requestId
      runningRequestId := requestId },
    .send host
      { sessionId := sid
        requestId := requestId
        createSession := some { address := n.address } })

end RemoteServerNode

/-- The test of both callbacks: `zmqError` and `error_code` are 0. -/
def Answer.succeeds : Answer → Bool
  | .ok reply => reply.errorCode = 0
  | .timeOut => false

namespace RemoteServerNode

def handleCreateSessionResponse (answer : Answer) : RemoteDeed :=
  if answer.succeeds then .scheduleHeartBeat else .willStop

def checkHeartBeatImpl (n : RemoteServerNode) : RemoteServerNode × RemoteDeed :=
  let requestId := n.nextRequestId + 1
  ({ n with nextRequestId := requestId },
    .send n.hostAddress
      { sessionId := n.sessionId
        requestId := requestId
        sessionHeartBeat := true })

/-- The callback of a heart beat. -/
def handleHeartBeatResponse (answer : Answer) : RemoteDeed :=
  if answer.succeeds then .scheduleHeartBeat else .willStop

end RemoteServerNode

end Dcfpe.Rs

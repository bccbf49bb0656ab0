import Dcfpe.Lib.Machine
import Dcfpe.Service.Project

/-!
# The nodes a service knows

`DPENodeManager` has a node for each service that has advertised itself.  A new node is greeted with
a Hello, whose callback is bound to the id of the node, and the reply comes up to twenty seconds
later, when multicasts may have added and removed nodes.

The functions are those of `dpe_service.cc`.  What `JSONReader` makes of a reply is a list of its
strings, and the clock is an argument.  In `step` come, in any order, multicasts, calls of `AddNode`
and `RemoveNode`, and the replies.
-/

set_option autoImplicit false

namespace Dcfpe

/-- The bytes of a text of ASCII characters. -/
def ascii (s : String) : Bytes := s.toList.map fun c => UInt8.ofNat c.toNat

structure DPENode where
  /-- Which of the objects that `AddNode` has made it is. -/
  object : Nat
  nodeId : Int
  serverAddress : Bytes
  isLocal : Bool := false
  pa : Bytes := []
  responseTime : Int := 0
  responseCount : Int := 0
  deriving DecidableEq, Repr

/-- What `JSONReader` makes of a text: its fields that are strings, if it is a dictionary. -/
inductive JsonValue where
  | dictionary (strings : List (String × Bytes))
  | other
  deriving DecidableEq, Repr

/-- A `ZMQResponse` to a Hello. -/
structure HelloReply where
  errorCode : Int := 0
  /-- `data_` as `JSONReader` reads it. -/
  data : Option JsonValue := none
  deriving DecidableEq, Repr

/-- The callback of a Hello: the id bound to it, and the node that has sent it. -/
structure HelloCallback where
  nodeId : Int
  object : Nat
  deriving DecidableEq, Repr

structure DPENodeManager where
  nextNodeId : Int := 0
  nodeList : List DPENode := []
  /-- The ids handed out so far, in order. -/
  issued : List Int := []
  /-- The Hellos whose replies have not come. -/
  pending : List HelloCallback := []
  deriving DecidableEq, Repr

/-- A value as an `int32_t` has it. -/
def int32 (x : Int) : Int := (x + 2147483648) % 4294967296 - 2147483648

namespace DPENodeManager

def addNode (address : Bytes) (m : DPENodeManager) : DPENodeManager :=
  if m.nodeList.any (·.serverAddress = address) then m
  else
    let node : DPENode :=
      { object := m.issued.length, nodeId := m.nextNodeId, serverAddress := address }
    { nextNodeId := int32 (m.nextNodeId + 1)
      nodeList := m.nodeList ++ [node]
      issued := m.issued ++ [node.nodeId]
      pending := m.pending ++ [⟨node.nodeId, node.object⟩] }

def removeNode (address : Bytes) (removeLocal : Bool) (m : DPENodeManager) : DPENodeManager :=
  { m with
    nodeList := m.nodeList.filter fun node =>
      !(node.serverAddress = address && (removeLocal || !node.isLocal)) }

/-- `GetNodeById`: the place of the node in `node_list_`. -/
def getNodeById (id : Int) (m : DPENodeManager) : Option Nat :=
  m.nodeList.findIdx? (·.nodeId = id)

/-- The tests on a reply, up to its `"ots"`. -/
def helloResponse (rep : HelloReply) : Option (List (String × Bytes) × Bytes) :=
  if rep.errorCode ≠ 0 then none
  else
    match rep.data with
    | some (.dictionary strings) =>
      if strings.lookup "type" = some (ascii "rsc") ∧ (strings.lookup "src").isSome ∧
          (strings.lookup "dest").isSome ∧
          strings.lookup "reply" = some (ascii "HelloResponse") ∧
          strings.lookup "error_code" = some (ascii "0") then
        (strings.lookup "ots").map fun ots => (strings, ots)
      else none
    | _ => none

/-- What a reply does to its node. -/
def answered (strings : List (String × Bytes)) (ots : Bytes) (now : Int) (node : DPENode) :
    DPENode :=
  { node with
    pa := (strings.lookup "pa").getD node.pa
    responseTime := node.responseTime + (now - atoll ots)
    responseCount := node.responseCount + 1 }

/-- `HandleResponseImpl`.  The pointer that `GetNodeById` returns is not tested; `none` stands for
what happens when it is `NULL`. -/
def handleResponseImpl (nodeId : Int) (rep : HelloReply) (now : Int) (m : DPENodeManager) :
    Option DPENodeManager :=
  match helloResponse rep with
  | some (strings, ots) =>
    match m.getNodeById nodeId with
    | some i => some { m with nodeList := m.nodeList.modify i (answered strings ots now) }
    | none => none
  | none => some m

end DPENodeManager

/-! ## DPEService -/

def lowerAscii (c : UInt8) : UInt8 := if 65 ≤ c && c ≤ 90 then c + 32 else c

/-- The locals `action` and `address` of `HandleMulticast` after a line. -/
def readMulticastLine (read : Bytes × Bytes) (line : Bytes) : Bytes × Bytes :=
  match splitColon line with
  | none => read
  | some (key, value) =>
    let key := key.map lowerAscii
    if key = ascii "action" then (value, read.2)
    else if key = ascii "address" then (read.1, value)
    else read

def handleMulticast (data : Bytes) (m : DPENodeManager) : DPENodeManager :=
  let (action, address) := (tokenize data).foldl readMulticastLine ([], [])
  if action = ascii "advertise" then
    if address = [] then m else m.addNode address
  else if action = ascii "bye" then
    if address = [] then m else m.removeNode address false
  else m

namespace DPENodeManager

/-- What `DPEService::Start` leaves; `address` is that of its own server, if it has one. -/
def start (address : Option Bytes) : DPENodeManager :=
  match address with
  | some address =>
    let m := addNode address {}
    { m with nodeList := m.nodeList.modify 0 fun node => { node with isLocal := true } }
  | none => {}

inductive Label where
  | multicast (data : Bytes)
  | addNode (address : Bytes)
  | removeNode (address : Bytes) (removeLocal : Bool)
  /-- The reply to the `k`-th of the Hellos that wait for one, a time-out included. -/
  | reply (k : Nat) (rep : HelloReply) (now : Int)
  deriving DecidableEq, Repr

def step : Machine DPENodeManager Label
  | m, .multicast data => some (handleMulticast data m)
  | m, .addNode address => some (m.addNode address)
  | m, .removeNode address removeLocal => some (m.removeNode address removeLocal)
  | m, .reply k rep now =>
    match m.pending[k]? with
    | some callback =>
      { m with pending := m.pending.eraseIdx k }.handleResponseImpl callback.nodeId rep now
    | none => none

end DPENodeManager

end Dcfpe

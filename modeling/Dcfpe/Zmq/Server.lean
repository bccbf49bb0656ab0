import Dcfpe.Lib.Machine
import Mathlib.Logic.Function.Basic

/-!
# The ZMQ server

One `ZMQServer` serves all the addresses of a process.  Its network thread polls the REP sockets of
the contexts that are listening, receives a request on each socket that has one, and marks these
contexts PROCESSING; the UI thread then collects the contexts that are PROCESSING, has their
handlers answer, and sets what is PROCESSING back to LISTENING.  The two meet in `context_` under a
mutex, but each lets go of it in between, so `NetThread` and `UIThread` say how far the threads
have come, and a step is one section that is not interrupted.

A socket is named by a number that no socket had before.  The requests are numbered as they are
received; the number stands next to the data so that the log can say which request was handled and
which was replied to.  `Wire` is the part of libzmq the code relies on: a REP socket that has
received a request takes exactly one reply for it before it can receive again.
-/

set_option autoImplicit false

namespace Dcfpe

inductive ServerState where
  | listening
  | processing
  deriving DecidableEq, Repr

/-- The data of a request, with the number of the request. -/
structure Message where
  num : Nat
  text : String
  deriving DecidableEq, Repr

/-- A `ServerContext`; `data` is `none` when nothing has been moved into `data_`, or it has been
moved on. -/
structure ServerContext where
  zmqSocket : Nat
  handler : Nat
  address : String
  state : ServerState := .listening
  data : Option Message := none
  deriving DecidableEq, Repr

/-- An empty reply is replaced by four zero bytes. -/
def replyData (reply : String) : String :=
  if reply.isEmpty then String.ofList (List.replicate 4 (Char.ofNat 0)) else reply

/-- The REP sockets: the socket of each request received, the request each socket owes a reply for,
and the replies that went out. -/
structure Wire where
  arrived : List Nat := []
  owed : Nat → Option Nat := fun _ => none
  replied : List (Nat × String) := []

namespace Wire

/-- `zmq_recvmsg` on some sockets, one after the other. -/
def recv : List (Nat × String) → Wire → Wire × List (Nat × Message)
  | [], w => (w, [])
  | (socket, text) :: msgs, w =>
    let num := w.arrived.length
    let (w, sockets) := recv msgs
      { w with
        arrived := w.arrived ++ [socket]
        owed := Function.update w.owed socket (some num) }
    (w, (socket, { num := num, text := text }) :: sockets)

/-- `zmq_send`, which fails unless the socket owes a reply. -/
def send (socket : Nat) (reply : String) (w : Wire) : Wire :=
  match w.owed socket with
  | none => w
  | some num =>
    { w with
      owed := Function.update w.owed socket none
      replied := w.replied ++ [(num, replyData reply)] }

/-- `zmq_close`. -/
def close (socket : Nat) (w : Wire) : Wire :=
  { w with owed := Function.update w.owed socket none }

/-- The numbers of the requests a reply was sent for. -/
def answered (w : Wire) : List Nat := w.replied.map Prod.fst

@[simp] theorem close_owed (socket : Nat) (w : Wire) (k : Nat) :
    (w.close socket).owed k = if k = socket then none else w.owed k :=
  Function.update_apply _ _ _ _

@[simp] theorem send_arrived (socket : Nat) (reply : String) (w : Wire) :
    (w.send socket reply).arrived = w.arrived := by
  rw [send]
  split <;> rfl

@[simp] theorem send_owed (socket : Nat) (reply : String) (w : Wire) (k : Nat) :
    (w.send socket reply).owed k = if k = socket then none else w.owed k := by
  rw [send]
  split
  · next h =>
    split
    · next hk => rw [hk, h]
    · rfl
  · exact Function.update_apply _ _ _ _

@[simp] theorem send_answered (socket : Nat) (reply : String) (w : Wire) :
    (w.send socket reply).answered = w.answered ++ (w.owed socket).toList := by
  rw [send]
  split
  · next h => simp [h]
  · next num h => simp [answered, h]

end Wire

/-- Where the network thread is in `Run` and `ProcessEvent`. -/
inductive NetThread where
  /-- Before the section of `Run`. -/
  | idle
  /-- In `zmq_poll`, with the sockets of the listening contexts. -/
  | polling (items : List Nat)
  /-- Before the section of `ProcessEvent`, with the local `sockets`. -/
  | marking (sockets : List (Nat × Message))
  /-- After that section. -/
  | posting (activeRequest : Nat)
  deriving DecidableEq, Repr

/-- Where the UI thread is: in `ProcessRequestImpl` the vector `temp` is `served ++ todo`. -/
inductive UIThread where
  | idle
  | handling (served todo : List ServerContext)
  deriving DecidableEq, Repr

structure ZMQServer where
  context : List ServerContext := []
  nextSocket : Nat := 0
  wire : Wire := {}
  /-- The requests that were passed to their handler, by number. -/
  handled : List Nat := []
  /-- `ProcessRequest` tasks posted to the UI thread. -/
  tasks : Nat := 0
  net : NetThread := .idle
  ui : UIThread := .idle

namespace ZMQServer

/-! ## Sections -/

def startServer (handler : Nat) (address : String) (s : ZMQServer) : ZMQServer :=
  if s.context.any (·.address == address) then s
  else
    { s with
      context := s.context ++
        [{ zmqSocket := s.nextSocket, handler := handler, address := address }]
      nextSocket := s.nextSocket + 1 }

def stopServer (handler : Nat) (s : ZMQServer) : ZMQServer :=
  match s.context.find? (·.handler == handler) with
  | none => s
  | some it =>
    { s with
      context := s.context.eraseP (·.handler == handler)
      wire := s.wire.close it.zmqSocket }

/-- The section of `Run`: the sockets of the contexts that are listening. -/
def pollItems (s : ZMQServer) : List Nat :=
  (s.context.filter (·.state = .listening)).map ServerContext.zmqSocket

/-- What the loop of `ProcessEvent` fills. -/
structure Marking where
  context : List ServerContext := []
  wire : Wire
  handled : List Nat
  activeRequest : Nat := 0

/-- One round of that loop.  `pre` is `pre_handle_request`: the reply, if it returns true. -/
def markContext (pre : ServerContext → Option String) (sockets : List (Nat × Message))
    (m : Marking) (it : ServerContext) : Marking :=
  match sockets.lookup it.zmqSocket with
  | none => { m with context := m.context ++ [it] }
  | some data =>
    let it := { it with state := .processing, data := some data }
    match pre it with
    | some reply =>
      { m with
        context := m.context ++ [{ it with state := .listening }]
        wire := m.wire.send it.zmqSocket reply
        handled := m.handled ++ [data.num] }
    | none =>
      { m with context := m.context ++ [it], activeRequest := m.activeRequest + 1 }

/-- The section of `ProcessEvent`. -/
def mark (pre : ServerContext → Option String) (sockets : List (Nat × Message))
    (s : ZMQServer) : ZMQServer :=
  let m := s.context.foldl (markContext pre sockets) { wire := s.wire, handled := s.handled }
  { s with
    context := m.context
    wire := m.wire
    handled := m.handled
    net := .posting m.activeRequest }

/-- The first section of `ProcessRequestImpl`: the data is moved into the copies. -/
def collect (s : ZMQServer) : ZMQServer :=
  { s with
    context := s.context.map fun it =>
      if it.state = .processing then { it with data := none } else it
    ui := .handling [] (s.context.filter (·.state = .processing)) }

/-- One round of the loop over `temp`; `reply` is what `handle_request` returns. -/
def handleRequest (reply : String) (served todo : List ServerContext) (it : ServerContext)
    (s : ZMQServer) : ZMQServer :=
  { s with
    wire := s.wire.send it.zmqSocket reply
    handled := s.handled ++ (it.data.map Message.num).toList
    ui := .handling (served ++ [it]) todo }

/-- The second section of `ProcessRequestImpl`. -/
def reset (s : ZMQServer) : ZMQServer :=
  { s with
    context := s.context.map fun it =>
      if it.state = .processing then { it with state := .listening } else it
    ui := .idle }

/-! ## The threads -/

inductive Action where
  | startServer (handler : Nat) (address : String)
  | stopServer (handler : Nat)
  /-- The network thread makes its poll items. -/
  | poll
  /-- `zmq_poll` returns, and the requests are received. -/
  | recv (msgs : List (Nat × String))
  | mark (pre : ServerContext → Option String)
  | post
  /-- The UI thread starts a `ProcessRequest`. -/
  | collect
  | handle (reply : String)
  | reset

/-- A request can be received on a registered socket that owes no reply. -/
def CanRecv (s : ZMQServer) (socket : Nat) : Prop :=
  (∃ it ∈ s.context, it.zmqSocket = socket) ∧ s.wire.owed socket = none

instance (s : ZMQServer) (socket : Nat) : Decidable (s.CanRecv socket) :=
  inferInstanceAs (Decidable (_ ∧ _))

/-- One step of one thread. -/
def step : Machine ZMQServer Action
  | s, .startServer handler address => some (s.startServer handler address)
  | s, .stopServer handler => some (s.stopServer handler)
  | s, .poll =>
    match s.net with
    | .idle => some { s with net := .polling s.pollItems }
    | _ => none
  | s, .recv msgs =>
    match s.net with
    | .polling items =>
      if (msgs.map Prod.fst).Sublist items ∧ ∀ k ∈ msgs.map Prod.fst, s.CanRecv k then
        -- `ProcessEvent` returns at once if no socket was signalled
        if msgs.isEmpty then some { s with net := .idle }
        else
          let (wire, sockets) := s.wire.recv msgs
          some { s with wire := wire, net := .marking sockets }
      else none
    | _ => none
  | s, .mark pre =>
    match s.net with
    | .marking sockets => some (s.mark pre sockets)
    | _ => none
  | s, .post =>
    match s.net with
    | .posting activeRequest =>
      some { s with tasks := if activeRequest > 0 then s.tasks + 1 else s.tasks, net := .idle }
    | _ => none
  | s, .collect =>
    match s.ui with
    | .idle => if s.tasks > 0 then some (collect { s with tasks := s.tasks - 1 }) else none
    | _ => none
  | s, .handle reply =>
    match s.ui with
    | .handling served (it :: todo) => some (s.handleRequest reply served todo it)
    | _ => none
  | s, .reset =>
    match s.ui with
    | .handling _ [] => some s.reset
    | _ => none

end ZMQServer

end Dcfpe

import Dcfpe.Lib.Machine
import Mathlib.Data.List.AList
import Mathlib.Logic.Function.Basic

/-!
# The ZMQ client

A `ZMQClient` sends each request from a socket of its own.  `SendRequest` runs on the UI thread: it
makes the socket, sends, and pushes a `RequestContext` into `context_`.  The network thread polls
the sockets it finds in `context_`, receives on those that are signalled, and then goes through
`context_` again: what has been received is answered, what is too old is answered with a time out,
and both are taken out.  Only the three accesses to `context_` are under the mutex.  So the sockets
that were polled are those of an earlier `context_`, and the UI thread can be between making a
socket and pushing it while the network thread closes others.

A step is one section that is not interrupted; `NetThread` and `UIThread` say how far the threads
have come between two of them.  What the libraries do is part of the label: the handle `zmq_socket`
returns, which is no open one; what `zmq_poll` reports and `zmq_recvmsg` gives; the clock.

A callback is the number of the call of `SendRequest` it was passed to.  `owner`, `received`,
`accepted`, `posted` and `discarded` are the log of the run.
-/

set_option autoImplicit false

namespace Dcfpe

namespace ZMQClient

/-- `status_`. -/
inductive Status where
  | prepare
  | running
  | stopped
  deriving DecidableEq, Repr

/-- The values of `ZMQResponse::error_code_` a client produces. -/
inductive ErrorCode where
  | ok
  | timeOut
  deriving DecidableEq, Repr

structure ZMQResponse where
  errorCode : ErrorCode
  data : String
  deriving DecidableEq, Repr

structure RequestContext where
  zmqSocket : Nat
  callback : Nat
  address : String
  requestTime : Int32
  timeOut : Int32
  deriving DecidableEq

/-- The messages on the control socket. -/
inductive Cmd where
  | hello
  | quit
  deriving DecidableEq, Repr

/-- Where the network thread is in `Run`; `id` counts the rounds. -/
inductive NetThread where
  /-- There is no thread. -/
  | none
  /-- At the test of `quit_flag_`. -/
  | looping (id : Int32)
  /-- In `zmq_poll`, with the sockets that were in `context_`. -/
  | polling (id : Int32) (items : List Nat) (timeout : Int32)
  /-- Before the section of `ProcessEvent`, with its `sockets`. -/
  | processing (id : Int32) (sockets : AList fun _ : Nat => String)
  | exited

/-- Where the UI thread is. -/
inductive UIThread where
  | idle
  /-- In `SendRequest`, with a socket. -/
  | sending (zmqSocket callback : Nat) (address : String) (timeout : Int32)
  /-- In `Start`, waiting for the events. -/
  | starting
  /-- In `Stop`, waiting for the network thread; `next` is the status afterwards. -/
  | stopping (next : Status)

end ZMQClient

structure ZMQClient where
  status : ZMQClient.Status := .prepare
  quitFlag : Bool := false
  context : List ZMQClient.RequestContext := []
  net : ZMQClient.NetThread := .none
  ui : ZMQClient.UIThread := .idle
  /-- The number of calls of `SendRequest` that have made a socket. -/
  calls : Nat := 0
  /-- The call each socket was made for. -/
  owner : Nat → Nat := fun _ => 0
  /-- The calls that return true, with their `timeout`. -/
  accepted : List (Nat × Int32) := []
  /-- What was received on signalled sockets, with the calls that own them. -/
  received : List (Nat × String) := []
  /-- The callbacks posted to the UI thread. -/
  posted : List (Nat × ZMQClient.ZMQResponse) := []
  /-- The callbacks `Stop` threw away. -/
  discarded : List Nat := []

namespace ZMQClient

/-! ## Sections -/

/-- The socket of a `SendRequest` that has not pushed it. -/
@[simp] def UIThread.pending : UIThread → List Nat
  | .sending zmqSocket _ _ _ => [zmqSocket]
  | _ => []

/-- The sockets that are open, those of the control messages aside. -/
def openSockets (s : ZMQClient) : List Nat :=
  s.context.map RequestContext.zmqSocket ++ s.ui.pending

/-- The section of `SendRequest`. -/
def pushRequest (zmqSocket callback : Nat) (address : String) (timeout now : Int32)
    (s : ZMQClient) : ZMQClient :=
  let req : RequestContext :=
    { zmqSocket := zmqSocket
      callback := callback
      address := address
      requestTime := now
      timeOut := if timeout > 0 then timeout else 0 }
  { s with
    context := s.context ++ [req]
    ui := .idle
    accepted := s.accepted ++ [(callback, timeout)] }

/-- How long `zmq_poll` may wait: until the first request is too old. -/
def pollTimeout (now : Int32) (context : List RequestContext) : Int32 :=
  context.foldl (fun timeout it =>
    if it.timeOut > 0 then
      let t := it.requestTime + it.timeOut - now
      let t := if t < 0 then 0 else t
      if timeout = -1 ∨ t < timeout then t else timeout
    else timeout) (-1)

/-- The signalled sockets among the items, with what `zmq_recvmsg` gives: the empty string when it
fails. -/
def signalSockets (items : List Nat) (revents : List (Option String)) : List (Nat × String) :=
  (items.zip revents).filterMap fun p => p.2.map fun data => (p.1, data)

/-- The first loop of `ProcessEvent`. -/
def receive (signals : List (Nat × String)) : AList fun _ : Nat => String :=
  signals.foldl (fun sockets p => sockets.insert p.1 p.2) ∅

/-- The second loop: what stays in `context_`, and the responses. -/
def answer (now : Int32) :
    List RequestContext → (AList fun _ : Nat => String) →
      List RequestContext × List (Nat × ZMQResponse)
  | [], _ => ([], [])
  | it :: context, sockets =>
    match sockets.lookup it.zmqSocket with
    | some data =>
      -- the data is moved out of the map
      let (kept, responses) := answer now context (sockets.insert it.zmqSocket "")
      (kept, (it.callback, { errorCode := .ok, data := data }) :: responses)
    | none =>
      let (kept, responses) := answer now context sockets
      if it.timeOut > 0 ∧ now > it.requestTime + it.timeOut then
        (kept, (it.callback, { errorCode := .timeOut, data := "" }) :: responses)
      else (it :: kept, responses)

/-- The section of `ProcessEvent`, and the posts after it. -/
def processEvent (id : Int32) (sockets : AList fun _ : Nat => String) (now : Int32)
    (s : ZMQClient) : ZMQClient :=
  let (kept, responses) := answer now s.context sockets
  { s with
    context := kept
    posted := s.posted ++ responses
    net := .looping (id + 1) }

/-- The end of `Stop`. -/
def stopEnd (next : Status) (s : ZMQClient) : ZMQClient :=
  { s with
    status := next
    context := []
    discarded := s.discarded ++ s.context.map RequestContext.callback
    net := .none
    ui := .idle }

/-! ## The threads -/

/-- What `zmq_poll` returns: an error, or what is signalled, first on the control socket and then on
each of the others. -/
inductive PollResult where
  | error (eterm : Bool)
  | ready (ctrl : Option Cmd) (revents : List (Option String))

/-- How `Start` ends once there is a thread. -/
inductive StartResult where
  /-- The thread has set the events. -/
  | hello
  /-- The thread has exited, after or before it has set the start event. -/
  | exited (started : Bool)
  /-- Sixty messages have not been answered. -/
  | silent

inductive Action where
  /-- `SendRequest` gets a socket. -/
  | zmqSocket (handle : Nat) (address : String) (timeout : Int32)
  /-- `zmq_connect` or `zmq_send` fails; `SendRequest` closes the socket and returns false. -/
  | sendFails
  | push (now : Int32)
  | start
  | startEnd (result : StartResult)
  | stop
  | stopEnd
  /-- The network thread makes its poll items. -/
  | snapshot (now : Int32)
  | poll (result : PollResult)
  | processEvent (now : Int32)

/-- One step of one thread. -/
def step : Machine ZMQClient Action
  | s, .zmqSocket handle address timeout =>
    match s.ui with
    | .idle =>
      if handle ∈ s.openSockets then none
      else
        some { s with
          ui := .sending handle s.calls address timeout
          calls := s.calls + 1
          owner := Function.update s.owner handle s.calls }
    | _ => none
  | s, .sendFails =>
    match s.ui with
    | .sending _ _ _ _ => some { s with ui := .idle }
    | _ => none
  | s, .push now =>
    match s.ui with
    | .sending zmqSocket callback address timeout =>
      some (s.pushRequest zmqSocket callback address timeout now)
    | _ => none
  | s, .start =>
    match s.ui, s.status with
    | .idle, .prepare => some { s with ui := .starting, net := .looping 0 }
    | _, _ => none
  | s, .startEnd result =>
    match s.ui, result, s.net with
    | .starting, .hello, _ => some { s with status := .running, ui := .idle }
    | .starting, .exited started, .exited =>
      some { s with status := if started then .running else s.status, ui := .idle, net := .none }
    | .starting, .silent, _ => some { s with status := .running, ui := .stopping .prepare }
    | _, _, _ => none
  | s, .stop =>
    match s.ui, s.status with
    | .idle, .running => some { s with ui := .stopping .stopped }
    | _, _ => none
  | s, .stopEnd =>
    match s.ui, s.net with
    | .stopping next, .exited | .stopping next, .none => some (s.stopEnd next)
    | _, _ => none
  | s, .snapshot now =>
    match s.net with
    | .looping id =>
      if s.quitFlag then some { s with net := .exited }
      else
        some { s with
          net := .polling id (s.context.map RequestContext.zmqSocket)
            (if id = 0 then 1 else pollTimeout now s.context) }
    | _ => none
  | s, .poll (.error eterm) =>
    match s.net with
    | .polling id _ _ => some { s with net := if eterm then .exited else .looping (id + 1) }
    | _ => none
  | s, .poll (.ready ctrl revents) =>
    match s.net with
    | .polling id items _ =>
      if revents.length ≠ items.length then none
      else if ctrl = some .quit then
        -- only `Stop` sends it
        match s.ui with
        | .stopping _ => some { s with quitFlag := true, net := .exited }
        | _ => none
      else
        let signals := signalSockets items revents
        some { s with
          received := s.received ++ signals.map fun p => (s.owner p.1, p.2)
          net := .processing id (receive signals) }
    | _ => none
  | s, .processEvent now =>
    match s.net with
    | .processing id sockets => some (s.processEvent id sockets now)
    | _ => none

end ZMQClient

end Dcfpe

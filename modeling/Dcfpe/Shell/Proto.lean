import Mathlib.Data.Int.Notation

/-!
# The messages of `rs.proto`

What the remote shell sends: a local node runs commands on another machine through a listener,
which starts a remote node for it.  As in `Dcfpe.Dpe.Proto`, a scalar field is what its accessor
returns; presence is kept for the sub-messages, which the code asks for.

A `std::string` is the list of its bytes, each written as the character with that code: the code
compares bytes with a few ASCII characters and copies the rest.
-/

set_option autoImplicit false

namespace Dcfpe.Rs

abbrev Text := List Char

structure CreateSessionRequest where
  address : String := ""
  deriving DecidableEq, Repr

structure ExecuteCommandRequest where
  address : String := ""
  cmd : Text := []
  args : List Text := []
  waitForCommand : Bool := true
  remoteShowOutput : Bool := false
  remoteShowError : Bool := false
  localShowOutput : Bool := true
  localShowError : Bool := true
  deriving DecidableEq, Repr

structure ExecuteCommandResponse where
  command : Text := []
  waitForCommand : Bool := true
  remoteShowOutput : Bool := false
  remoteShowError : Bool := false
  localShowOutput : Bool := true
  localShowError : Bool := true
  deriving DecidableEq, Repr

structure ExecuteCommandOutputRequest where
  originalRequestId : Int := 0
  isExit : Bool := false
  exitCode : Int := 0
  isErrorOutput : Bool := false
  output : Text := []
  deriving DecidableEq, Repr

structure FileOperationRequest where
  cmd : Text := []
  args : List Text := []
  deriving DecidableEq, Repr

structure FileOperationResponse where
  cmd : Text := []
  args : List Text := []
  deriving DecidableEq, Repr

/-- The two empty messages, `DeleteSessionRequest` and `SessionHeartBeatRequest`, are there or
not. -/
structure Request where
  sessionId : Int := 0
  requestId : Int := 0
  createSession : Option CreateSessionRequest := none
  deleteSession : Bool := false
  sessionHeartBeat : Bool := false
  executeCommand : Option ExecuteCommandRequest := none
  executeOutput : Option ExecuteCommandOutputRequest := none
  fileOperation : Option FileOperationRequest := none
  deriving DecidableEq, Repr

/-- The default is what a message that does not parse reads as. -/
structure Response where
  sessionId : Int := 0
  errorCode : Int := 0
  requestId : Int := 0
  executeCommand : Option ExecuteCommandResponse := none
  fileOperation : Option FileOperationResponse := none
  deriving DecidableEq, Repr

/-- What a request that was sent comes back as: `ZMQ_REP_OK` with a reply, or
`ZMQ_REP_TIME_OUT`. -/
inductive Answer where
  | ok (reply : Response)
  | timeOut
  deriving DecidableEq, Repr

end Dcfpe.Rs

import Dcfpe.Shell.Proto

/-!
# The executor of a command

On the other machine a command is run by a `CommandExecutor`.  It collects the output of the process
in a buffer, one for both streams, and sends it to the local node when there is enough of it, when
the stream changes, when some time has passed, or when the process ends.

The functions are those of `command_executor.cc`, with the requests they send.  Left out are the
ids `MessageSender` gives these requests, which nobody reads, and what is printed on the remote
machine.  Every reading of the clock is an argument.
-/

set_option autoImplicit false

namespace Dcfpe.Rs

structure CommandExecutor where
  originalRequestId : Int := -1
  sessionId : Int
  /-- A process has been started with this object as its host. -/
  process : Bool := false
  stopped : Bool := false
  bufferedOutput : Text := []
  isStdout : Bool := true
  lastSendTime : Int := 0
  waitForCommand : Bool := true
  remoteShowOutput : Bool := false
  remoteShowError : Bool := false
  localShowOutput : Bool := true
  localShowError : Bool := true
  deriving DecidableEq, Repr

namespace CommandExecutor

/-- `execute`: a command that is not waited for is started without a host.  `started` says whether
the process could be started, which is what the caller is told. -/
def execute (e : CommandExecutor) (command : ExecuteCommandRequest) (originalRequestId : Int)
    (started : Bool) (now : Int) : CommandExecutor × Bool :=
  let e :=
    { e with
      originalRequestId := originalRequestId
      waitForCommand := command.waitForCommand
      remoteShowOutput := command.remoteShowOutput
      remoteShowError := command.remoteShowError
      localShowOutput := command.localShowOutput
      localShowError := command.localShowError }
  if command.waitForCommand && started then ({ e with process := true, lastSendTime := now }, true)
  else (e, started)

/-- The request that carries what is in the buffer. -/
def outputRequest (e : CommandExecutor) : Request :=
  { sessionId := e.sessionId
    executeOutput := some
      { originalRequestId := e.originalRequestId
        isExit := false
        isErrorOutput := !e.isStdout
        output := e.bufferedOutput } }

def sendBufferedOutput (e : CommandExecutor) (now : Int) : CommandExecutor × List Request :=
  if e.bufferedOutput = [] then (e, [])
  else
    ({ e with bufferedOutput := [], lastSendTime := now },
      if (e.localShowOutput && e.isStdout) || (e.localShowError && !e.isStdout) then
        [e.outputRequest]
      else [])

/-- `OnOutput`, with its readings of the clock in order: when the stream changes, at the test, and
when enough has come together. -/
def onOutput (e : CommandExecutor) (isStdOut : Bool) (data : Text) (t₁ t₂ t₃ : Int) :
    CommandExecutor × List Request :=
  let (e, changed) :=
    if e.bufferedOutput ≠ [] ∧ e.isStdout ≠ isStdOut then e.sendBufferedOutput t₁ else (e, [])
  let e := { e with isStdout := isStdOut, bufferedOutput := e.bufferedOutput ++ data }
  if e.bufferedOutput.length > 1024 ∨ t₂ - e.lastSendTime > 50000 then
    let (e, enough) := e.sendBufferedOutput t₃
    (e, changed ++ enough)
  else (e, changed)

/-- `OnStop`: what is left, and then the exit. -/
def onStop (e : CommandExecutor) (exitCode : Int) (now : Int) : CommandExecutor × List Request :=
  let (e, rest) := e.sendBufferedOutput now
  ({ e with stopped := true },
    rest ++
      [{ sessionId := e.sessionId
         executeOutput := some
          { originalRequestId := e.originalRequestId, isExit := true, exitCode := exitCode } }])

/-- `flushOutputImpl`, which runs every second until the executor has stopped. -/
def flushOutputImpl (e : CommandExecutor) (now : Int) : CommandExecutor × List Request :=
  e.sendBufferedOutput now

end CommandExecutor

end Dcfpe.Rs

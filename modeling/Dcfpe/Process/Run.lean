import Dcfpe.Lib.Machine
import Dcfpe.Process.Pipe

/-!
# Running a child process

`Process` starts a child, whose output goes to one or two pipes, and has a thread that takes packets
off a completion port until one of them says that it is over: reads that are done, messages of the
job object the child is in, and what `Stop` and the time limit post.  The chunks it has read go to
the UI thread as tasks, and so does its own end.

Three parties move in `step`: the child and Windows, which queue packets; the loop of `Run`, one
iteration at a time; and the UI thread, which runs the tasks in the order they were posted.
-/

set_option autoImplicit false

namespace Dcfpe

inductive ExitReason where
  | unknown
  | exit
  | terminated
  | exception
  | tle
  | xtle
  | mle
  | pmle
  | ole
  | createNewProcess
  deriving DecidableEq, Repr

/-- What a job object reports; `other` is what `Run` has no case for. -/
inductive JobMessage where
  | abnormalExitProcess
  | exitProcess
  | newProcess
  | endOfJobTime
  | jobMemoryLimit
  | processMemoryLimit
  | other
  deriving DecidableEq, Repr

/-- A packet of the completion port: its key, and for a job message the process it is about. -/
inductive CompletionPacket where
  | stdOut
  | stdErr
  | stdIn
  | forceStop
  | timeOut
  | job (message : JobMessage) (id : Nat)
  deriving DecidableEq, Repr

/-- The part of `ProcessOption` that `Run` depends on. -/
structure ProcessOption where
  redirectStdInout : Bool := false
  treatErrAsOut : Bool := true
  createSubProcess : Bool := true
  outputBufferSize : Int := 0
  jobTimeLimit : Int := 0
  outputLimit : Int := 0
  deriving DecidableEq, Repr

inductive ProcessStatus where
  | running
  | stopped
  deriving DecidableEq, Repr

/-- The tasks `Run` posts to the UI thread. -/
inductive ProcessTask where
  | onProcessOutput (isStdOut : Bool) (buffer : List UInt8)
  | onThreadExit
  deriving DecidableEq, Repr

inductive Child where
  | running
  | exited (code : Int)
  deriving DecidableEq, Repr

structure Process where
  option : ProcessOption
  processId : Nat
  status : ProcessStatus := .running
  stdOutRead : Option PipeServer := none
  stdErrRead : Option PipeServer := none
  outputSize : Nat := 0
  exitReason : ExitReason := .unknown
  exitCode : Int := -1
  /-- The completion port, oldest packet first. -/
  packets : List CompletionPacket := []
  /-- `Run` has not left its loop. -/
  looping : Bool := true
  uiTasks : List ProcessTask := []
  /-- The tasks the UI thread has run. -/
  ran : List ProcessTask := []
  child : Child := .running
  /-- Everything the child has written to its stdout. -/
  written : List UInt8 := []
  deriving DecidableEq, Repr

namespace Process

/-! ## The pipes -/

/-- `std_out_read_` or `std_err_read_`. -/
def pio (isStdOut : Bool) (s : Process) : Option PipeServer :=
  if isStdOut then s.stdOutRead else s.stdErrRead

def setPio (isStdOut : Bool) (p : PipeServer) (s : Process) : Process :=
  if isStdOut then { s with stdOutRead := some p } else { s with stdErrRead := some p }

def completeKey (isStdOut : Bool) : CompletionPacket := if isStdOut then .stdOut else .stdErr

/-- A pipe has changed, and if that has done a `ReadFile` there is a packet. -/
def putPio (isStdOut : Bool) (r : PipeServer × Bool) (s : Process) : Process :=
  let s := s.setPio isStdOut r.1
  if r.2 then { s with packets := s.packets ++ [completeKey isStdOut] } else s

def read (isStdOut : Bool) (s : Process) : Process :=
  match s.pio isStdOut with
  | none => s
  | some p => s.putPio isStdOut p.read

/-- What `Start` and `Run` have set up when the child is resumed. -/
def start (option : ProcessOption) (processId : Nat) : Process :=
  let s : Process := { option := option, processId := processId }
  let s :=
    if option.redirectStdInout then
      { s with
        stdOutRead := some (.connected option.outputBufferSize)
        stdErrRead :=
          if option.treatErrAsOut then none else some (.connected option.outputBufferSize) }
    else s
  (s.read true).read false

/-! ## The loop of `Run` -/

/-- A packet of `std_out_read_` or `std_err_read_`. -/
def handleIo (isStdOut : Bool) (s : Process) : Process × Option ExitReason :=
  match s.pio isStdOut with
  | none => (s, none)
  | some p =>
    let (p, ok) := p.waitForPendingIo
    let s := s.setPio isStdOut p
    if !ok then (s, none)
    else
      let s := if isStdOut then { s with outputSize := s.outputSize + p.readSize } else s
      if s.option.outputLimit > 0 ∧ s.outputSize > s.option.outputLimit then (s, some .ole)
      else
        let s := { s with uiTasks := s.uiTasks ++ [ProcessTask.onProcessOutput isStdOut p.chunk] }
        (s.read isStdOut, none)

/-- Whether a job message ends the loop. -/
def jobExit (s : Process) (message : JobMessage) (id : Nat) : Option ExitReason :=
  match message with
  | .abnormalExitProcess => if id = s.processId then some .exception else none
  | .exitProcess => if id = s.processId then some .exit else none
  | .newProcess => if !s.option.createSubProcess then some .createNewProcess else none
  | .endOfJobTime => some .xtle
  | .jobMemoryLimit => some .mle
  | .processMemoryLimit => some .pmle
  | .other => none

/-- What an iteration does with its packet, and whether it is `should_exit`. -/
def handlePacket (s : Process) : CompletionPacket → Process × Option ExitReason
  | .stdOut => s.handleIo true
  | .stdErr => s.handleIo false
  | .stdIn => (s, none)
  | .forceStop => (s, some .terminated)
  | .timeOut => (s, some .tle)
  | .job message id => (s, s.jobExit message id)

/-- The end of `Run`.  Closing the job kills a child that is still there; `killed` is its exit
code then. -/
def leave (reason : ExitReason) (killed : Int) (s : Process) : Process :=
  let code := match s.child with
    | .running => killed
    | .exited code => code
  { s with
    exitReason := reason
    exitCode := code
    looping := false
    child := .exited code
    uiTasks := s.uiTasks ++ [ProcessTask.onThreadExit] }

def iterate (killed : Int) (s : Process) : Option Process :=
  match s.packets with
  | [] => none
  | packet :: packets =>
    match handlePacket { s with packets := packets } packet with
    | (s, none) => some s
    | (s, some reason) => some (s.leave reason killed)

/-! ## The parties -/

inductive Action where
  /-- The child writes to its stdout or its stderr. -/
  | write (toErr : Bool) (bytes : List UInt8)
  | exit (code : Int)
  /-- The child ends abnormally. -/
  | crash (code : Int)
  /-- The job object reports something else. -/
  | jobMessage (message : JobMessage) (id : Nat)
  /-- A write to the child's stdin is done. -/
  | stdIn
  | stop
  | onProcessTimeOut
  | iterate (killed : Int)
  /-- The UI thread runs the oldest task. -/
  | runTask
  deriving DecidableEq, Repr

def post (packet : CompletionPacket) (s : Process) : Process :=
  { s with packets := s.packets ++ [packet] }

def childWrite (toErr : Bool) (bytes : List UInt8) (s : Process) : Option Process :=
  let isStdOut := !toErr || s.option.treatErrAsOut
  match s.pio isStdOut with
  | none => none
  | some p =>
    if p.handle = none then none
    else some
      { s.putPio isStdOut (p.clientWrite bytes) with
        written := if isStdOut then s.written ++ bytes else s.written }

def runTask (s : Process) : Option Process :=
  match s.uiTasks with
  | [] => none
  | task :: uiTasks =>
    some
      { s with
        uiTasks := uiTasks
        ran := s.ran ++ [task]
        status := if task = .onThreadExit then .stopped else s.status }

/-- A job message that says the child itself has ended. -/
def EndsChild (s : Process) (message : JobMessage) (id : Nat) : Prop :=
  id = s.processId ∧ (message = .exitProcess ∨ message = .abnormalExitProcess)

instance (s : Process) (message : JobMessage) (id : Nat) : Decidable (s.EndsChild message id) :=
  inferInstanceAs (Decidable (_ ∧ _))

def step : Machine Process Action
  | s, .write toErr bytes => if s.child = .running then s.childWrite toErr bytes else none
  | s, .exit code =>
    if s.child = .running then
      some ({ s with child := .exited code }.post (.job .exitProcess s.processId))
    else none
  | s, .crash code =>
    if s.child = .running then
      some ({ s with child := .exited code }.post (.job .abnormalExitProcess s.processId))
    else none
  | s, .jobMessage message id =>
    if s.EndsChild message id then none else some (s.post (.job message id))
  | s, .stdIn => if s.option.redirectStdInout then some (s.post .stdIn) else none
  | s, .stop =>
    if s.status = .running then some ({ s with status := .stopped }.post .forceStop) else none
  | s, .onProcessTimeOut =>
    if s.option.jobTimeLimit > 0 then
      some (if s.status = .running then s.post .timeOut else s)
    else none
  | s, .iterate killed => if s.looping then s.iterate killed else none
  | s, .runTask => s.runTask

/-! ## The output -/

/-- What is still in the stdout pipe. -/
def unread (s : Process) : List UInt8 := (s.stdOutRead.map PipeServer.unread).getD []

/-- The stdout chunks among some tasks, one after the other. -/
def stdOutOf : List ProcessTask → List UInt8
  | [] => []
  | .onProcessOutput true buffer :: tasks => buffer ++ stdOutOf tasks
  | .onProcessOutput false _ :: tasks => stdOutOf tasks
  | .onThreadExit :: tasks => stdOutOf tasks

/-- What the host has been given before `OnThreadExit`. -/
def delivered (s : Process) : List UInt8 := stdOutOf (s.ran.takeWhile (· ≠ .onThreadExit))

/-- `OnThreadExit` has run after a normal exit. -/
def ExitedNormally (s : Process) : Prop := .onThreadExit ∈ s.ran ∧ s.exitReason = .exit

instance (s : Process) : Decidable s.ExitedNormally := inferInstanceAs (Decidable (_ ∧ _))

/-- The child exits while some of its output is still in the pipe. -/
def LeavesUnread (s : Process) : Action → Prop
  | .exit _ => s.child = .running ∧ s.unread ≠ []
  | _ => False

end Process

end Dcfpe
